import StagedBuilder.Proofs.RenamedTexts

namespace StagedBuilder

open Text
open ClassName (simple isDotted_iff simple_of_not_isDotted)
open Imports (isDotted)

namespace Renaming

variable (m : Renaming)

def onEvent : NameEvent → NameEvent
  | .reserve simple => .reserve (m.onText simple)
  | .use name => .use (m.onText name)

def onRequest : NameRequest → NameRequest
  | .reserve simple => .reserve (m.onText simple)
  | .register reference => .register (m.onText reference)
  | .render type => .render (type.mapBases m.onText)

section Strings

variable {s t : String}

theorem toList_onText (s : String) : (m.onText s).toList = m.onChars s.toList :=
  String.toList_ofList

theorem onText_injective : Function.Injective m.onText := fun _ _ h =>
  String.toList_injective (m.onChars_inj (String.ofList_injective h))

@[simp] theorem isDotted_onText (s : String) : isDotted (m.onText s) = isDotted s := by
  rw [Bool.eq_iff_iff, isDotted_iff, isDotted_iff, toList_onText, dot_mem_onChars]

theorem onText_of_not_dotted (h : isDotted s = false) : m.onText s = s := by
  rw [← Bool.not_eq_true, isDotted_iff] at h
  rw [onText, onChars_of_no_dot m h, String.ofList_toList]

theorem onText_simple (s : String) : m.onText (simple s) = simple s :=
  m.onText_of_not_dotted (ClassName.not_isDotted_simple s)

@[simp] theorem simple_onText (s : String) : simple (m.onText s) = simple s := by
  have hchars := m.rtakeWhile_onChars s.toList
  rw [List.rtakeWhile, List.rtakeWhile] at hchars
  rw [simple, simple, toList_onText, hchars]

theorem cuts_of_any (h : t.toList.any continuesIdentifier = false) :
    ∀ c ∈ t.toList, continuesIdentifier c = false :=
  fun c hc => by simpa using List.any_eq_false.1 h c hc

theorem onText_append (s : String) (h : ∀ c ∈ t.toList, continuesIdentifier c = false) :
    m.onText (s ++ t) = m.onText s ++ t := by
  rw [onText, String.toList_append, onChars_append m _ h, String.ofList_append,
    String.ofList_toList]
  rfl

theorem onText_cut {c : Char} {sep : String} (hc : continuesName c = false)
    (hsep : sep.toList.getLast? = some c) (hcut : ∀ c ∈ sep.toList, continuesIdentifier c = false)
    (s t : String) : m.onText (s ++ sep ++ t) = m.onText s ++ sep ++ m.onText t := by
  obtain ⟨x, hx⟩ := List.getLast?_eq_some_iff.1 hsep
  rw [← m.onText_append s hcut, ← String.toList_inj]
  simp only [toList_onText, String.toList_append, hx]
  rw [← List.append_assoc, List.append_assoc _ [c], List.singleton_append, onChars_cut m hc,
    onChars_cut m hc, onChars_nil, List.append_assoc, List.singleton_append]

theorem onText_parts {bound name dimensions : String}
    (hbound : bound = "" ∨ bound ∈ Reference.wildcardBounds)
    (hd : Reference.IsDimensions dimensions.toList) :
    m.onText (bound ++ name ++ dimensions) = bound ++ m.onText name ++ dimensions := by
  rw [m.onText_append _ hd.continues]
  rcases hbound with rfl | hbound
  · rw [String.empty_append, String.empty_append]
  · rw [← String.toList_inj]
    simp only [String.toList_append, toList_onText, Reference.onChars_bound_append m hbound]

theorem onText_text (r : Reference.Spelling) :
    m.onText r.text = r.bound ++ m.onName r.name ++ r.dimensions := by
  have hname : m.onText r.name = m.onName r.name := by
    rcases r.isName with hname | hname
    · have honly := m.onRun_append hname.getLast?_ne (y := []) nofun
      rw [List.append_nil, List.append_nil, String.ofList_toList] at honly
      rw [onText, onChars_run m hname.isRun, honly, String.ofList_toList]
    · have hwild : ¬ IsQualified "?" := by decide +kernel
      rw [hname, m.onText_of_not_dotted (by decide), onName, if_neg hwild]
  rw [Reference.Spelling.text, m.onText_parts r.isBound r.isDimensions, hname]

theorem onText_intercalate (texts : List String) :
    m.onText (", ".intercalate texts) = ", ".intercalate (texts.map m.onText) := by
  induction texts with
  | nil => rfl
  | cons s texts ih =>
    cases texts with
    | nil => simp
    | cons t texts =>
      rw [String.intercalate_cons_cons, onText_cut m (c := ' ') (by decide +kernel) rfl
        (cuts_of_any (by decide +kernel)), ih]
      simp only [List.map_cons, String.intercalate_cons_cons]

theorem onText_renderWith (f : String → String) (t : TypeExpr) :
    m.onText (t.renderWith f) = t.renderWith (m.onText ∘ f) := by
  induction t using TypeExpr.argument_induction with
  | node base args ih =>
    cases args with
    | nil => rfl
    | cons a as =>
      have hargs : ((a :: as).map (·.renderWith f)).map m.onText =
          (a :: as).map (·.renderWith (m.onText ∘ f)) := by
        rw [List.map_map]
        exact List.map_congr_left ih
      rw [TypeExpr.renderWith_node _ _ (by simp), TypeExpr.renderWith_node _ _ (by simp),
        m.onText_append _ (cuts_of_any (by decide +kernel)),
        onText_cut m (c := '<') (by decide +kernel) rfl (cuts_of_any (by decide +kernel)),
        onText_intercalate, hargs]
      rfl

end Strings

end Renaming

namespace Imports

variable (m : Renaming) (package : String) {i : Imports}

def renamed (i : Imports) : Imports where
  package := package
  entries := i.entries.map fun entry => (m.onText entry.1, m.onText entry.2)
  claimed := i.claimed.map m.onText

def Shortens (i : Imports) (reference : String) : Prop :=
  i.nameOf (Reference.ofText reference).className = simple (Reference.ofText reference).className

instance (i : Imports) (reference : String) : Decidable (i.Shortens reference) :=
  inferInstanceAs (Decidable (_ = _))

section Steps

theorem lookup_renamed (name : String) :
    (i.renamed m package).entries.lookup (m.onText name) =
      (i.entries.lookup name).map m.onText := by
  rw [renamed]
  induction i.entries with
  | nil => rfl
  | cons entry entries ih =>
    rw [List.map_cons, List.lookup_cons, List.lookup_cons, ih]
    cases hkey : name == entry.1 with
    | true => simp [eq_of_beq hkey]
    | false =>
      have hne : m.onText name ≠ m.onText entry.1 := m.onText_injective.ne (ne_of_beq_false hkey)
      rw [beq_false_of_ne hne]

theorem nameOf_renamed (name : String) :
    (i.renamed m package).nameOf (m.onText name) = m.onText (i.nameOf name) := by
  rw [nameOf, nameOf, lookup_renamed]
  cases i.entries.lookup name <;> rfl

theorem reserve_renamed (s : String) :
    (i.renamed m package).reserve (m.onText s) = (i.reserve s).renamed m package := rfl

theorem contains_renamed (s : String) :
    (i.renamed m package).claimed.contains (simple s) = i.claimed.contains (simple s) := by
  rw [Bool.eq_iff_iff, List.contains_iff_mem, List.contains_iff_mem, ← m.onText_simple s, renamed,
    List.mem_map_of_injective m.onText_injective, m.onText_simple]

theorem note_renamed (name : String) :
    (i.renamed m package).note (m.onText name) = (i.note name).renamed m package := by
  have hreserve := reserve_renamed m package (i := i) (simple name)
  rw [m.onText_simple] at hreserve
  simp only [note, lookup_renamed, Option.isSome_map, m.isDotted_onText, m.simple_onText,
    contains_renamed, reserve_renamed, hreserve]
  split_ifs with hknown hdotted hclaimed
  · rfl
  · rfl
  · rfl
  · simp only [renamed, List.map_cons, m.onText_simple, reserve]

theorem apply_renamed (e : NameEvent) :
    (i.renamed m package).apply (m.onEvent e) = (i.apply e).renamed m package := by
  cases e with
  | reserve => rfl
  | use name => exact note_renamed m package name

theorem applyAll_renamed (es : List NameEvent) :
    (i.renamed m package).applyAll (es.map m.onEvent) = (i.applyAll es).renamed m package := by
  induction es generalizing i with
  | nil => rfl
  | cons e es ih => rw [List.map_cons, applyAll_cons, applyAll_cons, apply_renamed, ih]

theorem display_renamed (reference : String) :
    (i.renamed m package).display (m.onText reference) = m.onText (i.display reference) := by
  rw [display, Reference.ofText_onText, nameOf_renamed, display,
    m.onText_parts (Reference.bound_mem reference) (Reference.isDimensions_dimensions reference)]

theorem shortens_renamed (reference : String) :
    (i.renamed m package).Shortens (m.onText reference) ↔ i.Shortens reference := by
  rw [Shortens, Shortens, Reference.ofText_onText, nameOf_renamed, m.simple_onText]
  conv_lhs => rw [← m.onText_simple]
  exact m.onText_injective.eq_iff

theorem onText_display {reference : String} (h : i.Shortens reference) :
    m.onText (i.display reference) = i.display reference := by
  rw [display, h, m.onText_parts (Reference.bound_mem reference)
    (Reference.isDimensions_dimensions reference), m.onText_simple]

end Steps

section Runs

theorem events_onRequest (r : NameRequest) : (m.onRequest r).events = r.events.map m.onEvent := by
  have hreference : ∀ s, NameEvent.ofReference (m.onText s) = m.onEvent (.ofReference s) := by
    intro s
    rw [NameEvent.ofReference, Reference.ofText_onText]
    rfl
  cases r with
  | reserve => rfl
  | register s => exact congrArg (fun e => [e]) (hreference s)
  | render t =>
    rw [Renaming.onRequest, NameRequest.events, TypeExpr.bases_mapBases, NameRequest.events,
      List.map_map, List.map_map]
    exact List.map_congr_left fun s _ => hreference s

theorem text_renamed (r : NameRequest) :
    (m.onRequest r).text (i.renamed m package) = (r.text i).map m.onText := by
  cases r with
  | reserve => rfl
  | register s => exact congrArg some (display_renamed m package s)
  | render t =>
    rw [Renaming.onRequest, NameRequest.text, NameRequest.text, Option.map_some,
      TypeExpr.renderWith_mapBases, m.onText_renderWith]
    exact congrArg some (TypeExpr.renderWith_congr t fun s _ => display_renamed m package s)

theorem answer_renamed (r : NameRequest) :
    (i.renamed m package).answer (m.onRequest r) =
      ((i.answer r).1.map m.onText, (i.answer r).2.renamed m package) := by
  rw [answer_eq, answer_eq, events_onRequest, applyAll_renamed, text_renamed]

theorem after_renamed (rs : List NameRequest) :
    (i.renamed m package).after (rs.map m.onRequest) = (i.after rs).renamed m package := by
  induction rs generalizing i with
  | nil => rfl
  | cons r rs ih =>
    rw [List.map_cons, after, List.foldl_cons, answer_renamed]
    exact ih

theorem ofOwner_renamed {owner owner' : String} (h : simple owner' = simple owner) :
    ofOwner owner' = (ofOwner owner).renamed m (ClassName.package owner') := by
  rw [ofOwner, ofOwner, h, reserve, reserve, renamed, List.map_cons, m.onText_simple]
  rfl

/-- Whether a class is written short depends on the simple names alone: moved to other packages, the
classes of a run get the short names that they had, and the others are written in full as before.
What is moved is the class between the bound and the array suffixes of a reference. -/
theorem short_names_of_renamed {owner owner' : String} (h : simple owner' = simple owner)
    (before : List NameRequest) (r : NameRequest) :
    let i := (ofOwner owner).after before
    let i' := (ofOwner owner').after (before.map m.onRequest)
    (i.answer r).1 = r.text (i.answer r).2 ∧
    (i'.answer (m.onRequest r)).1 = (m.onRequest r).text (i'.answer (m.onRequest r)).2 ∧
    (i'.answer (m.onRequest r)).1 = (i.answer r).1.map m.onText ∧
    (∀ reference,
      ((i'.answer (m.onRequest r)).2.Shortens (m.onText reference) ↔
        (i.answer r).2.Shortens reference) ∧
      ((i.answer r).2.Shortens reference →
        (i'.answer (m.onRequest r)).2.display (m.onText reference) =
          (i.answer r).2.display reference)) ∧
    ∀ r : Reference.Spelling, m.onText r.text = r.bound ++ m.onName r.name ++ r.dimensions := by
  intro i i'
  have hrun : i' = i.renamed m (ClassName.package owner') := by
    rw [← after_renamed, ← ofOwner_renamed m h]
  refine ⟨?_, ?_, ?_, ?_, m.onText_text⟩
  · rw [answer_eq]
  · rw [answer_eq]
  · rw [hrun, answer_renamed]
  · intro reference
    rw [hrun, answer_renamed]
    refine ⟨shortens_renamed m _ reference, fun hshort => ?_⟩
    rw [display_renamed, onText_display m hshort]

end Runs

end Imports

namespace Renaming

def below (package : String) (h : ClassName.WellFormed package) : Renaming where
  apply q := package ++ "." ++ q
  isQualified q hq := by
    refine ⟨?_, by simp [isDotted_iff]⟩
    have hpackage := ClassName.wellFormed_iff_fits.1 h
    have hname := ClassName.wellFormed_iff_fits.1 hq.1
    rw [ClassName.wellFormed_iff_fits, Fits, String.toList_append, String.toList_append,
      Reading.scan_append, Reading.scan_append, hpackage]
    exact hname
  simple_apply q hq := by
    have hdot : ¬ q.toList.all (fun c => decide (c ≠ '.')) = true :=
      fun h => of_decide_eq_true (List.all_eq_true.1 h _ (isDotted_iff.1 hq.2)) rfl
    have hchars := rtakeWhile_append (· ≠ '.') (package ++ ".").toList q.toList
    rw [if_neg hdot, List.rtakeWhile, List.rtakeWhile, ← String.toList_append] at hchars
    rw [simple, simple, hchars]
  injOn _ _ _ _ h := (String.append_right_inj _).1 h

theorem short_names_below_vendor :
    let m := below "vendor" (by decide +kernel)
    let before := [.reserve "Own", .register "b.Tide"]
    let r := .render (.node "Map" [.leaf "? extends c.Tide[]", .leaf "c.Port"])
    simple "d.Boat" = simple "a.Boat" ∧
      (((Imports.ofOwner "d.Boat").after (before.map m.onRequest)).answer (m.onRequest r)).1 =
        some "Map<? extends vendor.c.Tide[], Port>" := by
  intro m before r
  have hsimple : simple "d.Boat" = simple "a.Boat" := by decide
  refine ⟨hsimple, ?_⟩
  rw [(Imports.short_names_of_renamed m hsimple before r).2.2.1]
  decide +kernel

end Renaming

end StagedBuilder
