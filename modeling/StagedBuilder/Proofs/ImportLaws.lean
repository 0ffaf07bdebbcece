import Mathlib.Data.List.Sort
import Mathlib.Data.String.Basic
import StagedBuilder.Proofs.ClassNameLaws
import StagedBuilder.Proofs.KeyLaws
import StagedBuilder.Proofs.TypeLaws

namespace StagedBuilder

open ClassName (simple package simple_ne_of_isDotted not_isDotted_simple simple_of_not_isDotted)

inductive NameEvent
  | reserve (simple : String)
  | use (name : String)
  deriving DecidableEq

inductive NameRequest
  | reserve (simple : String)
  | register (reference : String)
  | render (type : TypeExpr)

def NameEvent.simple : NameEvent → String
  | .reserve simple => simple
  | .use name => ClassName.simple name

def NameEvent.ofReference (reference : String) : NameEvent :=
  .use (Reference.ofText reference).className

namespace NameRequest

def events : NameRequest → List NameEvent
  | .reserve simple => [.reserve simple]
  | .register reference => [.ofReference reference]
  | .render type => type.bases.map .ofReference

def text (i : Imports) : NameRequest → Option String
  | .reserve _ => none
  | .register reference => some (i.display reference)
  | .render type => some (type.renderWith i.display)

/-- The classes of the request are in use after `es`. -/
def Seen (es : List NameEvent) (r : NameRequest) : Prop :=
  ∀ e ∈ r.events, e ∈ es ∧ ∃ name, e = .use name

end NameRequest

namespace Imports

def apply (i : Imports) : NameEvent → Imports
  | .reserve simple => i.reserve simple
  | .use name => i.note name

def applyAll (i : Imports) (es : List NameEvent) : Imports := es.foldl apply i

def answer (i : Imports) : NameRequest → Option String × Imports
  | .reserve simple => (none, i.reserve simple)
  | .register reference => ((i.register reference).1, (i.register reference).2)
  | .render type => ((i.render type).1, (i.render type).2)

def after (i : Imports) (rs : List NameRequest) : Imports := rs.foldl (fun i r => (i.answer r).2) i

def nameFor (i : Imports) (name : String) : String :=
  if simple name ∈ i.claimed then name else simple name

section Steps

variable {i : Imports} {name q : String}

theorem applyAll_append (es es' : List NameEvent) :
    i.applyAll (es ++ es') = (i.applyAll es).applyAll es' := List.foldl_append

theorem applyAll_nil : i.applyAll [] = i := rfl

theorem applyAll_cons (e : NameEvent) (es : List NameEvent) :
    i.applyAll (e :: es) = (i.apply e).applyAll es := rfl

theorem noteAll_eq (references : List String) :
    i.noteAll references = i.applyAll (references.map .ofReference) := by
  rw [applyAll, List.foldl_map]
  rfl

theorem note_of_known (h : (i.entries.lookup name).isSome = true) : i.note name = i := by
  rw [note, if_pos h]

theorem note_of_not_dotted (hnew : i.entries.lookup name = none) (h : isDotted name = false) :
    i.note name = i.reserve name := by
  simp [note, hnew, h]

theorem note_of_dotted (hnew : i.entries.lookup name = none) (h : isDotted name = true) :
    (i.note name).entries = (name, i.nameFor name) :: i.entries ∧
      ∀ x, x ∈ (i.note name).claimed ↔ x ∈ i.claimed ∨ simple name = x := by
  by_cases hc : simple name ∈ i.claimed
  · simp only [note, nameFor, hnew, h, hc, Option.isSome_none, Bool.false_eq_true, if_false,
      Bool.not_true, List.contains_iff_mem, if_true, true_and]
    intro x
    exact ⟨.inl, fun hx => hx.elim id fun hx => hx ▸ hc⟩
  · simp only [note, nameFor, reserve, hnew, h, hc, Option.isSome_none, Bool.false_eq_true,
      if_false, Bool.not_true, List.contains_iff_mem, true_and, List.mem_cons]
    intro x
    rw [or_comm, eq_comm]

@[simp] theorem package_apply (e : NameEvent) : (i.apply e).package = i.package := by
  cases e with
  | reserve => rfl
  | use name =>
    simp only [apply, note, reserve]
    split_ifs <;> rfl

@[simp] theorem package_applyAll (es : List NameEvent) : (i.applyAll es).package = i.package := by
  induction es generalizing i with
  | nil => rfl
  | cons e es ih => rw [applyAll_cons, ih, package_apply]

theorem isImported_applyAll (es : List NameEvent) : (i.applyAll es).isImported = i.isImported := by
  funext entry
  simp only [isImported, package_applyAll]

theorem entries_apply (e : NameEvent) :
    (i.apply e).entries = i.entries ∨
      ∃ name, e = .use name ∧ i.entries.lookup name = none ∧ isDotted name = true ∧
        (i.apply e).entries = (name, i.nameFor name) :: i.entries := by
  cases e with
  | reserve => exact .inl rfl
  | use name =>
    cases hl : i.entries.lookup name with
    | some d => exact .inl (by rw [apply, note_of_known (by simp [hl])])
    | none =>
      cases hd : isDotted name with
      | false => exact .inl (by rw [apply, note_of_not_dotted hl hd]; rfl)
      | true => exact .inr ⟨name, rfl, hl, hd, (note_of_dotted hl hd).1⟩

theorem lookup_apply {d : String} (e : NameEvent) (h : i.entries.lookup q = some d) :
    (i.apply e).entries.lookup q = some d := by
  rcases entries_apply (i := i) e with he | ⟨name, -, hnew, -, he⟩
  · rw [he, h]
  · have hne : q ≠ name := by
      rintro rfl
      rw [hnew] at h
      cases h
    rw [he, List.lookup_cons, beq_false_of_ne hne, h]

theorem lookup_applyAll {d : String} (es : List NameEvent) (h : i.entries.lookup q = some d) :
    (i.applyAll es).entries.lookup q = some d := by
  induction es generalizing i with
  | nil => exact h
  | cons e es ih => exact ih (lookup_apply e h)

theorem isSome_lookup_apply (e : NameEvent) :
    ((i.apply e).entries.lookup q).isSome = true ↔
      (i.entries.lookup q).isSome = true ∨ e = .use q ∧ isDotted q = true := by
  constructor
  · intro h
    rcases entries_apply (i := i) e with he | ⟨name, rfl, -, hd, he⟩
    · exact .inl (he ▸ h)
    · by_cases hq : q = name
      · exact .inr ⟨hq ▸ rfl, hq ▸ hd⟩
      · rw [he, List.lookup_cons, beq_false_of_ne hq] at h
        exact .inl h
  · rintro (h | ⟨rfl, hd⟩)
    · obtain ⟨d, h⟩ := Option.isSome_iff_exists.1 h
      rw [lookup_apply e h]
      rfl
    · cases hl : i.entries.lookup q with
      | some d => rw [lookup_apply _ hl]; rfl
      | none => simp [apply, (note_of_dotted hl hd).1]

theorem isSome_lookup_applyAll (es : List NameEvent) :
    ((i.applyAll es).entries.lookup q).isSome = true ↔
      (i.entries.lookup q).isSome = true ∨ .use q ∈ es ∧ isDotted q = true := by
  induction es generalizing i with
  | nil => simp [applyAll]
  | cons e es ih =>
    rw [applyAll_cons, ih, isSome_lookup_apply, List.mem_cons, or_and_right, or_assoc, @eq_comm _ e]

theorem nameOf_applyAll {es : List NameEvent} (es' : List NameEvent) (h : .use q ∈ es) :
    ((i.applyAll es).applyAll es').nameOf q = (i.applyAll es).nameOf q := by
  cases hl : (i.applyAll es).entries.lookup q with
  | some d => rw [nameOf, nameOf, lookup_applyAll es' hl, hl]
  | none =>
    have hnone : ((i.applyAll es).applyAll es').entries.lookup q = none := by
      rw [← Option.not_isSome_iff_eq_none, isSome_lookup_applyAll, hl]
      have hd : ¬ isDotted q = true := by
        intro hd
        have hsome := (isSome_lookup_applyAll (i := i) es).2 (.inr ⟨h, hd⟩)
        rw [hl] at hsome
        cases hsome
      simp [hd]
    rw [nameOf, nameOf, hnone, hl]

theorem display_applyAll {es : List NameEvent} (es' : List NameEvent) {reference : String}
    (h : .ofReference reference ∈ es) :
    ((i.applyAll es).applyAll es').display reference = (i.applyAll es).display reference := by
  simp only [display]
  rw [nameOf_applyAll es' h]

end Steps

mutual

theorem render_eq (i : Imports) (t : TypeExpr) :
    i.render t = (t.renderWith (i.noteAll t.bases).display, i.noteAll t.bases) :=
  match t with
  | .node base [] => by
    rw [render, TypeExpr.renderWith, TypeExpr.bases_node]
    rfl
  | .node base (a :: as) => by
    have hbase : .ofReference base ∈ [NameEvent.ofReference base] := List.mem_singleton.2 rfl
    have hfirst : ∀ b ∈ a.bases, NameEvent.ofReference b ∈ a.bases.map NameEvent.ofReference :=
      fun b hb => List.mem_map_of_mem hb
    have hname := fun es => display_applyAll (i := i) es hbase
    simp only [render, register, render_eq _ a, renderAll_eq _ as, TypeExpr.renderWith,
      TypeExpr.bases_node, List.flatMap_cons, noteAll_eq, List.map_cons, List.map_nil,
      List.map_append, applyAll_cons, applyAll_append, applyAll_nil] at hname ⊢
    rw [← applyAll_append, hname, applyAll_append]
    rw [TypeExpr.renderWith_congr a fun b hb => display_applyAll _ (hfirst b hb)]

theorem renderAll_eq (i : Imports) (ts : List TypeExpr) :
    i.renderAll ts = (TypeExpr.renderAllWith (i.noteAll (ts.flatMap (·.bases))).display ts,
      i.noteAll (ts.flatMap (·.bases))) :=
  match ts with
  | [] => rfl
  | t :: ts => by
    have hfirst : ∀ b ∈ t.bases, NameEvent.ofReference b ∈ t.bases.map NameEvent.ofReference :=
      fun b hb => List.mem_map_of_mem hb
    simp only [renderAll, render_eq _ t, renderAll_eq _ ts, TypeExpr.renderAllWith,
      List.flatMap_cons, noteAll_eq, List.map_append, applyAll_append]
    rw [TypeExpr.renderWith_congr t fun b hb => display_applyAll _ (hfirst b hb)]

end

section Runs

variable {i : Imports}

theorem answer_eq (r : NameRequest) :
    i.answer r = (r.text (i.applyAll r.events), i.applyAll r.events) := by
  cases r with
  | reserve simple => rfl
  | register reference => rfl
  | render type => rw [answer, render_eq, noteAll_eq, NameRequest.text, NameRequest.events]

theorem after_eq (rs : List NameRequest) : i.after rs = i.applyAll (rs.flatMap (·.events)) := by
  induction rs generalizing i with
  | nil => rfl
  | cons r rs ih =>
    rw [List.flatMap_cons, applyAll_append, ← ih, after, List.foldl_cons, answer_eq]
    rfl

theorem text_applyAll {es : List NameEvent} (es' : List NameEvent) {r : NameRequest}
    (h : ∀ e ∈ r.events, e ∈ es) :
    r.text ((i.applyAll es).applyAll es') = r.text (i.applyAll es) := by
  cases r with
  | reserve => rfl
  | register reference =>
    exact congrArg some (display_applyAll es' (h _ (List.mem_singleton.2 rfl)))
  | render type =>
    have hbases : ∀ b ∈ type.bases, .ofReference b ∈ es :=
      fun b hb => h _ (List.mem_map_of_mem hb)
    exact congrArg some
      (TypeExpr.renderWith_congr type fun b hb => display_applyAll es' (hbases b hb))

end Runs

structure Coherent (i : Imports) : Prop where
  keys : (i.entries.map Prod.fst).Nodup
  names : (i.entries.map Prod.snd).Nodup
  dotted : ∀ e ∈ i.entries, isDotted e.1 = true
  shown : ∀ e ∈ i.entries, e.2 = e.1 ∨ e.2 = simple e.1
  claims : ∀ e ∈ i.entries, simple e.1 ∈ i.claimed

theorem mem_keys_of_mem {l : List (String × String)} {e : String × String} (h : e ∈ l) :
    (l.lookup e.1).isSome = true := by
  induction l with
  | nil => cases h
  | cons e' l ih =>
    rw [List.lookup_cons]
    cases hb : e.1 == e'.1 with
    | true => rfl
    | false =>
      rcases List.mem_cons.1 h with rfl | h
      · simp at hb
      · exact ih h

namespace Coherent

variable {i : Imports}

theorem ofOwner (owner : String) : Coherent (ofOwner owner) where
  keys := List.nodup_nil
  names := List.nodup_nil
  dotted := by nofun
  shown := by nofun
  claims := by nofun

theorem lookup_of_mem (h : Coherent i) {e : String × String} (he : e ∈ i.entries) :
    i.entries.lookup e.1 = some e.2 :=
  StagedBuilder.lookup_of_mem h.keys he

theorem claimed_apply (h : Coherent i) (e : NameEvent) (x : String) :
    x ∈ (i.apply e).claimed ↔ x ∈ i.claimed ∨ e.simple = x := by
  cases e with
  | reserve simple =>
    simp only [Imports.apply, reserve, List.mem_cons, NameEvent.simple]
    rw [or_comm, @eq_comm _ x]
  | use name =>
    cases hl : i.entries.lookup name with
    | some d =>
      simp only [Imports.apply, note_of_known (show _ = true by rw [hl]; rfl), NameEvent.simple]
      have hclaim : simple name ∈ i.claimed := h.claims (name, d) (mem_of_lookup hl)
      constructor
      · exact .inl
      · rintro (hx | rfl)
        · exact hx
        · exact hclaim
    | none =>
      cases hd : isDotted name with
      | false =>
        simp only [Imports.apply, note_of_not_dotted hl hd, reserve, List.mem_cons,
          NameEvent.simple, simple_of_not_isDotted hd]
        rw [or_comm, @eq_comm _ x]
      | true => exact (note_of_dotted hl hd).2 x

theorem nameFor_not_mem (h : Coherent i) {name : String} (hnew : i.entries.lookup name = none)
    (hd : isDotted name = true) : i.nameFor name ∉ i.entries.map Prod.snd := by
  intro hm
  obtain ⟨e, he, hname⟩ := List.mem_map.1 hm
  have hne : e.1 ≠ name := by
    rintro rfl
    rw [h.lookup_of_mem he] at hnew
    cases hnew
  by_cases hc : simple name ∈ i.claimed
  · rw [nameFor, if_pos hc] at hname
    rcases h.shown e he with hs | hs
    · exact hne (hs ▸ hname)
    · exact simple_ne_of_isDotted hd (hname ▸ hs)
  · rw [nameFor, if_neg hc] at hname
    rcases h.shown e he with hs | hs
    · exact simple_ne_of_isDotted (h.dotted e he) (hs ▸ hname)
    · exact hc (hname ▸ hs ▸ h.claims e he)

theorem apply (h : Coherent i) (e : NameEvent) : Coherent (i.apply e) := by
  have hclaimed : ∀ x ∈ i.claimed, x ∈ (i.apply e).claimed :=
    fun x hx => (h.claimed_apply e x).2 (.inl hx)
  rcases entries_apply (i := i) e with he | ⟨name, rfl, hnew, hd, he⟩
  · exact ⟨he ▸ h.keys, he ▸ h.names, he ▸ h.dotted, he ▸ h.shown,
      fun e' he' => hclaimed _ (h.claims e' (he ▸ he'))⟩
  · have hkey : name ∉ i.entries.map Prod.fst := by
      intro hm
      obtain ⟨e, hmem, rfl⟩ := List.mem_map.1 hm
      rw [h.lookup_of_mem hmem] at hnew
      cases hnew
    have hshown : i.nameFor name = name ∨ i.nameFor name = simple name := by
      unfold nameFor
      split_ifs
      · exact .inl rfl
      · exact .inr rfl
    refine ⟨?_, ?_, ?_, ?_, ?_⟩
    · rw [he, List.map_cons, List.nodup_cons]
      exact ⟨hkey, h.keys⟩
    · rw [he, List.map_cons, List.nodup_cons]
      exact ⟨h.nameFor_not_mem hnew hd, h.names⟩
    · rw [he, List.forall_mem_cons]
      exact ⟨hd, h.dotted⟩
    · rw [he, List.forall_mem_cons]
      exact ⟨hshown, h.shown⟩
    · rw [he, List.forall_mem_cons]
      exact ⟨(h.claimed_apply _ _).2 (.inr rfl), fun e' he' => hclaimed _ (h.claims e' he')⟩

theorem applyAll (h : Coherent i) (es : List NameEvent) : Coherent (i.applyAll es) := by
  induction es generalizing i with
  | nil => exact h
  | cons e es ih => exact ih (h.apply e)

theorem claimed_applyAll (h : Coherent i) (es : List NameEvent) (x : String) :
    x ∈ (i.applyAll es).claimed ↔ x ∈ i.claimed ∨ ∃ e ∈ es, e.simple = x := by
  induction es generalizing i with
  | nil => simp [applyAll_nil]
  | cons e es ih =>
    rw [applyAll_cons, ih (h.apply e), h.claimed_apply, or_assoc, List.exists_mem_cons_iff]

theorem nameOf_of_mem (h : Coherent i) {e : String × String} (he : e ∈ i.entries) :
    i.nameOf e.1 = e.2 := by
  rw [nameOf, h.lookup_of_mem he]
  rfl

theorem mem_of_nameOf_ne {q : String} (hq : i.nameOf q ≠ q) : (q, i.nameOf q) ∈ i.entries := by
  cases hl : i.entries.lookup q with
  | none => simp [nameOf, hl] at hq
  | some d => simpa [nameOf, hl] using mem_of_lookup hl

theorem nameOf_eq_simple (h : Coherent i) {q : String} (hq : i.nameOf q ≠ q) :
    i.nameOf q = simple q :=
  (h.shown _ (mem_of_nameOf_ne hq)).resolve_left hq

theorem nameOf_inj (h : Coherent i) {q q' : String} (hq : isDotted q = true)
    (hq' : isDotted q' = true) (heq : i.nameOf q = i.nameOf q') : q = q' := by
  by_cases hshort : i.nameOf q = q
  · by_cases hshort' : i.nameOf q' = q'
    · rw [← hshort, heq, hshort']
    · have hsimple := h.nameOf_eq_simple hshort'
      exact absurd (hshort.symm.trans (heq.trans hsimple)) (simple_ne_of_isDotted hq)
  · by_cases hshort' : i.nameOf q' = q'
    · have hsimple := h.nameOf_eq_simple hshort
      exact absurd (hshort'.symm.trans (heq.symm.trans hsimple)) (simple_ne_of_isDotted hq')
    · have hmem := mem_of_nameOf_ne hshort
      have hmem' := mem_of_nameOf_ne hshort'
      exact congrArg Prod.fst (List.inj_on_of_nodup_map h.names hmem hmem' heq)

end Coherent

/-- The class that a short name stands for: the imported one with that simple name and else the one
of the own package or of `java.lang`. -/
def resolve (i : Imports) (inOwnPackage : Bool) (short : String) : String :=
  match i.imported.find? fun q => simple q = short with
  | some q => q
  | none => (if inOwnPackage then i.package else "java.lang") ++ "." ++ short

section Block

variable {i : Imports}

theorem mem_imported (h : Coherent i) {q : String} :
    q ∈ i.imported ↔
      i.nameOf q ≠ q ∧ ClassName.package q ≠ i.package ∧ ClassName.package q ≠ "java.lang" := by
  simp only [imported, List.mem_mergeSort, List.mem_map, List.mem_filter, isImported,
    Bool.and_eq_true, decide_eq_true_eq, and_assoc]
  constructor
  · rintro ⟨e, he, hname, hpackage, hlang, rfl⟩
    rw [h.nameOf_of_mem he]
    exact ⟨hname.symm, hpackage, hlang⟩
  · rintro ⟨hname, hpackage, hlang⟩
    exact ⟨_, Coherent.mem_of_nameOf_ne hname, hname.symm, hpackage, hlang, rfl⟩

theorem nodup_imported (h : Coherent i) : i.imported.Nodup := by
  rw [imported, (List.mergeSort_perm _ _).nodup_iff]
  exact (List.filter_sublist.map Prod.fst).nodup h.keys

theorem imported_ascending (h : Coherent i) : i.imported.Pairwise (· < ·) := by
  have hsorted : i.imported.Pairwise fun a b => decide (a ≤ b) = true :=
    List.pairwise_mergeSort (by simpa using fun a b c => le_trans) (by simpa using le_total) _
  have hdistinct : i.imported.Pairwise (· ≠ ·) := nodup_imported h
  exact (hsorted.and hdistinct).imp fun ⟨hle, hne⟩ => lt_of_le_of_ne (of_decide_eq_true hle) hne

theorem nodup_map_simple_imported (h : Coherent i) : (i.imported.map simple).Nodup := by
  apply (nodup_imported h).map_on
  intro q hq q' hq' hsimple
  have hq := ((mem_imported h).1 hq).1
  have hq' := ((mem_imported h).1 hq').1
  apply h.nameOf_inj (h.dotted _ (Coherent.mem_of_nameOf_ne hq))
    (h.dotted _ (Coherent.mem_of_nameOf_ne hq'))
  rw [h.nameOf_eq_simple hq, h.nameOf_eq_simple hq', hsimple]

theorem imported_sublist (h : Coherent i) (es : List NameEvent) :
    i.imported.Sublist (i.applyAll es).imported := by
  have hsubset : i.imported ⊆ (i.applyAll es).imported := by
    intro q hq
    rw [mem_imported h] at hq
    have hl := h.lookup_of_mem (Coherent.mem_of_nameOf_ne hq.1)
    rw [mem_imported (h.applyAll es), package_applyAll, nameOf, lookup_applyAll es hl]
    exact hq
  exact List.sublist_of_subperm_of_pairwise (List.subperm_of_subset (nodup_imported h) hsubset)
    (imported_ascending h) (imported_ascending (h.applyAll es))

theorem resolve_nameOf (h : Coherent i) {q : String} (hq : i.nameOf q ≠ q) :
    i.resolve (ClassName.package q = i.package) (i.nameOf q) = q := by
  have hmem := Coherent.mem_of_nameOf_ne hq
  have hd : isDotted q = true := h.dotted _ hmem
  rw [h.nameOf_eq_simple hq, resolve]
  cases hfind : i.imported.find? fun q' => simple q' = simple q with
  | some q' =>
    have hsimple : simple q' = simple q := by simpa using List.find?_some hfind
    have hq' := ((mem_imported h).1 (List.mem_of_find?_eq_some hfind)).1
    apply h.nameOf_inj (h.dotted _ (Coherent.mem_of_nameOf_ne hq')) hd
    rw [h.nameOf_eq_simple hq, h.nameOf_eq_simple hq', hsimple]
  | none =>
    have hnot : q ∉ i.imported := by
      intro hm
      have := List.find?_eq_none.1 hfind q hm
      simp at this
    by_cases hp : ClassName.package q = i.package
    · simp only [hp, decide_true, if_true]
      rw [← hp, ClassName.package_dot_simple hd]
    · have hlang : ClassName.package q = "java.lang" := by
        by_contra hlang
        exact hnot ((mem_imported h).2 ⟨hq, hp, hlang⟩)
      simp only [hp, decide_false, Bool.false_eq_true, if_false]
      rw [← hlang, ClassName.package_dot_simple hd]

end Block

/-- A class is written short if and only if nothing had its simple name when it came into use. -/
theorem nameOf_of_first_use (owner : String) {before later : List NameEvent} {q : String}
    (hnew : .use q ∉ before) (hd : isDotted q = true) :
    ((ofOwner owner).applyAll (before ++ .use q :: later)).nameOf q =
      if simple owner = simple q ∨ ∃ e ∈ before, e.simple = simple q then q else simple q := by
  have hunknown : ((ofOwner owner).applyAll before).entries.lookup q = none := by
    rw [← Option.not_isSome_iff_eq_none, isSome_lookup_applyAll]
    simp [hnew, ofOwner, reserve]
  have hclaimed : simple q ∈ ((ofOwner owner).applyAll before).claimed ↔
      simple owner = simple q ∨ ∃ e ∈ before, e.simple = simple q := by
    rw [(Coherent.ofOwner owner).claimed_applyAll before, ofOwner, reserve, List.mem_singleton,
      @eq_comm _ (simple q)]
  have hentry := (note_of_dotted hunknown hd).1
  have hlookup : (((ofOwner owner).applyAll before).note q).entries.lookup q =
      some (((ofOwner owner).applyAll before).nameFor q) := by
    rw [hentry, List.lookup_cons, beq_self_eq_true]
  rw [applyAll_append, applyAll_cons, nameOf, apply, lookup_applyAll later hlookup,
    Option.getD_some, nameFor]
  simp only [hclaimed]

theorem entries_applyAll_of_seen {i : Imports} {es es' : List NameEvent}
    (h : ∀ e ∈ es', e ∈ es ∧ ∃ name, e = .use name) :
    ((i.applyAll es).applyAll es').entries = (i.applyAll es).entries := by
  induction es' generalizing es with
  | nil => rfl
  | cons e es' ih =>
    obtain ⟨⟨he, name, rfl⟩, hrest⟩ := List.forall_mem_cons.1 h
    have hstep : ((i.applyAll es).apply (.use name)).entries = (i.applyAll es).entries := by
      rcases entries_apply (i := i.applyAll es) (.use name) with hsame | ⟨_, heq, hnone, hd, -⟩
      · exact hsame
      · cases heq
        have hsome := (isSome_lookup_applyAll (i := i) es).2 (.inr ⟨he, hd⟩)
        rw [hnone] at hsome
        cases hsome
    have hlater : ∀ e ∈ es', e ∈ es ++ [.use name] ∧ ∃ name, e = .use name :=
      fun e he => ⟨List.mem_append_left _ (hrest e he).1, (hrest e he).2⟩
    have := ih hlater
    rw [applyAll_append, applyAll_cons, applyAll_nil] at this
    rw [applyAll_cons, this, hstep]

theorem answer_of_seen {i : Imports} (h : Coherent i) {es : List NameEvent} {r : NameRequest}
    (hr : r.Seen es) :
    ((i.applyAll es).answer r).2.display = (i.applyAll es).display ∧
      ((i.applyAll es).answer r).2.code = (i.applyAll es).code ∧
      ∀ x, x ∈ ((i.applyAll es).answer r).2.claimed ↔ x ∈ (i.applyAll es).claimed := by
  have hentries : ((i.applyAll es).applyAll r.events).entries = (i.applyAll es).entries :=
    entries_applyAll_of_seen hr
  rw [answer_eq]
  refine ⟨?_, ?_, ?_⟩
  · funext reference
    simp only [display, nameOf, hentries]
  · simp only [code, imported, isImported_applyAll, hentries]
  · intro x
    rw [(h.applyAll es).claimed_applyAll]
    constructor
    · rintro (hx | ⟨e, he, rfl⟩)
      · exact hx
      · exact (h.claimed_applyAll es _).2 (.inr ⟨e, (hr e he).1, rfl⟩)
    · exact .inl

/-- What the requests of a file get over a whole run, and what its import block says at the end. -/
theorem names_over_a_run (owner : String) (rs : List NameRequest) :
    let start := ofOwner owner
    let final := start.after rs
    let events := rs.flatMap (·.events)
    (∀ before r later, rs = before ++ r :: later →
      ((start.after before).answer r).1 = r.text final ∧ (final.answer r).1 = r.text final) ∧
    (∀ r : NameRequest, r.Seen events →
      (final.answer r).2.display = final.display ∧ (final.answer r).2.code = final.code ∧
        ∀ x, x ∈ (final.answer r).2.claimed ↔ x ∈ final.claimed) ∧
    (∀ q q', isDotted q = true → isDotted q' = true → final.nameOf q = final.nameOf q' → q = q') ∧
    (∀ before q later, events = before ++ .use q :: later → .use q ∉ before → isDotted q = true →
      final.nameOf q =
        if simple owner = simple q ∨ ∃ e ∈ before, e.simple = simple q then q else simple q) ∧
    final.code = String.join (final.imported.map fun q => "import " ++ q ++ ";\n") ∧
    final.imported.Pairwise (· < ·) ∧
    (∀ q, q ∈ final.imported ↔
      .use q ∈ events ∧ isDotted q = true ∧ final.nameOf q = simple q ∧
        ClassName.package q ≠ ClassName.package owner ∧ ClassName.package q ≠ "java.lang") ∧
    (final.imported.map simple).Nodup ∧
    (∀ before later, rs = before ++ later →
      (start.after before).imported.Sublist final.imported) ∧
    (∀ before later q, rs = before ++ later → isDotted q = true →
      (start.after before).nameOf q = simple q →
      final.resolve (ClassName.package q = ClassName.package owner)
        ((start.after before).nameOf q) = q) := by
  intro start final events
  have hstart : Coherent start := .ofOwner owner
  have hfinal : final = start.applyAll events := after_eq rs
  have hcoherent : Coherent final := hfinal ▸ hstart.applyAll events
  have hpackage : final.package = ClassName.package owner := by
    rw [hfinal, package_applyAll]
    rfl
  refine ⟨?_, ?_, ?_, ?_, rfl, imported_ascending hcoherent, ?_,
    nodup_map_simple_imported hcoherent, ?_, ?_⟩
  · intro before r later hrs
    have hsplit : final = ((start.after before).applyAll r.events).applyAll
        (later.flatMap (·.events)) := by
      rw [hfinal, after_eq, ← applyAll_append, ← applyAll_append]
      simp only [events, hrs, List.flatMap_append, List.flatMap_cons]
    have hused : ∀ e ∈ r.events, e ∈ events :=
      fun e he => List.mem_flatMap.2 ⟨r, by simp [hrs], he⟩
    constructor
    · rw [answer_eq, hsplit, text_applyAll _ fun _ he => he]
    · rw [answer_eq, hfinal, text_applyAll _ hused]
  · intro r hr
    rw [hfinal]
    exact answer_of_seen hstart hr
  · exact fun q q' => hcoherent.nameOf_inj
  · intro before q later hevents hnew hd
    rw [hfinal, hevents]
    exact nameOf_of_first_use owner hnew hd
  · intro q
    rw [mem_imported hcoherent, hpackage]
    constructor
    · rintro ⟨hname, hplace⟩
      have hmem := Coherent.mem_of_nameOf_ne hname
      have hsome := mem_keys_of_mem hmem
      rw [hfinal, isSome_lookup_applyAll] at hsome
      have hused := hsome.resolve_left (by simp [start, ofOwner, reserve])
      exact ⟨hused.1, hused.2, hcoherent.nameOf_eq_simple hname, hplace⟩
    · rintro ⟨-, hd, hname, hplace⟩
      exact ⟨hname ▸ (simple_ne_of_isDotted hd).symm, hplace⟩
  · intro before later hrs
    rw [hfinal, after_eq]
    simp only [events, hrs, List.flatMap_append, applyAll_append]
    exact imported_sublist (hstart.applyAll _) _
  · intro before later q hrs hd hname
    have hshort : (start.after before).nameOf q ≠ q := hname ▸ (simple_ne_of_isDotted hd).symm
    have hlookup := (after_eq (i := start) before ▸ hstart.applyAll _).lookup_of_mem
      (Coherent.mem_of_nameOf_ne hshort)
    have hkept : final.nameOf q = (start.after before).nameOf q := by
      rw [hfinal, nameOf]
      simp only [events, hrs, List.flatMap_append, applyAll_append, ← after_eq]
      rw [after_eq, lookup_applyAll _ hlookup]
      rfl
    rw [← hkept, ← hpackage]
    exact resolve_nameOf hcoherent (hkept ▸ hshort)

end Imports

end StagedBuilder
