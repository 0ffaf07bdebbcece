import StagedBuilder.Proofs.ImportLaws
import StagedBuilder.Proofs.TightenedTexts

/-!
Blanks in type texts and the names that a file gets. Blanks are nothing to the names if there are
none in the references but behind a bound; other blanks in a reference get into the name of its
class, and a bound with other blanks in it is not seen as one.
-/

namespace StagedBuilder

open Text
open TypeExpr (tightText)

namespace Reference

/-- A text without blanks, or such a text behind a bound and any blanks. -/
def IsTight (reference : String) : Prop :=
  (∀ c ∈ reference.toList, isBlank c = false) ∨
    ∃ bound ∈ wildcardBounds, ∃ gap core, Blank gap ∧ IsWord core ∧
      reference.toList = bound.toList ++ gap ++ core

theorem isTight_of_visible {reference : String} (h : reference.toList.any isBlank = false) :
    IsTight reference :=
  .inl fun c hc => by simpa using List.any_eq_false.1 h c hc

def ofParts (bound : String) (rest : List Char) : Reference :=
  let (dimensions, name) := takeDimensions rest.reverse
  ⟨bound, .ofList name.reverse, .ofList dimensions.reverse⟩

section Tight

variable {b c : String} {s : List Char}

theorem trim_of_visible (h : ∀ c ∈ s, isBlank c = false) : trim s = s :=
  trim_eq_self (fun c hc => h c (List.mem_of_head? hc)) fun c hc => h c (List.mem_of_getLast? hc)

theorem ofText_of_visible (h : ∀ c ∈ b.toList, isBlank c = false) :
    ofText b = ofParts "" b.toList := by
  have hnone : wildcardBounds.find? (fun w => w.toList.isPrefixOf b.toList) = none := by
    rw [List.find?_eq_none]
    intro w hw hprefix
    have hbounds : ∀ w ∈ wildcardBounds, ' ' ∈ w.toList := by decide
    have hmem := (List.isPrefixOf_iff_prefix.1 hprefix).subset (hbounds w hw)
    exact absurd (h ' ' hmem) (by decide)
  have hsplit : splitBound b.toList = ([], b.toList) := by rw [splitBound, hnone]
  rw [ofText, trim_of_visible h, hsplit]
  rfl

theorem ofText_of_bound {bound : String} (hb : bound ∈ wildcardBounds) {gap core : List Char}
    (hgap : Blank gap) (hcore : IsWord core) (h : b.toList = bound.toList ++ gap ++ core) :
    ofText b = ofParts bound core := by
  have hstart : trimStart (gap ++ core) = core := by
    rw [trimStart_append_of_blank hgap, trimStart_eq_self]
    exact fun c hc => hcore.2 c (List.mem_of_head? hc)
  have htrim : trim b.toList = bound.toList ++ (gap ++ core) := by
    rw [h, List.append_assoc]
    apply trim_eq_self
    · exact first_bound_append hb _
    · rw [← List.append_assoc, List.getLast?_append_of_ne_nil _ hcore.1]
      exact fun c hc => hcore.2 c (List.mem_of_getLast? hc)
  rw [ofText, htrim, splitBound_append hb, hstart]
  simp only [String.ofList_toList]
  rfl

theorem space_mem_of_words {v w : List Char} (hv : IsWord v ∧ IsRun keepsBlanks v)
    (hw : IsWord w ∧ IsRun keepsBlanks w) (s : List Char) :
    ' ' ∈ tightened (v ++ ' ' :: (w ++ ' ' :: s)) := by
  have hspace : ∀ r, IsRun keepsBlanks r → IsRun keepsBlanks (' ' :: r) :=
    fun r hr => List.forall_mem_cons.2 ⟨rfl, hr⟩
  have hfront : ∀ r, IsRun keepsBlanks r → ' ' ∈ tightened (v ++ ' ' :: (w ++ ' ' :: r)) := by
    intro r hr
    have hrun := isRun_append.2 ⟨hv.2, hspace _ (isRun_append.2 ⟨hw.2, hspace r hr⟩)⟩
    rw [tightened_run hrun, singleSpaced, words_append_cons (by decide),
      words_append_cons (by decide), hv.1.words_eq, hw.1.words_eq, List.singleton_append,
      List.singleton_append, List.intercalate_cons_cons]
    simp
  induction s using runs_induction keepsBlanks with
  | run r hr => exact hfront r hr
  | cut r c s hr hc ih =>
    have hcut : v ++ ' ' :: (w ++ ' ' :: (r ++ c :: s)) =
        v ++ ' ' :: (w ++ ' ' :: r) ++ c :: s := by simp
    rw [hcut, tightened_cut hc]
    exact List.mem_append_left _ (hfront r hr)

theorem space_mem_tightened {bound : String} (hb : bound ∈ wildcardBounds) (s : List Char) :
    ' ' ∈ tightened (bound.toList ++ s) := by
  simp only [wildcardBounds, List.mem_cons, List.not_mem_nil, or_false] at hb
  rcases hb with rfl | rfl
  · exact space_mem_of_words (v := "?".toList) (w := "extends".toList)
      (by decide) (by decide) s
  · exact space_mem_of_words (v := "?".toList) (w := "super".toList)
      (by decide) (by decide) s

theorem squeeze_word {w : List Char} (h : IsWord w) : squeeze w = w :=
  List.filter_eq_self.2 fun c hc => by simp [h.2 c hc]

theorem not_bound_of_visible (h : ∀ c ∈ b.toList, isBlank c = false) {bound : String}
    (hb : bound ∈ wildcardBounds) (rest : List Char) :
    tightened b.toList ≠ tightened (bound.toList ++ rest) := by
  intro htight
  have hspace := space_mem_tightened hb rest
  rw [← htight, tightened_of_visible h] at hspace
  exact absurd (h ' ' hspace) (by decide)

theorem bound_unique {bound bound' : String} (hb : bound ∈ wildcardBounds)
    (hb' : bound' ∈ wildcardBounds) {core core' : List Char}
    (h : squeeze bound.toList ++ core = squeeze bound'.toList ++ core') :
    bound = bound' ∧ core = core' := by
  simp only [wildcardBounds, List.mem_cons, List.not_mem_nil, or_false] at hb hb'
  rcases hb with rfl | rfl
  · rcases hb' with rfl | rfl
    · exact ⟨rfl, List.append_cancel_left h⟩
    · exact absurd (List.cons.inj (List.cons.inj h).2).1 (by decide)
  · rcases hb' with rfl | rfl
    · exact absurd (List.cons.inj (List.cons.inj h).2).1 (by decide)
    · exact ⟨rfl, List.append_cancel_left h⟩

theorem ofText_eq_of_tight (hb : IsTight b) (hc : IsTight c) (h : tightText b = tightText c) :
    ofText b = ofText c := by
  have htight := String.ofList_injective h
  rcases hb with hb | ⟨bound, hbound, gap, core, hgap, hcore, hb⟩
  · rcases hc with hc | ⟨bound, hbound, gap, core, hgap, hcore, hc⟩
    · rw [tightened_of_visible hb, tightened_of_visible hc, String.toList_inj] at htight
      rw [htight]
    · rw [hc, List.append_assoc] at htight
      exact absurd htight (not_bound_of_visible hb hbound _)
  · rcases hc with hc | ⟨bound', hbound', gap', core', hgap', hcore', hc⟩
    · rw [hb, List.append_assoc] at htight
      exact absurd htight.symm (not_bound_of_visible hc hbound _)
    · have hsqueeze := congrArg squeeze htight
      rw [squeeze_tightened, squeeze_tightened, hb, hc] at hsqueeze
      simp only [squeeze_append, squeeze_of_blank hgap, squeeze_of_blank hgap',
        squeeze_word hcore, squeeze_word hcore', List.append_nil] at hsqueeze
      obtain ⟨rfl, rfl⟩ := bound_unique hbound hbound' hsqueeze
      rw [ofText_of_bound hbound hgap hcore hb, ofText_of_bound hbound hgap' hcore hc]

theorem className_append_of_text (reference : String) :
    (ofText reference).className.toList ++ (ofText reference).dimensions.toList =
      (splitBound (trim reference.toList)).2 := by
  simp only [ofText, String.toList_ofList]
  rw [← List.reverse_append, takeDimensions_append, List.reverse_reverse]

theorem isTight_iff (htrim : trim b.toList = b.toList) :
    IsTight b ↔ ∀ c ∈ (ofText b).className.toList, isBlank c = false := by
  have hname : ∀ bound rest, (∀ c ∈ rest, isBlank c = false) →
      ∀ c ∈ (ofParts bound rest).className.toList, isBlank c = false := by
    intro bound rest hrest c hc
    have hparts := takeDimensions_append rest.reverse
    apply hrest
    rw [← List.mem_reverse, ← hparts]
    simp only [ofParts, String.toList_ofList, List.mem_reverse] at hc
    exact List.mem_append_right _ hc
  constructor
  · rintro (h | ⟨bound, hbound, gap, core, hgap, hcore, h⟩)
    · rw [ofText_of_visible h]
      exact hname _ _ h
    · rw [ofText_of_bound hbound hgap hcore h]
      exact hname _ _ hcore.2
  · intro h
    by_cases hbound : (ofText b).bound = ""
    · left
      have htext := trim_of_no_bound hbound
      rw [htrim] at htext
      rw [htext, List.forall_mem_append]
      exact ⟨h, (isDimensions_dimensions b).visible⟩
    · right
      obtain ⟨hmem, rest, hrest⟩ := bound_of_ne hbound
      obtain ⟨gap, hgap, hgaps⟩ := exists_trimStart rest
      have hparts := className_append_of_text b
      rw [← hrest, splitBound_append hmem] at hparts
      dsimp only at hparts
      have hcore : ∀ c ∈ trimStart rest, isBlank c = false := by
        rw [← hparts, List.forall_mem_append]
        exact ⟨h, (isDimensions_dimensions b).visible⟩
      have htext : b.toList = (ofText b).bound.toList ++ gap ++ trimStart rest := by
        rw [← htrim, ← hrest, List.append_assoc, ← hgaps]
      refine ⟨_, hmem, gap, _, hgap, ⟨fun hnil => ?_, hcore⟩, htext⟩
      -- a bound with nothing behind it would end in a blank
      have hblanks : ∀ w ∈ wildcardBounds, w.toList.getLast? = some ' ' := by decide
      obtain ⟨c, hc, hlast⟩ : ∃ c, isBlank c = true ∧ b.toList.getLast? = some c := by
        rw [htext, hnil, List.append_nil, List.getLast?_append, hblanks _ hmem]
        cases hg : gap.getLast? with
        | none => exact ⟨' ', by decide, rfl⟩
        | some c => exact ⟨c, hgap c (List.mem_of_getLast? hg), rfl⟩
      rw [← htrim] at hlast
      rw [getLast?_trim hlast] at hc
      cases hc

end Tight

theorem Spelling.isTight (r : Spelling) : IsTight r.text := by
  have hcore : ∀ c ∈ r.name.toList ++ r.dimensions.toList, isBlank c = false := by
    rw [List.forall_mem_append]
    exact ⟨r.isName.forall_mem (fun _ => not_isBlank_of_continues) (by decide) (by decide),
      r.isDimensions.visible⟩
  rcases r.isBound with hnone | hbound
  · left
    rwa [toList_text, hnone, String.toList_empty, List.nil_append]
  · right
    refine ⟨r.bound, hbound, [], _, blank_nil, ⟨?_, hcore⟩, ?_⟩
    · simp [r.isName.isCore.ne_nil]
    · rw [toList_text, List.append_nil, List.append_assoc]

end Reference

namespace TypeExpr

open Reference (IsTight ofText Spelling)

def IsTight (t : TypeExpr) : Prop := ∀ b ∈ t.bases, Reference.IsTight b

/-- But for blanks that say nothing the bases are put together from dotted names, wildcards, bounds
and array suffixes. -/
def IsSpelled (t : TypeExpr) : Prop := ∀ b ∈ t.bases, ∃ r : Spelling, tightText b = tightText r.text

theorem exists_of_imported {owner q : String} {t : TypeExpr}
    (h : q ∈ ((Imports.ofOwner owner).render t).2.imported) :
    Imports.isDotted q = true ∧ ∃ b ∈ t.bases, (ofText b).className = q := by
  have hstart := Imports.Coherent.ofOwner owner
  rw [Imports.render_eq, Imports.noteAll_eq] at h
  have hname := ((Imports.mem_imported (hstart.applyAll _)).1 h).1
  have hentry := Imports.Coherent.mem_of_nameOf_ne hname
  refine ⟨(hstart.applyAll _).dotted _ hentry, ?_⟩
  have hused := (Imports.isSome_lookup_applyAll _).1 (Imports.mem_keys_of_mem hentry)
  obtain ⟨hevent, -⟩ := hused.resolve_left (by simp [Imports.ofOwner, Imports.reserve])
  obtain ⟨b, hb, heq⟩ := List.mem_map.1 hevent
  exact ⟨b, hb, NameEvent.use.inj heq⟩

theorem render_eq_of_parts {i : Imports} {t t' : TypeExpr} (hshape : t.shape = t'.shape)
    (hparts : List.Forall₂ (fun b c => ofText b = ofText c) t.bases t'.bases) :
    i.render t = i.render t' := by
  have hevents : t.bases.map NameEvent.ofReference = t'.bases.map NameEvent.ofReference := by
    rw [← List.forall₂_eq_eq_eq, List.forall₂_map_left_iff, List.forall₂_map_right_iff]
    exact hparts.imp fun b c h => by rw [NameEvent.ofReference, NameEvent.ofReference, h]
  have htext (i : Imports) : t.renderWith i.display = t'.renderWith i.display := by
    have hdisplay := (mapBases_eq_iff (f := i.display) (g := i.display) hshape).2
      (hparts.imp fun b c h => by rw [Imports.display, Imports.display, h])
    rw [← Function.id_comp i.display, ← renderWith_mapBases, hdisplay, renderWith_mapBases]
  rw [Imports.render_eq, Imports.render_eq, Imports.noteAll_eq, Imports.noteAll_eq, hevents, htext]

/-- Texts that differ in blanks denote types with the same arguments. If there are no blanks in the
references but behind bounds, they are the same references and get the same text and the same
imports, all of them dotted names. -/
theorem render_of_respaced (owner : String) {s s' : String} {t t' : TypeExpr}
    (hs : parse s = .ok t) (hs' : parse s' = .ok t') (h : tightText s = tightText s') :
    t.shape = t'.shape ∧
    List.Forall₂ (fun b c => tightText b = tightText c) t.bases t'.bases ∧
    (t.IsTight → (t'.IsTight ↔ t'.bases.map ofText = t.bases.map ofText)) ∧
    (t.IsTight → t'.IsTight →
      (Imports.ofOwner owner).render t' = (Imports.ofOwner owner).render t) ∧
    (t.IsTight → ∀ q ∈ ((Imports.ofOwner owner).render t).2.imported,
      Imports.isDotted q = true ∧ (∀ c ∈ q.toList, isBlank c = false) ∧
        (t.IsSpelled → '?' ∉ q.toList)) := by
  have htight := mapBases_tightText hs hs' h
  have hshape := shape_of_mapBases htight
  have hpairs := (mapBases_eq_iff hshape).1 htight
  have hparts : t.IsTight → t'.IsTight →
      List.Forall₂ (fun b c => ofText b = ofText c) t.bases t'.bases := by
    intro ht ht'
    rw [List.forall₂_iff_get] at hpairs ⊢
    refine ⟨hpairs.1, fun i hi hi' => ?_⟩
    exact Reference.ofText_eq_of_tight (ht _ (List.get_mem _ _)) (ht' _ (List.get_mem _ _))
      (hpairs.2 i hi hi')
  refine ⟨hshape, hpairs, ?_, ?_, ?_⟩
  · intro ht
    constructor
    · intro ht'
      rw [← List.forall₂_eq_eq_eq, List.forall₂_map_left_iff, List.forall₂_map_right_iff]
      exact (hparts ht ht').flip.imp fun _ _ => Eq.symm
    · intro heq c hc
      obtain ⟨b, hb, hbc⟩ := List.mem_map.1 (heq ▸ List.mem_map_of_mem (f := ofText) hc)
      rw [Reference.isTight_iff (trimmed_of_parse hs' c hc), ← hbc]
      exact (Reference.isTight_iff (trimmed_of_parse hs b hb)).1 (ht b hb)
  · exact fun ht ht' => (render_eq_of_parts hshape (hparts ht ht')).symm
  · intro ht q hq
    obtain ⟨hd, b, hb, rfl⟩ := exists_of_imported hq
    refine ⟨hd, (Reference.isTight_iff (trimmed_of_parse hs b hb)).1 (ht b hb), fun hspelled => ?_⟩
    obtain ⟨r, hr⟩ := hspelled b hb
    rw [Reference.ofText_eq_of_tight (ht b hb) r.isTight hr, r.ofText_text] at hd ⊢
    rcases r.isName with hname | hwild
    · have hmark : continuesIdentifier '?' = false := by decide +kernel
      intro hmem
      rcases hname.mem hmem with hdot | hletter
      · exact absurd hdot (by decide)
      · rw [hmark] at hletter
        cases hletter
    · have hnot : ¬ Imports.isDotted "?" = true := by decide
      rw [hwild] at hd
      exact absurd hd hnot

theorem render_of_bounded_map :
    let t : TypeExpr := .node "java.util.Map" [leaf "a.K[]", leaf "? extends  b.V"]
    let t' : TypeExpr := .node "java.util.Map" [leaf "a.K[]", leaf "? extends b.V"]
    parse " java.util.Map< a.K[],? extends  b.V >" = .ok t ∧
      parse "java.util.Map<a.K[], ? extends b.V>" = .ok t' ∧
      tightText " java.util.Map< a.K[],? extends  b.V >" =
        tightText "java.util.Map<a.K[], ? extends b.V>" ∧
      t.IsTight ∧ t'.IsTight ∧
      (Imports.ofOwner "me.Owner").render t' = (Imports.ofOwner "me.Owner").render t := by
  intro t t'
  have hs : parse " java.util.Map< a.K[],? extends  b.V >" = .ok t := by decide +kernel
  have hs' : parse "java.util.Map<a.K[], ? extends b.V>" = .ok t' := by decide +kernel
  have htight : t.IsTight := by
    refine List.forall_mem_cons.2 ⟨Reference.isTight_of_visible (by decide),
      List.forall_mem_cons.2 ⟨Reference.isTight_of_visible (by decide),
        List.forall_mem_singleton.2 (.inr ?_)⟩⟩
    exact ⟨"? extends ", by decide, [' '], "b.V".toList, by decide, by decide, rfl⟩
  have htight' : t'.IsTight := by
    refine List.forall_mem_cons.2 ⟨Reference.isTight_of_visible (by decide),
      List.forall_mem_cons.2 ⟨Reference.isTight_of_visible (by decide),
        List.forall_mem_singleton.2 (.inr ?_)⟩⟩
    exact ⟨"? extends ", by decide, [], "b.V".toList, by decide, by decide, rfl⟩
  have hsame : tightText " java.util.Map< a.K[],? extends  b.V >" =
      tightText "java.util.Map<a.K[], ? extends b.V>" := by decide
  obtain ⟨-, -, -, hrender, -⟩ := render_of_respaced "me.Owner" hs hs' hsame
  exact ⟨hs, hs', hsame, htight, htight', hrender htight htight'⟩

theorem render_of_wide_bound :
    (¬ ∀ owner s s' t t', parse s = .ok t → parse s' = .ok t' → tightText s = tightText s' →
      squeeze ((Imports.ofOwner owner).render t).1.toList =
          squeeze ((Imports.ofOwner owner).render t').1.toList ∧
        ((Imports.ofOwner owner).render t).2.code =
          ((Imports.ofOwner owner).render t').2.code) ∧
    "?  extends a.B" ∈ ((Imports.ofOwner "me.Owner").render
      (.node "java.util.List" [leaf "?  extends a.B"])).2.imported := by
  let t : TypeExpr := .node "java.util.List" [leaf "?  extends a.B"]
  let t' : TypeExpr := .node "java.util.List" [leaf "? extends a.B"]
  constructor
  · intro h
    have hs : parse "java.util.List<?  extends a.B>" = .ok t := by decide +kernel
    have hs' : parse "java.util.List<? extends a.B>" = .ok t' := by decide +kernel
    have htext : ((Imports.ofOwner "me.Owner").render t).1 = "List<B>" := by decide +kernel
    have htext' : ((Imports.ofOwner "me.Owner").render t').1 = "List<? extends B>" := by
      decide +kernel
    have hsame := (h "me.Owner" _ _ t t' hs hs' (by decide)).1
    rw [htext, htext'] at hsame
    exact absurd hsame (by decide)
  · have hcoherent : Imports.Coherent ((Imports.ofOwner "me.Owner").render t).2 := by
      rw [Imports.render_eq, Imports.noteAll_eq]
      exact (Imports.Coherent.ofOwner _).applyAll _
    exact (Imports.mem_imported hcoherent).2 (by decide +kernel)

end TypeExpr

end StagedBuilder
