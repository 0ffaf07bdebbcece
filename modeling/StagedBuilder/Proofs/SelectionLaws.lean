import Mathlib.Data.Finset.Max
import StagedBuilder.Plan.Basic

namespace StagedBuilder

def OnlyOne {α : Type} (p : α → Prop) (as : List α) (a : α) : Prop :=
  ∃ others : List α, as.Perm (a :: others) ∧ p a ∧ ∀ b ∈ others, ¬ p b

section OnlyOne

variable {α : Type} {p : α → Prop} {as as' : List α} {a : α}

theorem OnlyOne.of_perm (h : OnlyOne p as a) (hperm : as'.Perm as) : OnlyOne p as' a := by
  obtain ⟨others, hothers, ha, hrest⟩ := h
  exact ⟨others, hperm.trans hothers, ha, hrest⟩

theorem filter_eq_singleton_iff {q : α → Bool} :
    as.filter q = [a] ↔ OnlyOne (q · = true) as a := by
  constructor
  · intro h
    have ha : a ∈ as.filter q := h ▸ List.mem_singleton_self a
    have hperm := List.filter_append_perm q as
    rw [h, List.singleton_append] at hperm
    refine ⟨_, hperm.symm, (List.mem_filter.1 ha).2, fun b hb => ?_⟩
    simpa using (List.mem_filter.1 hb).2
  · rintro ⟨others, hperm, ha, hothers⟩
    have hfilter := hperm.filter q
    rw [List.filter_cons_of_pos ha, List.filter_eq_nil_iff.2 hothers] at hfilter
    exact List.perm_singleton.1 hfilter

end OnlyOne

namespace ConstructorDecl

variable {type : String} {cs cs' : List ConstructorDecl} {c : ConstructorDecl}
  {e : GenerationError}

def Widest (cs : List ConstructorDecl) (c : ConstructorDecl) : Prop :=
  ∀ d ∈ cs, d.params.length ≤ c.params.length

/-- The one that is designated or else, if none is, the one with the most parameters. -/
def Picked (cs : List ConstructorDecl) (c : ConstructorDecl) : Prop :=
  OnlyOne (·.designated = true) cs c ∨
    (∀ d ∈ cs, d.designated = false) ∧ OnlyOne (Widest cs) cs c

/-- Why none is picked: there is none, or there are several for one place. -/
inductive Refused (type : String) (cs : List ConstructorDecl) : GenerationError → Prop
  | missing (empty : cs = []) : Refused type cs (.missingConstructor type)
  | designated (several : 2 ≤ cs.countP (·.designated)) :
      Refused type cs (.ambiguousConstructor type (.designated (cs.countP (·.designated))))
  | alike {arity : Nat} (undesignated : ∀ d ∈ cs, d.designated = false)
      (widest : ∀ d ∈ cs, d.params.length ≤ arity)
      (several : 2 ≤ cs.countP (·.params.length = arity)) :
      Refused type cs (.ambiguousConstructor type (.sameArity arity))

theorem Picked.of_perm (h : Picked cs c) (hperm : cs'.Perm cs) : Picked cs' c := by
  have hwidest : Widest cs' = Widest cs := by
    funext d
    simp only [Widest, hperm.mem_iff]
  rcases h with h | ⟨hnone, h⟩
  · exact .inl (h.of_perm hperm)
  · exact .inr ⟨fun d hd => hnone d (hperm.mem_iff.1 hd), hwidest ▸ h.of_perm hperm⟩

theorem Refused.of_perm (h : Refused type cs e) (hperm : cs'.Perm cs) : Refused type cs' e := by
  cases h with
  | missing empty => exact .missing (List.perm_nil.1 (empty ▸ hperm))
  | designated several =>
    rw [← hperm.countP_eq] at several ⊢
    exact .designated several
  | alike undesignated widest several =>
    exact .alike (fun d hd => undesignated d (hperm.mem_iff.1 hd))
      (fun d hd => widest d (hperm.mem_iff.1 hd)) (hperm.countP_eq _ ▸ several)

theorem exists_widest (h : cs ≠ []) : ∃ c ∈ cs, Widest cs c := by
  obtain ⟨c, hc, hmax⟩ :=
    cs.toFinset.exists_max_image (·.params.length) (List.toFinset_nonempty_iff cs |>.2 h)
  exact ⟨c, List.mem_toFinset.1 hc, fun d hd => hmax d (List.mem_toFinset.2 hd)⟩

def widest (cs : List ConstructorDecl) : List ConstructorDecl :=
  cs.filter fun c => cs.all (·.params.length ≤ c.params.length)

theorem mem_widest_iff : c ∈ widest cs ↔ c ∈ cs ∧ Widest cs c := by
  simp [widest, Widest]

theorem widest_eq_singleton_iff : widest cs = [c] ↔ OnlyOne (Widest cs) cs c := by
  simp only [widest, filter_eq_singleton_iff, List.all_eq_true, decide_eq_true_eq]
  rfl

theorem length_widest {arity : Nat} (hle : ∀ d ∈ cs, d.params.length ≤ arity)
    (hmem : ∃ d ∈ cs, d.params.length = arity) :
    (widest cs).length = cs.countP (·.params.length = arity) := by
  obtain ⟨d, hd, rfl⟩ := hmem
  rw [List.countP_eq_length_filter, widest]
  refine congrArg _ (List.filter_congr fun c hc => ?_)
  rw [Bool.eq_iff_iff, List.all_eq_true, decide_eq_true_iff]
  simp only [decide_eq_true_iff]
  exact ⟨fun h => (hle c hc).antisymm (h d hd), fun h d' hd' => h ▸ hle d' hd'⟩

theorem undesignated_iff :
    cs.filter (·.designated) = [] ↔ ∀ d ∈ cs, d.designated = false := by
  simp

theorem Picked.select (h : Picked cs c) : selectConstructor type cs = .ok c := by
  unfold selectConstructor
  rcases h with h | ⟨hnone, h⟩
  · rw [filter_eq_singleton_iff.2 h]
  · rw [undesignated_iff.2 hnone]
    rw [← widest_eq_singleton_iff, widest] at h
    simp only [h]

theorem Refused.select (h : Refused type cs e) : selectConstructor type cs = .error e := by
  have hseveral {as : List ConstructorDecl} (has : 2 ≤ as.length) :
      ∃ a b others, as = a :: b :: others := by
    match as, has with
    | a :: b :: others, _ => exact ⟨a, b, others, rfl⟩
  cases h with
  | missing empty =>
    subst empty
    rfl
  | designated several =>
    rw [List.countP_eq_length_filter] at several ⊢
    obtain ⟨a, b, others, hfilter⟩ := hseveral several
    rw [selectConstructor, hfilter]
  | @alike arity undesignated hle several =>
    have hmem : ∃ d ∈ cs, d.params.length = arity := by
      simpa using List.countP_pos_iff.1 (Nat.lt_of_lt_of_le Nat.two_pos several)
    rw [← length_widest hle hmem] at several
    obtain ⟨a, b, others, hwidest⟩ := hseveral several
    obtain ⟨d, hd, rfl⟩ := hmem
    have ha : a ∈ cs ∧ Widest cs a := mem_widest_iff.1 (hwidest ▸ List.mem_cons_self)
    have harity : a.params.length = d.params.length := (hle a ha.1).antisymm (ha.2 d hd)
    rw [widest] at hwidest
    rw [selectConstructor, undesignated_iff.2 undesignated]
    simp only [hwidest, harity]

theorem picked_or_refused (type : String) (cs : List ConstructorDecl) :
    (∃ c, Picked cs c) ∨ ∃ e, Refused type cs e := by
  match hdesignated : cs.filter (·.designated) with
  | [c] => exact .inl ⟨c, .inl (filter_eq_singleton_iff.1 hdesignated)⟩
  | _ :: _ :: _ =>
    refine .inr ⟨_, .designated ?_⟩
    rw [List.countP_eq_length_filter, hdesignated]
    exact Nat.le_add_left 2 _
  | [] =>
    have hnone := undesignated_iff.1 hdesignated
    match hwidest : widest cs with
    | [] =>
      refine .inr ⟨_, .missing ?_⟩
      by_contra hne
      obtain ⟨c, hc⟩ := exists_widest hne
      exact List.not_mem_nil (hwidest ▸ mem_widest_iff.2 hc)
    | [c] => exact .inl ⟨c, .inr ⟨hnone, widest_eq_singleton_iff.1 hwidest⟩⟩
    | c :: _ :: _ =>
      obtain ⟨hc, hmost⟩ := mem_widest_iff.1 (hwidest ▸ List.mem_cons_self : c ∈ widest cs)
      refine .inr ⟨_, .alike hnone hmost ?_⟩
      rw [← length_widest hmost ⟨c, hc, rfl⟩, hwidest]
      exact Nat.le_add_left 2 _

theorem select_eq_ok_iff : selectConstructor type cs = .ok c ↔ Picked cs c := by
  refine ⟨fun h => ?_, Picked.select⟩
  rcases picked_or_refused type cs with ⟨d, hd⟩ | ⟨e, he⟩
  · rw [hd.select] at h
    exact Except.ok.inj h ▸ hd
  · rw [he.select] at h
    cases h

theorem select_eq_error_iff : selectConstructor type cs = .error e ↔ Refused type cs e := by
  refine ⟨fun h => ?_, Refused.select⟩
  rcases picked_or_refused type cs with ⟨d, hd⟩ | ⟨e', he⟩
  · rw [hd.select] at h
    cases h
  · rw [he.select] at h
    exact Except.error.inj h ▸ he

theorem select_of_perm (hperm : cs'.Perm cs) :
    selectConstructor type cs' = selectConstructor type cs := by
  rcases picked_or_refused type cs with ⟨c, hc⟩ | ⟨e, he⟩
  · rw [hc.select, (hc.of_perm hperm).select]
  · rw [he.select, (he.of_perm hperm).select]

theorem refused_missing_iff : Refused type cs (.missingConstructor type) ↔ cs = [] :=
  ⟨fun | .missing empty => empty, .missing⟩

/--
The one constructor that is designated is picked, or else, if none is, the one with the most
parameters. It is missing if there are no constructors, and in all other cases the choice is
ambiguous. The order of the constructors changes neither what is picked nor what is reported.
-/
theorem selection_in_any_order (type : String) (cs : List ConstructorDecl) :
    (∀ c, selectConstructor type cs = .ok c ↔ Picked cs c) ∧
    (selectConstructor type cs = .error (.missingConstructor type) ↔ cs = []) ∧
    ((∃ cause, selectConstructor type cs = .error (.ambiguousConstructor type cause)) ↔
      cs ≠ [] ∧ ¬ ∃ c, Picked cs c) ∧
    (∀ e, selectConstructor type cs = .error e ↔ Refused type cs e) ∧
    ∀ cs' : List ConstructorDecl, cs'.Perm cs →
      selectConstructor type cs' = selectConstructor type cs := by
  refine ⟨fun c => select_eq_ok_iff, select_eq_error_iff.trans refused_missing_iff, ?_,
    fun e => select_eq_error_iff, fun cs' => select_of_perm⟩
  simp only [select_eq_error_iff]
  constructor
  · rintro ⟨cause, h⟩
    have hresult := h.select
    constructor
    · rintro rfl
      cases hresult
    · rintro ⟨c, hc⟩
      rw [hc.select] at hresult
      cases hresult
  · rintro ⟨hne, hnone⟩
    obtain ⟨e, he⟩ := (picked_or_refused type cs).resolve_left hnone
    cases he with
    | missing empty => exact absurd empty hne
    | designated several => exact ⟨_, .designated several⟩
    | alike undesignated hle several => exact ⟨_, .alike undesignated hle several⟩

end ConstructorDecl

end StagedBuilder
