import Mathlib.Data.List.Forall2
import Mathlib.Data.List.Nodup
import Mathlib.Data.List.Perm.Basic
import Mathlib.Tactic.Tauto
import StagedBuilder.Proofs.CheckLaws
import StagedBuilder.Proofs.KeyLaws
import StagedBuilder.Proofs.TraversalLaws

namespace StagedBuilder

namespace Claims

variable {type name : String} {claims claims' : Claims} {names : List String}

theorem claim_eq_none_iff :
    claim type claims names = (claims', none) ↔
      names.Nodup ∧ (∀ n ∈ names, n ∉ claims.map Prod.fst) ∧
        claims' = (names.map (·, type)).reverse ++ claims := by
  induction names generalizing claims with
  | nil => simp [claim, eq_comm]
  | cons name names ih =>
    rw [claim, List.forall_mem_cons, ← lookup_eq_none_iff]
    cases claims.lookup name with
    | some first => simp
    | none =>
      have hsplit : (∀ n ∈ names, n ∉ name :: claims.map Prod.fst) ↔
          name ∉ names ∧ ∀ n ∈ names, n ∉ claims.map Prod.fst := by
        simp only [List.mem_cons, not_or]
        refine ⟨fun h => ⟨fun hmem => (h name hmem).1 rfl, fun n hn => (h n hn).2⟩, ?_⟩
        rintro ⟨hname, h⟩ n hn
        exact ⟨fun heq => hname (heq ▸ hn), h n hn⟩
      rw [ih, List.map_cons, hsplit, List.nodup_cons, List.map_cons, List.reverse_cons,
        List.append_assoc, List.singleton_append]
      tauto

theorem nodup_append_iff {xs ys taken : List String} :
    (xs ++ ys).Nodup ∧ (∀ n ∈ xs ++ ys, n ∉ taken) ↔
      (xs.Nodup ∧ ∀ n ∈ xs, n ∉ taken) ∧ ys.Nodup ∧ ∀ n ∈ ys, n ∉ xs.reverse ++ taken := by
  rw [List.nodup_append', List.forall_mem_append]
  simp only [List.mem_append, List.mem_reverse, not_or]
  refine ⟨?_, ?_⟩
  · rintro ⟨⟨hxs, hys, hdisjoint⟩, hx, hy⟩
    exact ⟨⟨hxs, hx⟩, hys, fun n hn => ⟨fun hmem => hdisjoint hmem hn, hy n hn⟩⟩
  · rintro ⟨⟨hxs, hx⟩, hys, hy⟩
    exact ⟨⟨hxs, hys, fun n hmem hn => (hy n hn).1 hmem⟩, hx, fun n hn => (hy n hn).2⟩

end Claims

namespace Manifest

variable {defaults : Defaults} {claims after : Claims} {name : String} {d : TypeDecl}
  {types : List (String × TypeDecl)} {plan : Plan} {plans : List Plan}

theorem accept_eq_ok_iff :
    accept defaults claims name d = (after, .ok plan) ↔
      Plan.ofDecl defaults name d = .ok plan ∧
        Claims.claim name claims plan.classNames = (after, none) := by
  unfold accept
  cases Plan.ofDecl defaults name d with
  | error e => simp
  | ok p =>
    simp only [Except.ok.injEq]
    refine ⟨fun h => ?_, ?_⟩
    · rcases hclaim : Claims.claim name claims p.classNames with ⟨after', _ | e⟩
      · obtain ⟨rfl, rfl⟩ : after' = after ∧ p = plan := by simpa [hclaim] using h
        exact ⟨rfl, hclaim⟩
      · simp [hclaim] at h
    · rintro ⟨rfl, hclaim⟩
      rw [hclaim]

theorem plansAfter_cons_eq_ok_iff :
    plansAfter defaults claims ((name, d) :: types) = .ok plans ↔
      ∃ plan after rest, accept defaults claims name d = (after, .ok plan) ∧
        plansAfter defaults after types = .ok rest ∧ plan :: rest = plans := by
  rw [plansAfter_cons]
  rcases accept defaults claims name d with ⟨after, e | p⟩
  · simp
  · simp [map_eq_ok_iff]

theorem plansAfter_eq_ok_iff :
    plansAfter defaults claims types = .ok plans ↔
      List.Forall₂ (fun type p => Plan.ofDecl defaults type.1 type.2 = .ok p) types plans ∧
        (plans.flatMap (·.classNames)).Nodup ∧
        ∀ n ∈ plans.flatMap (·.classNames), n ∉ claims.map Prod.fst := by
  induction types generalizing claims plans with
  | nil =>
    rw [plansAfter, List.forall₂_nil_left_iff, Except.ok.injEq, eq_comm]
    refine ⟨?_, fun h => h.1⟩
    rintro rfl
    simp
  | cons type types ih =>
    obtain ⟨name, d⟩ := type
    rw [plansAfter_cons_eq_ok_iff, List.forall₂_cons_left_iff]
    simp only [accept_eq_ok_iff, Claims.claim_eq_none_iff, ih]
    refine ⟨?_, ?_⟩
    · rintro ⟨p, _, ps, ⟨hp, hdistinct, hfree, rfl⟩, ⟨hps, hnames⟩, rfl⟩
      refine ⟨⟨p, ps, hp, hps, rfl⟩, ?_⟩
      rw [List.flatMap_cons, Claims.nodup_append_iff]
      exact ⟨⟨hdistinct, hfree⟩, by simpa using hnames⟩
    · rintro ⟨⟨p, ps, hp, hps, rfl⟩, hnames⟩
      rw [List.flatMap_cons, Claims.nodup_append_iff] at hnames
      obtain ⟨⟨hdistinct, hfree⟩, hrest⟩ := hnames
      exact ⟨p, _, ps, ⟨hp, hdistinct, hfree, rfl⟩, ⟨hps, by simpa using hrest⟩, rfl⟩

def classesOf (defaults : Defaults) (type : String × TypeDecl) : List String :=
  match Plan.ofDecl defaults type.1 type.2 with
  | .error _ => []
  | .ok p => p.classNames

section Order

variable {m : Manifest} {types' : List (String × TypeDecl)} {plans' : List Plan}

theorem plans_eq_ok_iff :
    m.plans = .ok plans ↔
      List.Forall₂ (fun type p => Plan.ofDecl m.defaults type.1 type.2 = .ok p) m.types plans ∧
        (plans.flatMap (·.classNames)).Nodup := by
  rw [Manifest.plans, plansAfter_eq_ok_iff]
  simp

theorem exists_planned_iff :
    (∃ plans, List.Forall₂ (fun type p => Plan.ofDecl defaults type.1 type.2 = .ok p)
        types plans) ↔
      ∀ type ∈ types, ∃ p, Plan.ofDecl defaults type.1 type.2 = .ok p := by
  induction types with
  | nil => exact ⟨fun _ => List.forall_mem_nil _, fun _ => ⟨[], .nil⟩⟩
  | cons type types ih =>
    rw [List.forall_mem_cons, ← ih]
    simp only [List.forall₂_cons_left_iff]
    constructor
    · rintro ⟨_, p, plans, hp, hplans, -⟩
      exact ⟨⟨p, hp⟩, plans, hplans⟩
    · rintro ⟨⟨p, hp⟩, plans, hplans⟩
      exact ⟨p :: plans, p, plans, hp, hplans, rfl⟩

theorem classNames_of_planned
    (h : List.Forall₂ (fun type p => Plan.ofDecl defaults type.1 type.2 = .ok p) types plans) :
    plans.flatMap (·.classNames) = types.flatMap (classesOf defaults) := by
  induction h with
  | nil => rfl
  | cons hp _ ih => rw [List.flatMap_cons, List.flatMap_cons, ih, classesOf, hp]

theorem zip_of_planned
    (h : List.Forall₂ (fun type p => Plan.ofDecl defaults type.1 type.2 = .ok p) types plans) :
    (types.zip plans).map (fun e => (e.1, Except.ok e.2)) =
      types.map fun type => (type, Plan.ofDecl defaults type.1 type.2) := by
  induction h with
  | nil => rfl
  | cons hp _ ih => rw [List.zip_cons_cons, List.map_cons, List.map_cons, ih, hp]

theorem zip_perm_of_planned (hperm : types'.Perm types)
    (h : List.Forall₂ (fun type p => Plan.ofDecl defaults type.1 type.2 = .ok p) types plans)
    (h' : List.Forall₂ (fun type p => Plan.ofDecl defaults type.1 type.2 = .ok p) types' plans') :
    (types'.zip plans').Perm (types.zip plans) := by
  have hinj : Function.Injective fun e : (String × TypeDecl) × Plan =>
      (e.1, (Except.ok e.2 : Except GenerationError Plan)) := by
    intro e e' heq
    obtain ⟨htype, hplan⟩ := Prod.mk.inj heq
    exact Prod.ext htype (Except.ok.inj hplan)
  rw [← List.map_perm_map_iff hinj, zip_of_planned h, zip_of_planned h']
  exact hperm.map _

theorem exists_plans_iff :
    (∃ plans, m.plans = .ok plans) ↔
      (∀ type ∈ m.types, ∃ p, Plan.ofDecl m.defaults type.1 type.2 = .ok p) ∧
        (m.types.flatMap (classesOf m.defaults)).Nodup := by
  rw [← exists_planned_iff]
  simp only [plans_eq_ok_iff]
  constructor
  · rintro ⟨plans, hplans, hnames⟩
    exact ⟨⟨plans, hplans⟩, classNames_of_planned hplans ▸ hnames⟩
  · rintro ⟨⟨plans, hplans⟩, hnames⟩
    exact ⟨plans, hplans, classNames_of_planned hplans ▸ hnames⟩

end Order

/--
A manifest has plans exactly if each of its types has one and no two of their classes have one name;
the plan of a type is made from the defaults and its own declaration. So the order of the types
decides on nothing but the order of the plans.
-/
theorem plans_in_any_order (m : Manifest) :
    ((∃ plans, m.plans = .ok plans) ↔
      (∀ type ∈ m.types, ∃ p, Plan.ofDecl m.defaults type.1 type.2 = .ok p) ∧
        (m.types.flatMap (classesOf m.defaults)).Nodup) ∧
    (∀ plans, m.plans = .ok plans →
      List.Forall₂ (fun type p => Plan.ofDecl m.defaults type.1 type.2 = .ok p) m.types plans ∧
        plans.flatMap (·.classNames) = m.types.flatMap (classesOf m.defaults)) ∧
    ∀ m' : Manifest, m'.defaults = m.defaults → m'.types.Perm m.types →
      ((∃ plans, m'.plans = .ok plans) ↔ ∃ plans, m.plans = .ok plans) ∧
      ∀ plans plans', m.plans = .ok plans → m'.plans = .ok plans' →
        (m'.types.zip plans').Perm (m.types.zip plans) := by
  refine ⟨exists_plans_iff, ?_, ?_⟩
  · intro plans hplans
    have hplanned := (plans_eq_ok_iff.1 hplans).1
    exact ⟨hplanned, classNames_of_planned hplanned⟩
  · intro m' hdefaults hperm
    constructor
    · rw [exists_plans_iff, exists_plans_iff, hdefaults,
        (hperm.flatMap_right (classesOf m.defaults)).nodup_iff]
      simp only [hperm.mem_iff]
    · intro plans plans' hplans hplans'
      have hplanned := (plans_eq_ok_iff.1 hplans).1
      have hplanned' := (plans_eq_ok_iff.1 hplans').1
      rw [hdefaults] at hplanned'
      exact zip_perm_of_planned hperm hplanned hplanned'

end Manifest

end StagedBuilder
