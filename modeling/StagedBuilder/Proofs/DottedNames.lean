import StagedBuilder.Manifest.WellFormed
import StagedBuilder.Proofs.PathLaws

namespace StagedBuilder

/-- What has been read of a dotted name. -/
inductive Reading
  | refused
  | between
  | within
  deriving DecidableEq

namespace Reading

variable {first : Char → Bool} {r : Reading} {c : Char} {s t : List Char}

def next (first : Char → Bool) : Reading → Char → Reading
  | .refused, _ => .refused
  | .between, c => if first c then .within else .refused
  | .within, c =>
    if c = '.' then .between else if continuesIdentifier c then .within else .refused

def scan (first : Char → Bool) (r : Reading) (s : List Char) : Reading := s.foldl (next first) r

@[simp] theorem scan_nil : scan first r [] = r := rfl

@[simp] theorem scan_cons : scan first r (c :: s) = scan first (next first r c) s := rfl

theorem scan_append : scan first r (s ++ t) = scan first (scan first r s) t := List.foldl_append

@[simp] theorem scan_refused (s : List Char) : scan first .refused s = .refused := by
  induction s with
  | nil => rfl
  | cons c s ih => exact ih

end Reading

def Begins (first : Char → Bool) (s : List Char) : Prop :=
  ∃ c cs, s = c :: cs ∧ first c = true ∧ cs.all continuesIdentifier = true

theorem continuesIdentifier_dot : continuesIdentifier '.' = false := by decide +kernel

theorem startsIdentifier_dot : startsIdentifier '.' = false := by decide +kernel

theorem continues_of_starts {c : Char} (h : startsIdentifier c = true) :
    continuesIdentifier c = true := by
  simp only [startsIdentifier, Bool.or_eq_true, decide_eq_true_eq] at h
  simp only [continuesIdentifier, Bool.or_eq_true, decide_eq_true_eq]
  tauto

theorem ne_dot_of_starts {c : Char} (h : startsIdentifier c = true) : c ≠ '.' := by
  rintro rfl
  rw [startsIdentifier_dot] at h
  cases h

theorem isIdentifier_ofList {s : List Char} :
    isIdentifier (.ofList s) = true ↔ Begins startsIdentifier s := by
  rw [isIdentifier_iff, String.toList_ofList]
  rfl

section Scanning

open Reading

variable {first : Char → Bool} {s w : List Char} {ws : List (List Char)}

theorem begins_cons_iff {c : Char} :
    Begins first (c :: s) ↔ first c = true ∧ s.all continuesIdentifier = true := by
  simp [Begins]

theorem not_begins_nil : ¬Begins first [] := by
  simp [Begins]

theorem scan_eq_within_iff (hfirst : first '.' = false) (h : s.splitOn '.' = w :: ws) :
    (scan first .within s = .within ↔
        w.all continuesIdentifier = true ∧ ∀ v ∈ ws, Begins first v) ∧
      (scan first .between s = .within ↔ Begins first w ∧ ∀ v ∈ ws, Begins first v) := by
  induction s generalizing w ws with
  | nil =>
    obtain ⟨rfl, rfl⟩ := List.cons.inj h
    simp [not_begins_nil]
  | cons c s ih =>
    obtain ⟨v, vs, hs⟩ := List.exists_cons_of_ne_nil (List.splitOn_ne_nil '.' s)
    obtain ⟨hwithin, hbetween⟩ := ih hs
    rw [List.splitOn_cons_eq_if_modifyHead, hs] at h
    rw [scan_cons, scan_cons]
    by_cases hc : c = '.'
    · rw [if_pos (beq_iff_eq.2 hc)] at h
      obtain ⟨rfl, rfl⟩ := List.cons.inj h
      simp [next, hc, hfirst, hbetween, not_begins_nil]
    · rw [if_neg (mt beq_iff_eq.1 hc)] at h
      obtain ⟨rfl, rfl⟩ := List.cons.inj h
      rw [next, next, if_neg hc, begins_cons_iff, List.all_cons, Bool.and_eq_true, and_assoc,
        and_assoc, ← hwithin]
      constructor
      · cases continuesIdentifier c <;> simp
      · cases first c <;> simp

theorem scan_eq_between_iff :
    scan first .between s = .between ↔
      s = [] ∨ ∃ t, s = t ++ ['.'] ∧ scan first .between t = .within := by
  have hnext (r : Reading) (c : Char) : next first r c = .between ↔ r = .within ∧ c = '.' := by
    cases r with
    | refused => simp [next]
    | between => cases hc : first c <;> simp [next, hc]
    | within => by_cases hc : c = '.' <;> cases hd : continuesIdentifier c <;> simp [next, hc, hd]
  rcases List.eq_nil_or_concat s with rfl | ⟨t, c, rfl⟩
  · simp
  · rw [List.concat_eq_append, scan_append, scan_cons, scan_nil, hnext]
    constructor
    · rintro ⟨ht, rfl⟩
      exact .inr ⟨t, rfl, ht⟩
    · rintro (h | ⟨t', heq, ht'⟩)
      · simp at h
      · obtain ⟨rfl, hc⟩ := List.append_inj' heq rfl
        exact ⟨ht', List.singleton_inj.1 hc⟩

section Continuing

variable {r r' : Reading} {c : Char}

def Fits (s : List Char) : Prop := scan startsIdentifier .between s = .within

theorem ne_refused_of_scan {last : Reading} (h : scan first r s = last) (hlast : last ≠ .refused) :
    r ≠ .refused := by
  rintro rfl
  rw [scan_refused] at h
  exact hlast h.symm

theorem scan_eq_of_starts (hfirst : ∀ c, startsIdentifier c = true → first c = true)
    (h : scan startsIdentifier r s ≠ .refused) :
    scan first r s = scan startsIdentifier r s := by
  induction s generalizing r with
  | nil => rfl
  | cons c s ih =>
    have hnext : next first r c = next startsIdentifier r c := by
      cases r with
      | refused => rfl
      | within => rfl
      | between =>
        cases hc : startsIdentifier c with
        | true => simp [next, hc, hfirst c hc]
        | false => simp [next, hc] at h
    rw [scan_cons, scan_cons, hnext]
    exact ih h

theorem forall_of_scan (h : scan startsIdentifier r s ≠ .refused) :
    ∀ c ∈ s, c = '.' ∨ continuesIdentifier c = true := by
  induction s generalizing r with
  | nil => nofun
  | cons c s ih =>
    rw [scan_cons] at h
    have hnext : next startsIdentifier r c ≠ .refused := fun heq => by
      rw [heq, scan_refused] at h
      exact h rfl
    rw [List.forall_mem_cons]
    refine ⟨?_, ih h⟩
    cases r with
    | refused => exact absurd rfl hnext
    | between =>
      cases hc : startsIdentifier c with
      | true => exact .inr (continues_of_starts hc)
      | false => simp [next, hc] at hnext
    | within =>
      by_cases hc : c = '.'
      · exact .inl hc
      · cases hd : continuesIdentifier c with
        | true => exact .inr rfl
        | false => simp [next, hc, hd] at hnext

theorem Fits.brace_not_mem (h : Fits s) : '\x7b' ∉ s := by
  have hbrace : continuesIdentifier '\x7b' = false := by decide +kernel
  have hs : scan startsIdentifier .between s ≠ .refused := by rw [h]; nofun
  intro hmem
  rcases forall_of_scan hs _ hmem with hdot | hcontinues
  · exact absurd hdot (by decide)
  · rw [hbrace] at hcontinues
    cases hcontinues

theorem scan_of_fits (hfirst : ∀ c, startsIdentifier c = true → first c = true)
    (h : Fits s) (hr : r ≠ .refused) : scan first r s = .within := by
  have hanywhere : scan startsIdentifier r s = .within := by
    cases r with
    | refused => exact absurd rfl hr
    | between => exact h
    | within =>
      cases s with
      | nil => exact nomatch h
      | cons c s =>
        cases hc : startsIdentifier c with
        | false => simp [Fits, next, hc] at h
        | true => simpa [Fits, next, hc, ne_dot_of_starts hc, continues_of_starts hc] using h
  rw [scan_eq_of_starts hfirst (by rw [hanywhere]; nofun), hanywhere]

theorem next_eq_of_lagging (hfirst : ∀ c, startsIdentifier c = true → first c = true)
    (hnext : next startsIdentifier r c ≠ .refused) (hr' : r' ≠ .refused)
    (hlag : r = .within → r' = .between →
      c ≠ '.' ∧ (continuesIdentifier c = true → first c = true)) :
    next first r' c = next startsIdentifier r c := by
  cases r with
  | refused => exact absurd rfl hnext
  | between =>
    cases hc : startsIdentifier c with
    | false => simp [next, hc] at hnext
    | true =>
      cases r' with
      | refused => exact absurd rfl hr'
      | between => simp [next, hc, hfirst c hc]
      | within => simp [next, hc, ne_dot_of_starts hc, continues_of_starts hc]
  | within =>
    cases r' with
    | refused => exact absurd rfl hr'
    | within => rfl
    | between =>
      obtain ⟨hdot, hbegin⟩ := hlag rfl rfl
      cases hc : continuesIdentifier c with
      | false => simp [next, hdot, hc] at hnext
      | true => simp [next, hdot, hc, hbegin hc]

end Continuing

end Scanning

namespace ClassName

open Reading

variable {name : String}

theorem wellFormed_iff_fits : WellFormed name ↔ Fits name.toList := by
  obtain ⟨w, ws, hs⟩ := List.exists_cons_of_ne_nil (List.splitOn_ne_nil '.' name.toList)
  rw [Fits, (scan_eq_within_iff startsIdentifier_dot hs).2, WellFormed, segments_eq, hs,
    List.forall_mem_map, List.forall_mem_cons]
  simp only [isIdentifier_ofList]

theorem wellFormed_of_isIdentifier (h : isIdentifier name = true) : WellFormed name := by
  have hname : '.' ∉ name.toList := dot_not_mem (all_continues_of_isIdentifier h)
  rw [WellFormed, segments_eq, List.splitOn_eq_singleton hname, List.map_singleton,
    String.ofList_toList, List.forall_mem_singleton]
  exact h

theorem segments_of_scan {s : List Char} (h : scan continuesIdentifier .between s = .within) :
    ∀ v ∈ (s.splitOn '.').map String.ofList,
      v.toList.all continuesIdentifier = true ∧ v ≠ "" := by
  obtain ⟨w, ws, hs⟩ := List.exists_cons_of_ne_nil (List.splitOn_ne_nil '.' s)
  rw [(scan_eq_within_iff continuesIdentifier_dot hs).2] at h
  rw [hs, List.forall_mem_map, List.forall_mem_cons]
  have hbegins : ∀ v, Begins continuesIdentifier v →
      (String.ofList v).toList.all continuesIdentifier = true ∧ String.ofList v ≠ "" := by
    rintro _ ⟨c, cs, rfl, hc, hcs⟩
    refine ⟨by simpa [hc] using hcs, ?_⟩
    rw [ne_eq, ← String.toList_eq_nil_iff, String.toList_ofList]
    exact List.cons_ne_nil _ _
  exact ⟨hbegins w h.1, fun v hv => hbegins v (h.2 v hv)⟩

theorem spelled_of_scan (h : scan continuesIdentifier .between name.toList ≠ .refused) :
    Spelled name := by
  cases hscan : scan continuesIdentifier .between name.toList with
  | refused => exact absurd hscan h
  | within =>
    have hsegments := segments_of_scan hscan
    rw [← segments_eq] at hsegments
    exact ⟨fun s hs => (hsegments s hs).1,
      fun s hs => (hsegments s (List.dropLast_subset _ hs)).2⟩
  | between =>
    rcases scan_eq_between_iff.1 hscan with hname | ⟨t, hname, ht⟩
    · have hsegments : segments name = [""] := by
        rw [segments_eq, hname]
        rfl
      exact ⟨by simp [hsegments], by simp [hsegments]⟩
    · have hsegments : segments name = (t.splitOn '.').map String.ofList ++ [""] := by
        rw [segments_eq, hname, List.splitOn_append_cons_self, List.map_append]
        rfl
      refine ⟨?_, ?_⟩
      · rw [hsegments, List.forall_mem_append]
        exact ⟨fun s hs => (segments_of_scan ht s hs).1, by simp⟩
      · rw [hsegments, List.dropLast_concat]
        exact fun s hs => (segments_of_scan ht s hs).2

end ClassName

theorem qualifiedNameFault?_eq_none_iff {path : List String} {kind name : String} :
    qualifiedNameFault? path kind name = none ↔
      ClassName.WellFormed name ∧ ∀ s ∈ ClassName.segments name, isKeyword s = false := by
  unfold qualifiedNameFault?
  split_ifs with hname
  · subst hname
    refine iff_of_false nofun fun h => ?_
    exact Bool.false_ne_true (h.1 "" (by decide))
  · rw [List.findSome?_eq_none_iff, ClassName.WellFormed, ← forall₂_and]
    refine forall₂_congr fun s _ => ?_
    unfold isIdentifier
    cases identifierFault? s <;> simp

end StagedBuilder
