import Mathlib.Data.List.DropRight
import StagedBuilder.Proofs.ReferenceLaws
import StagedBuilder.Proofs.RunLaws

/-!
Texts with the classes in them moved to other packages. A dotted name is a longest run of the
characters of such names, less the dots at the end of the run, so that the names are found in a text
without knowledge of what it says.
-/

namespace StagedBuilder

open Text
open Imports (isDotted)

def IsQualified (name : String) : Prop := ClassName.WellFormed name ∧ isDotted name = true

instance (name : String) : Decidable (ClassName.WellFormed name) := List.decidableBAll _ _

instance (name : String) : Decidable (IsQualified name) := inferInstanceAs (Decidable (_ ∧ _))

structure Renaming where
  apply : String → String
  isQualified : ∀ q, IsQualified q → IsQualified (apply q)
  simple_apply : ∀ q, IsQualified q → ClassName.simple (apply q) = ClassName.simple q
  injOn : ∀ q q', IsQualified q → IsQualified q' → apply q = apply q' → q = q'

def continuesName (c : Char) : Bool := decide (c = '.') || continuesIdentifier c

namespace Renaming

variable (m : Renaming)

def onName (name : String) : String := if IsQualified name then m.apply name else name

def onRun (run : List Char) : List Char :=
  (m.onName (.ofList (run.rdropWhile (· = '.')))).toList ++ run.rtakeWhile (· = '.')

def onChars (s : List Char) : List Char := mapRuns continuesName m.onRun s

/-- The text with `m` of each class in its place. -/
def onText (s : String) : String := .ofList (m.onChars s.toList)

end Renaming

section Runs

variable {c : Char} {s x y : List Char}

theorem not_continuesName (hdot : c ≠ '.') (hc : continuesIdentifier c = false) :
    continuesName c = false := by
  simp [continuesName, hdot, hc]

theorem ClassName.WellFormed.isRun {name : String} (h : ClassName.WellFormed name) :
    IsRun continuesName name.toList := by
  intro c hc
  rcases h.mem hc with rfl | hc
  · rfl
  · rw [continuesName, hc, Bool.or_true]

theorem rtakeWhile_append (p : Char → Bool) (x y : List Char) :
    (x ++ y).rtakeWhile p = if y.all p then x.rtakeWhile p ++ y else y.rtakeWhile p := by
  induction y using List.reverseRecOn with
  | nil => simp
  | append_singleton y c ih =>
    rw [← List.append_assoc]
    by_cases hc : p c = true
    · rw [List.rtakeWhile_concat_pos _ _ _ hc, List.rtakeWhile_concat_pos _ _ _ hc, ih]
      simp only [List.all_append, List.all_cons, List.all_nil, hc, Bool.and_true]
      split_ifs
      · rw [List.append_assoc]
      · rfl
    · rw [List.rtakeWhile_concat_neg _ _ _ hc, List.rtakeWhile_concat_neg _ _ _ hc, if_neg]
      exact fun h => hc (List.all_eq_true.1 h c (by simp))

theorem rdropWhile_dots (hx : x.getLast? ≠ some '.') (hy : ∀ c ∈ y, c = '.') :
    (x ++ y).rdropWhile (· = '.') = x := by
  induction y using List.reverseRecOn with
  | nil =>
    rw [List.append_nil, List.rdropWhile_eq_self_iff]
    intro hne hdot
    rw [List.getLast?_eq_some_getLast hne] at hx
    exact hx (congrArg some (of_decide_eq_true hdot))
  | append_singleton y c ih =>
    have hc : decide (c = '.') = true := decide_eq_true (hy c (by simp))
    rw [← List.append_assoc, List.rdropWhile_concat_pos (· = '.') _ _ hc]
    exact ih fun c hc => hy c (List.mem_append_left _ hc)

theorem exists_dots (s : List Char) :
    ∃ x y, s = x ++ y ∧ x.getLast? ≠ some '.' ∧ ∀ c ∈ y, c = '.' := by
  refine ⟨s.rdropWhile (· = '.'), s.rtakeWhile (· = '.'), List.rdropWhile_append_rtakeWhile.symm,
    ?_, fun c hc => by simpa using List.mem_rtakeWhile_imp hc⟩
  intro hlast
  have hne : s.rdropWhile (· = '.') ≠ [] := by
    intro hnil
    rw [hnil] at hlast
    cases hlast
  rw [List.getLast?_eq_some_getLast hne] at hlast
  exact List.rdropWhile_last_not _ _ hne (decide_eq_true (Option.some.inj hlast))

end Runs

namespace Renaming

variable (m : Renaming) {c : Char} {r s t x y : List Char} {name name' : String}

section Names

theorem onName_inj (h : m.onName name = m.onName name') : name = name' := by
  unfold onName at h
  split_ifs at h with hq hq' hq'
  · exact m.injOn _ _ hq hq' h
  · exact absurd (h ▸ m.isQualified _ hq) hq'
  · exact absurd (h ▸ m.isQualified _ hq') hq
  · exact h

theorem isDotted_onName (name : String) : isDotted (m.onName name) = isDotted name := by
  unfold onName
  split_ifs with hq
  · rw [(m.isQualified _ hq).2, hq.2]
  · rfl

theorem simple_onName (name : String) :
    ClassName.simple (m.onName name) = ClassName.simple name := by
  unfold onName
  split_ifs with hq
  · exact m.simple_apply _ hq
  · rfl

theorem isRun_onName (h : IsRun continuesName name.toList) :
    IsRun continuesName (m.onName name).toList := by
  unfold onName
  split_ifs with hq
  · exact (m.isQualified _ hq).1.isRun
  · exact h

theorem getLast?_onName (h : name.toList.getLast? ≠ some '.') :
    (m.onName name).toList.getLast? ≠ some '.' := by
  unfold onName
  split_ifs with hq
  · exact (m.isQualified _ hq).1.getLast?_ne
  · exact h

end Names

section OneRun

theorem onRun_append (hx : x.getLast? ≠ some '.') (hy : ∀ c ∈ y, c = '.') :
    m.onRun (x ++ y) = (m.onName (.ofList x)).toList ++ y := by
  have hdots := List.rdropWhile_append_rtakeWhile (p := (· = '.')) (l := x ++ y)
  rw [rdropWhile_dots hx hy] at hdots
  rw [onRun, rdropWhile_dots hx hy, List.append_cancel_left hdots]

theorem onRun_nil : m.onRun [] = [] := by
  have hnil : ¬ IsQualified "" := by decide
  rw [onRun, onName, List.rdropWhile_nil, if_neg hnil]
  rfl

theorem onRun_concat_dot (r : List Char) : m.onRun (r ++ ['.']) = m.onRun r ++ ['.'] := by
  rw [onRun, onRun, List.rdropWhile_concat_pos _ _ _ rfl, List.rtakeWhile_concat_pos _ _ _ rfl,
    List.append_assoc]

theorem isRun_onRun (h : IsRun continuesName r) : IsRun continuesName (m.onRun r) := by
  obtain ⟨x, y, rfl, hx, hy⟩ := exists_dots r
  obtain ⟨hfront, hback⟩ := isRun_append.1 h
  rw [onRun_append m hx hy, isRun_append]
  exact ⟨m.isRun_onName (by rwa [String.toList_ofList]), hback⟩

theorem onRun_inj (h : m.onRun r = m.onRun s) : r = s := by
  obtain ⟨x, y, rfl, hx, hy⟩ := exists_dots r
  obtain ⟨x', y', rfl, hx', hy'⟩ := exists_dots s
  rw [onRun_append m hx hy, onRun_append m hx' hy'] at h
  have hlast : ∀ z : List Char, z.getLast? ≠ some '.' →
      (m.onName (.ofList z)).toList.getLast? ≠ some '.' :=
    fun z hz => m.getLast?_onName (by rwa [String.toList_ofList])
  have hname := congrArg (List.rdropWhile (· = '.')) h
  rw [rdropWhile_dots (hlast x hx) hy, rdropWhile_dots (hlast x' hx') hy'] at hname
  rw [hname] at h
  rw [String.ofList_injective (m.onName_inj (String.toList_injective hname)),
    List.append_cancel_left h]

theorem dot_mem_onRun : '.' ∈ m.onRun r ↔ '.' ∈ r := by
  obtain ⟨x, y, rfl, hx, hy⟩ := exists_dots r
  have hname := m.isDotted_onName (.ofList x)
  rw [Bool.eq_iff_iff, ClassName.isDotted_iff, ClassName.isDotted_iff, String.toList_ofList]
    at hname
  rw [onRun_append m hx hy, List.mem_append, List.mem_append, hname]

theorem onRun_of_no_dot (h : '.' ∉ r) : m.onRun r = r := by
  have hname : ¬ IsQualified (.ofList r) := by
    rintro ⟨-, hd⟩
    rw [ClassName.isDotted_iff, String.toList_ofList] at hd
    exact h hd
  have hlast : r.getLast? ≠ some '.' := fun hdot => h (List.mem_of_getLast? hdot)
  have honly := m.onRun_append hlast (y := []) nofun
  rwa [List.append_nil, List.append_nil, onName, if_neg hname, String.toList_ofList] at honly

theorem rtakeWhile_onRun (r : List Char) :
    (m.onRun r).rtakeWhile (· ≠ '.') = r.rtakeWhile (· ≠ '.') := by
  obtain ⟨x, y, rfl, hx, hy⟩ := exists_dots r
  have hsimple := congrArg String.toList (m.simple_onName (.ofList x))
  simp only [ClassName.simple, String.toList_ofList] at hsimple
  rw [onRun_append m hx hy, rtakeWhile_append, rtakeWhile_append]
  simp only [List.rtakeWhile, hsimple]

end OneRun

section Texts

theorem onChars_run (h : IsRun continuesName r) : m.onChars r = m.onRun r := mapRuns_run h

theorem onChars_cut (hc : continuesName c = false) (x y : List Char) :
    m.onChars (x ++ c :: y) = m.onChars x ++ c :: m.onChars y := mapRuns_cut hc x y

@[simp] theorem onChars_nil : m.onChars [] = [] := m.onRun_nil

theorem onChars_cons (hc : continuesName c = false) (s : List Char) :
    m.onChars (c :: s) = c :: m.onChars s := by
  simpa using m.onChars_cut hc [] s

theorem onChars_of_no_dot (h : '.' ∉ s) : m.onChars s = s := by
  induction s using runs_induction continuesName with
  | run r hr => rw [onChars_run m hr, onRun_of_no_dot m h]
  | cut r c s hr hc ih =>
    rw [List.mem_append, List.mem_cons, not_or, not_or] at h
    rw [onChars_cut m hc, onChars_run m hr, onRun_of_no_dot m h.1, ih h.2.2]

theorem dot_mem_onChars : '.' ∈ m.onChars s ↔ '.' ∈ s := by
  induction s using runs_induction continuesName with
  | run r hr => rw [onChars_run m hr, dot_mem_onRun]
  | cut r c s hr hc ih =>
    rw [onChars_cut m hc, onChars_run m hr, List.mem_append, List.mem_cons, dot_mem_onRun, ih,
      List.mem_append, List.mem_cons]

theorem rtakeWhile_onChars (s : List Char) :
    (m.onChars s).rtakeWhile (· ≠ '.') = s.rtakeWhile (· ≠ '.') := by
  induction s using runs_induction continuesName with
  | run r hr => rw [onChars_run m hr, rtakeWhile_onRun]
  | cut r c s hr hc ih =>
    rw [onChars_cut m hc, onChars_run m hr]
    by_cases hs : '.' ∈ s
    · have hback : ∀ x z, '.' ∈ z →
          (x ++ c :: z).rtakeWhile (· ≠ '.') = z.rtakeWhile (· ≠ '.') := by
        intro x z hz
        rw [List.append_cons, rtakeWhile_append, if_neg]
        exact fun h => of_decide_eq_true (List.all_eq_true.1 h _ hz) rfl
      rw [hback _ _ (m.dot_mem_onChars.2 hs), hback _ _ hs, ih]
    · rw [onChars_of_no_dot m hs, rtakeWhile_append, rtakeWhile_append, rtakeWhile_onRun]

theorem onChars_concat (s : List Char) (hc : continuesIdentifier c = false) :
    m.onChars (s ++ [c]) = m.onChars s ++ [c] := by
  by_cases hdot : c = '.'
  · subst hdot
    induction s using runs_induction continuesName with
    | run r hr =>
      have hlonger : IsRun continuesName (r ++ ['.']) :=
        isRun_append.2 ⟨hr, List.forall_mem_singleton.2 rfl⟩
      rw [onChars_run m hr, onChars_run m hlonger, onRun_concat_dot]
    | cut r d s hr hd ih =>
      rw [List.append_assoc, List.cons_append, onChars_cut m hd, onChars_cut m hd, ih,
        List.append_assoc, List.cons_append]
  · rw [onChars_cut m (not_continuesName hdot hc), onChars_nil]

theorem onChars_append (s : List Char) (h : ∀ c ∈ t, continuesIdentifier c = false) :
    m.onChars (s ++ t) = m.onChars s ++ t := by
  induction t using List.reverseRecOn with
  | nil => rw [List.append_nil, List.append_nil]
  | append_singleton t c ih =>
    obtain ⟨ht, hc⟩ := List.forall_mem_append.1 h
    rw [← List.append_assoc, onChars_concat m _ (hc c List.mem_cons_self), ih ht,
      List.append_assoc]

theorem exists_cut (h : m.onChars s = x ++ c :: y) (hc : continuesName c = false) :
    ∃ x' y', s = x' ++ c :: y' ∧ m.onChars x' = x ∧ m.onChars y' = y :=
  Text.exists_cut (fun _ => m.isRun_onRun) h hc

theorem eq_of_onChars_run (hr : IsRun continuesName r) (h : m.onChars r = m.onChars t) : r = t := by
  have ht : IsRun continuesName t := by
    rw [onChars_run m hr] at h
    intro c hc
    by_contra hcut
    obtain ⟨x, y, rfl⟩ := List.append_of_mem hc
    rw [onChars_cut m (Bool.eq_false_iff.2 hcut)] at h
    exact hcut (m.isRun_onRun hr c (h ▸ List.mem_append_right _ List.mem_cons_self))
  rw [onChars_run m hr, onChars_run m ht] at h
  exact m.onRun_inj h

theorem onChars_inj (h : m.onChars s = m.onChars t) : s = t := by
  induction s using runs_induction continuesName generalizing t with
  | run r hr => exact m.eq_of_onChars_run hr h
  | cut r c s hr hc ih =>
    rw [onChars_cut m hc] at h
    obtain ⟨x, y, rfl, hx, hy⟩ := m.exists_cut h.symm hc
    rw [m.eq_of_onChars_run hr hx.symm, ih hy.symm]

end Texts

section Ends

theorem continues_of_isBlank (h : isBlank c = true) : continuesIdentifier c = false := by
  by_contra hc
  rw [not_isBlank_of_continues (Bool.of_not_eq_false hc)] at h
  cases h

theorem not_continuesName_of_isBlank (h : isBlank c = true) : continuesName c = false := by
  refine not_continuesName ?_ (continues_of_isBlank h)
  rintro rfl
  exact absurd h (by decide)

theorem getLast?_onChars (s : List Char) (hc : continuesIdentifier c = true) :
    ∃ d, continuesIdentifier d = true ∧ (m.onChars (s ++ [c])).getLast? = some d := by
  have hdot : c ≠ '.' := by
    rintro rfl
    rw [continuesIdentifier_dot] at hc
    cases hc
  induction s using runs_induction continuesName with
  | run r hr =>
    have hlast : (r ++ [c]).getLast? ≠ some '.' := by
      rw [List.getLast?_concat]
      exact fun h => hdot (Option.some.inj h)
    have hrun : IsRun continuesName (r ++ [c]) :=
      isRun_append.2 ⟨hr, List.forall_mem_singleton.2 (by rw [continuesName, hc, Bool.or_true])⟩
    have honly := m.onRun_append hlast (y := []) nofun
    rw [List.append_nil, List.append_nil] at honly
    rw [onChars_run m hrun, honly, onName]
    split_ifs with hq
    · have hname := (m.isQualified _ hq).1
      obtain ⟨x, d, hx⟩ := (List.eq_nil_or_concat' _).resolve_left hname.toList_ne
      have hlast := hname.getLast?_ne
      rw [hx, List.getLast?_concat] at hlast ⊢
      have hd : d ≠ '.' := fun hdot => hlast (congrArg some hdot)
      exact ⟨d, (hname.mem (hx ▸ List.mem_concat_self)).resolve_left hd, rfl⟩
    · exact ⟨c, hc, by rw [String.toList_ofList, List.getLast?_concat]⟩
  | cut r e s hr he ih =>
    obtain ⟨d, hd, hlast⟩ := ih
    have hne : m.onChars (s ++ [c]) ≠ [] := by
      intro hnil
      rw [hnil] at hlast
      cases hlast
    refine ⟨d, hd, ?_⟩
    rw [List.append_assoc, List.cons_append, onChars_cut m he, List.append_cons,
      List.getLast?_append_of_ne_nil _ hne, hlast]

theorem exists_append (h : m.onChars s = x ++ t) (ht : ∀ c ∈ t, continuesIdentifier c = false) :
    ∃ x', s = x' ++ t ∧ m.onChars x' = x := by
  induction t using List.reverseRecOn generalizing s with
  | nil => exact ⟨s, (List.append_nil s).symm, by rw [h, List.append_nil]⟩
  | append_singleton t c ih =>
    obtain ⟨hfront, hc⟩ := List.forall_mem_append.1 ht
    rw [← List.append_assoc] at h
    rcases List.eq_nil_or_concat' s with rfl | ⟨s, d, rfl⟩
    · rw [onChars_nil] at h
      exact absurd h.symm (by simp)
    · cases hd : continuesIdentifier d with
      | true =>
        obtain ⟨e, he, hlast⟩ := m.getLast?_onChars s hd
        rw [h, List.getLast?_concat] at hlast
        obtain rfl := Option.some.inj hlast
        rw [hc c List.mem_cons_self] at he
        cases he
      | false =>
        rw [onChars_concat m s hd] at h
        obtain ⟨hx, hcd⟩ := List.append_inj' h rfl
        obtain rfl := List.singleton_inj.1 hcd
        obtain ⟨x', rfl, hx'⟩ := ih hx hfront
        exact ⟨x', List.append_assoc .., hx'⟩

theorem trimStart_onChars (s : List Char) : trimStart (m.onChars s) = m.onChars (trimStart s) := by
  induction s with
  | nil => simp [trimStart]
  | cons c s ih =>
    cases hc : isBlank c with
    | true =>
      rw [onChars_cons m (not_continuesName_of_isBlank hc), trimStart, trimStart,
        List.dropWhile_cons_of_pos hc, List.dropWhile_cons_of_pos hc]
      exact ih
    | false =>
      have hnot : ¬ isBlank c = true := by simp [hc]
      rw [trimStart, trimStart, List.dropWhile_cons_of_neg hnot]
      apply trimStart_eq_self
      intro d hd
      by_contra hblank
      obtain ⟨y, hy⟩ := List.head?_eq_some_iff.1 hd
      obtain ⟨x', y', hs, hx', -⟩ := m.exists_cut (x := []) hy
        (not_continuesName_of_isBlank (Bool.of_not_eq_false hblank))
      obtain rfl := m.onChars_inj (hx'.trans m.onChars_nil.symm)
      obtain ⟨rfl, -⟩ := List.cons.inj hs
      exact hblank hc

theorem trim_onChars (s : List Char) : trim (m.onChars s) = m.onChars (trim s) := by
  obtain ⟨r, hr, hs⟩ := exists_trimEnd (trimStart s)
  have hback := m.onChars_append (trimEnd (trimStart s)) (t := r) fun c hc =>
    continues_of_isBlank (hr c hc)
  rw [← hs] at hback
  rw [trim, trimStart_onChars, hback, trimEnd_append_of_blank hr]
  apply trimEnd_eq_self
  intro c hc
  by_contra hblank
  obtain ⟨x, hx⟩ := List.getLast?_eq_some_iff.1 hc
  obtain ⟨x', hx', -⟩ := m.exists_append hx fun d hd =>
    List.mem_singleton.1 hd ▸ continues_of_isBlank (Bool.of_not_eq_false hblank)
  exact hblank (getLast?_trim (s := s) (by rw [trim, hx', List.getLast?_concat]))

end Ends

end Renaming

namespace Reference

variable (m : Renaming) {n s t : List Char} {b : String}

theorem IsDimensions.continues {d : List Char} (h : IsDimensions d) :
    ∀ c ∈ d, continuesIdentifier c = false :=
  h.forall_mem (by decide +kernel) (by decide +kernel) (by decide +kernel)

theorem takeDimensions_onChars_of_rest (h : takeDimensions n.reverse = ([], n.reverse)) :
    takeDimensions (m.onChars n).reverse = ([], (m.onChars n).reverse) := by
  obtain ⟨n', d, hn', hd, hrest⟩ := exists_dimensions (m.onChars n)
  obtain ⟨x, rfl, -⟩ := m.exists_append hn' hd.continues
  rw [List.reverse_append, takeDimensions_reverse_append hd] at h
  have hnil : d = [] := by simpa using (List.append_eq_nil_iff.1 (congrArg Prod.fst h)).1
  rwa [hn', hnil, List.append_nil]

theorem exists_of_bound (hb : b ∈ wildcardBounds) :
    ∃ x, b.toList = x ++ [' '] ∧ '.' ∉ x ∧ continuesName ' ' = false := by
  have hbounds : ∀ b ∈ wildcardBounds, '.' ∉ b.toList ∧ b.toList.getLast? = some ' ' := by decide
  obtain ⟨hdot, hlast⟩ := hbounds b hb
  obtain ⟨x, hx⟩ := List.getLast?_eq_some_iff.1 hlast
  exact ⟨x, hx, fun h => hdot (hx ▸ List.mem_append_left _ h), by decide +kernel⟩

theorem onChars_bound_append (hb : b ∈ wildcardBounds) (s : List Char) :
    m.onChars (b.toList ++ s) = b.toList ++ m.onChars s := by
  obtain ⟨x, hx, hdot, hblank⟩ := exists_of_bound hb
  rw [hx, List.append_assoc, List.singleton_append, m.onChars_cut hblank, m.onChars_of_no_dot hdot,
    List.append_assoc, List.singleton_append]

theorem bound_prefix_onChars (hb : b ∈ wildcardBounds) :
    b.toList <+: m.onChars s ↔ b.toList <+: s := by
  obtain ⟨x, hx, hdot, hblank⟩ := exists_of_bound hb
  constructor
  · rintro ⟨t, ht⟩
    rw [hx, List.append_assoc, List.singleton_append] at ht
    obtain ⟨x', t', rfl, hx', -⟩ := m.exists_cut ht.symm hblank
    obtain rfl := m.onChars_inj (hx'.trans (m.onChars_of_no_dot hdot).symm)
    exact ⟨t', by rw [hx, List.append_assoc, List.singleton_append]⟩
  · rintro ⟨t, rfl⟩
    exact ⟨m.onChars t, (onChars_bound_append m hb t).symm⟩

theorem splitBound_onChars (s : List Char) :
    splitBound (m.onChars s) = ((splitBound s).1, m.onChars (splitBound s).2) := by
  have hfind : wildcardBounds.find? (fun b => b.toList.isPrefixOf (m.onChars s)) =
      wildcardBounds.find? (fun b => b.toList.isPrefixOf s) := by
    rw [← List.head?_filter, ← List.head?_filter]
    congr 1
    apply List.filter_congr
    intro b hb
    rw [Bool.eq_iff_iff, List.isPrefixOf_iff_prefix, List.isPrefixOf_iff_prefix,
      bound_prefix_onChars m hb]
  rw [splitBound, splitBound, hfind]
  cases hb : wildcardBounds.find? (fun b => b.toList.isPrefixOf s) with
  | none => rfl
  | some b =>
    have hmem := List.mem_of_find?_eq_some hb
    have hprefix := List.find?_some hb
    obtain ⟨t, rfl⟩ := List.isPrefixOf_iff_prefix.1 hprefix
    have hlength : b.length = b.toList.length := String.length_toList.symm
    simp only [onChars_bound_append m hmem, hlength, List.drop_left, m.trimStart_onChars]

theorem takeDimensions_onChars (s : List Char) :
    takeDimensions (m.onChars s).reverse =
      ((takeDimensions s.reverse).1, (m.onChars (takeDimensions s.reverse).2.reverse).reverse) := by
  obtain ⟨n, d, rfl, hd, hn⟩ := exists_dimensions s
  rw [m.onChars_append n hd.continues, List.reverse_append, List.reverse_append,
    takeDimensions_reverse_append hd, takeDimensions_reverse_append hd, hn,
    takeDimensions_onChars_of_rest m hn, List.reverse_reverse]

theorem ofText_onText (s : String) :
    ofText (m.onText s) =
      ⟨(ofText s).bound, m.onText (ofText s).className, (ofText s).dimensions⟩ := by
  simp only [ofText, Renaming.onText, String.toList_ofList, m.trim_onChars, splitBound_onChars,
    takeDimensions_onChars, List.reverse_reverse]

end Reference

end StagedBuilder
