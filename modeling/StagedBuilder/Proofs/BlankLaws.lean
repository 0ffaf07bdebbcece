import Mathlib.Data.List.TakeWhile
import StagedBuilder.Text.Blank

namespace StagedBuilder.Text

def Blank (s : List Char) : Prop := ∀ c ∈ s, isBlank c = true

instance (s : List Char) : Decidable (Blank s) := List.decidableBAll _ s

@[simp] theorem blank_nil : Blank [] := List.forall_mem_nil _

@[simp] theorem blank_cons {c : Char} {s : List Char} :
    Blank (c :: s) ↔ isBlank c = true ∧ Blank s := List.forall_mem_cons

@[simp] theorem blank_append {s t : List Char} : Blank (s ++ t) ↔ Blank s ∧ Blank t :=
  List.forall_mem_append

theorem Blank.not_mem {s : List Char} (h : Blank s) {c : Char} (hc : isBlank c = false) :
    c ∉ s := by
  intro hmem
  rw [h c hmem] at hc
  cases hc

theorem exists_trimStart (s : List Char) : ∃ l, Blank l ∧ s = l ++ trimStart s := by
  refine ⟨s.takeWhile isBlank, ?_, List.takeWhile_append_dropWhile.symm⟩
  intro c hc
  exact List.mem_takeWhile_imp hc

theorem exists_trimEnd (s : List Char) : ∃ r, Blank r ∧ s = trimEnd s ++ r := by
  obtain ⟨l, hl, hs⟩ := exists_trimStart s.reverse
  refine ⟨l.reverse, ?_, ?_⟩
  · intro c hc
    exact hl c (List.mem_reverse.1 hc)
  · rw [trimEnd, ← List.reverse_append, ← trimStart, ← hs, List.reverse_reverse]

theorem exists_trim (s : List Char) : ∃ l r, Blank l ∧ Blank r ∧ s = l ++ trim s ++ r := by
  obtain ⟨l, hl, hs⟩ := exists_trimStart s
  obtain ⟨r, hr, ht⟩ := exists_trimEnd (trimStart s)
  refine ⟨l, r, hl, hr, ?_⟩
  rw [trim, List.append_assoc, ← ht, ← hs]

theorem trimStart_append_of_blank {l : List Char} (h : Blank l) (s : List Char) :
    trimStart (l ++ s) = trimStart s := by
  induction l with
  | nil => rfl
  | cons c l ih =>
    obtain ⟨hc, hl⟩ := blank_cons.1 h
    rw [List.cons_append, trimStart, List.dropWhile_cons_of_pos hc]
    exact ih hl

theorem trimEnd_append_of_blank {r : List Char} (h : Blank r) (s : List Char) :
    trimEnd (s ++ r) = trimEnd s := by
  have hr : Blank r.reverse := by
    intro c hc
    exact h c (List.mem_reverse.1 hc)
  rw [trimEnd, List.reverse_append, ← trimStart, trimStart_append_of_blank hr]
  rfl

theorem trimStart_eq_self {s : List Char} (h : ∀ c, s.head? = some c → isBlank c = false) :
    trimStart s = s := by
  cases s with
  | nil => rfl
  | cons c s => exact List.dropWhile_cons_of_neg (by simp [h c rfl])

theorem trimEnd_eq_self {s : List Char} (h : ∀ c, s.getLast? = some c → isBlank c = false) :
    trimEnd s = s := by
  have hs : trimStart s.reverse = s.reverse := by
    apply trimStart_eq_self
    simpa using h
  rw [trimEnd, ← trimStart, hs, List.reverse_reverse]

theorem trimStart_append_of_not_blank {s : List Char} (h : ¬ Blank s) (t : List Char) :
    trimStart (s ++ t) = trimStart s ++ t := by
  rw [trimStart, List.dropWhile_append, if_neg]
  · rfl
  · rw [List.isEmpty_iff, List.dropWhile_eq_nil_iff]
    exact h

theorem trim_pad {l r : List Char} (hl : Blank l) (hr : Blank r) (s : List Char) :
    trim (l ++ s ++ r) = trim s := by
  rw [trim, List.append_assoc, trimStart_append_of_blank hl]
  by_cases hs : Blank s
  · have hright : Blank (s ++ r) := blank_append.2 ⟨hs, hr⟩
    have hnil {t : List Char} (ht : Blank t) : trimStart t = [] := List.dropWhile_eq_nil_iff.2 ht
    rw [hnil hright, trim, hnil hs]
  · rw [trimStart_append_of_not_blank hs, trimEnd_append_of_blank hr]
    rfl

theorem trim_blank_append {l : List Char} (h : Blank l) (s : List Char) :
    trim (l ++ s) = trim s := by
  simpa using trim_pad h blank_nil s

theorem trim_append_blank {r : List Char} (h : Blank r) (s : List Char) :
    trim (s ++ r) = trim s := by
  simpa using trim_pad blank_nil h s

theorem trim_eq_self {s : List Char} (hfirst : ∀ c, s.head? = some c → isBlank c = false)
    (hlast : ∀ c, s.getLast? = some c → isBlank c = false) : trim s = s := by
  rw [trim, trimStart_eq_self hfirst, trimEnd_eq_self hlast]

@[simp] theorem trim_trim (s : List Char) : trim (trim s) = trim s := by
  obtain ⟨l, r, hl, hr, hs⟩ := exists_trim s
  calc
    trim (trim s) = trim (l ++ trim s ++ r) := (trim_pad hl hr _).symm
    _ = trim s := by rw [← hs]

theorem trim_eq_nil_iff {s : List Char} : trim s = [] ↔ Blank s := by
  refine ⟨?_, ?_⟩
  · intro h
    obtain ⟨l, r, hl, hr, hs⟩ := exists_trim s
    rw [hs, h]
    simp [hl, hr]
  · intro h
    simpa [trim, trimEnd, trimStart] using trim_blank_append h []

theorem mem_trim_iff {s : List Char} {c : Char} (hc : isBlank c = false) : c ∈ trim s ↔ c ∈ s := by
  obtain ⟨l, r, hl, hr, hs⟩ := exists_trim s
  conv => rhs; rw [hs]
  simp [hl.not_mem hc, hr.not_mem hc]

theorem head_trimStart {s : List Char} {c : Char} (h : (trimStart s).head? = some c) :
    isBlank c = false := by
  have := List.head?_dropWhile_not isBlank s
  rw [trimStart] at h
  simpa [h] using this

def squeeze (s : List Char) : List Char := s.filter (!isBlank ·)

@[simp] theorem squeeze_append (s t : List Char) : squeeze (s ++ t) = squeeze s ++ squeeze t :=
  List.filter_append ..

theorem squeeze_eq_nil_iff {s : List Char} : squeeze s = [] ↔ Blank s := by
  simp [squeeze, List.filter_eq_nil_iff, Blank]

theorem squeeze_of_blank {s : List Char} (h : Blank s) : squeeze s = [] :=
  squeeze_eq_nil_iff.2 h

@[simp] theorem squeeze_trim (s : List Char) : squeeze (trim s) = squeeze s := by
  obtain ⟨l, r, hl, hr, hs⟩ := exists_trim s
  conv => rhs; rw [hs]
  simp [squeeze_of_blank hl, squeeze_of_blank hr]

theorem squeeze_intercalate (sep : List Char) (l : List (List Char)) :
    squeeze (List.intercalate sep l) = List.intercalate (squeeze sep) (l.map squeeze) := by
  induction l with
  | nil => rfl
  | cons x l ih =>
    cases l with
    | nil => simp
    | cons y l =>
      rw [List.intercalate_cons_cons, squeeze_append, squeeze_append, ih]
      simp only [List.map_cons, List.intercalate_cons_cons]

end StagedBuilder.Text
