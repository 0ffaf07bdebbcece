import Mathlib.Tactic.Tauto
import StagedBuilder.Proofs.BlankLaws
import StagedBuilder.TypeExpr

namespace StagedBuilder.TypeExpr

open Text

def IsPlain (s : List Char) : Prop := '<' ∉ s ∧ '>' ∉ s

instance (s : List Char) : Decidable (IsPlain s) := inferInstanceAs (Decidable (_ ∧ _))

def EnclosesCommas (depth : Nat) (s : List Char) : Prop :=
  ∀ before after, s = before ++ ',' :: after → before.count '>' < depth + before.count '<'

def depthAfter (depth : Nat) (c : Char) : Nat :=
  if c = '<' then depth + 1 else if c = '>' then depth - 1 else depth

theorem isPlain_append {s t : List Char} : IsPlain (s ++ t) ↔ IsPlain s ∧ IsPlain t := by
  simp only [IsPlain, List.mem_append]
  tauto

theorem isPlain_cons {c : Char} {s : List Char} :
    IsPlain (c :: s) ↔ (c ≠ '<' ∧ c ≠ '>') ∧ IsPlain s := by
  simp only [IsPlain, List.mem_cons, not_or, ne_comm]
  tauto

theorem isPlain_of_blank {s : List Char} (h : Blank s) : IsPlain s :=
  ⟨h.not_mem (by decide), h.not_mem (by decide)⟩

@[simp] theorem isPlain_trim {s : List Char} : IsPlain (trim s) ↔ IsPlain s := by
  rw [IsPlain, IsPlain, mem_trim_iff (by decide), mem_trim_iff (by decide)]

theorem depthAfter_of_plain {c : Char} (h : c ≠ '<' ∧ c ≠ '>') (depth : Nat) :
    depthAfter depth c = depth := by
  rw [depthAfter, if_neg h.1, if_neg h.2]

theorem depthAfter_add {depth : Nat} {c : Char} (h : ¬(c = '>' ∧ depth = 0)) (outer : Nat) :
    depthAfter (outer + depth) c = outer + depthAfter depth c := by
  unfold depthAfter
  split_ifs with hopen hclose
  · rfl
  · have : depth ≠ 0 := fun hzero => h ⟨hclose, hzero⟩
    omega
  · rfl

theorem bracketFault?_cons {depth : Nat} {c : Char} {s : List Char}
    (h : ¬(c = '>' ∧ depth = 0)) :
    bracketFault? depth (c :: s) = bracketFault? (depthAfter depth c) s := by
  by_cases hopen : c = '<'
  · simp [hopen, depthAfter, bracketFault?]
  · by_cases hclose : c = '>'
    · obtain ⟨d, rfl⟩ : ∃ d, depth = d + 1 := Nat.exists_eq_succ_of_ne_zero (by tauto)
      simp [hclose, depthAfter, bracketFault?]
    · rw [depthAfter_of_plain ⟨hopen, hclose⟩]
      cases depth <;> simp [bracketFault?, hclose]

theorem bracketFault?_unmatched (s : List Char) :
    bracketFault? 0 ('>' :: s) = some .unmatchedClose := by
  simp [bracketFault?]

theorem bracketFault?_plain {s : List Char} (h : IsPlain s) (depth : Nat) (rest : List Char) :
    bracketFault? depth (s ++ rest) = bracketFault? depth rest := by
  induction s with
  | nil => rfl
  | cons c s ih =>
    obtain ⟨hc, hs⟩ := isPlain_cons.1 h
    rw [List.cons_append, bracketFault?_cons (by tauto), depthAfter_of_plain hc, ih hs]

theorem not_unmatched {depth : Nat} {c : Char} {s : List Char}
    (h : bracketFault? depth (c :: s) = none) : ¬(c = '>' ∧ depth = 0) := by
  rintro ⟨rfl, rfl⟩
  rw [bracketFault?_unmatched] at h
  cases h

theorem bracketFault?_append {depth : Nat} {s : List Char} (h : bracketFault? depth s = none)
    (outer : Nat) (rest : List Char) :
    bracketFault? (outer + depth) (s ++ rest) = bracketFault? outer rest := by
  induction s generalizing depth with
  | nil =>
    cases depth with
    | zero => rfl
    | succ depth => simp [bracketFault?] at h
  | cons c s ih =>
    have hc : ¬(c = '>' ∧ depth = 0) := not_unmatched h
    rw [bracketFault?_cons hc] at h
    have hc' : ¬(c = '>' ∧ outer + depth = 0) := by
      rintro ⟨hclose, hzero⟩
      exact hc ⟨hclose, (Nat.add_eq_zero_iff.1 hzero).2⟩
    rw [List.cons_append, bracketFault?_cons hc', depthAfter_add hc, ih h]

theorem count_le_of_balanced {depth : Nat} {before after : List Char}
    (h : bracketFault? depth (before ++ after) = none) :
    before.count '>' ≤ depth + before.count '<' := by
  induction before generalizing depth with
  | nil => exact Nat.zero_le _
  | cons c before ih =>
    have hc : ¬(c = '>' ∧ depth = 0) := not_unmatched h
    rw [List.cons_append, bracketFault?_cons hc] at h
    have := ih h
    simp only [List.count_cons, beq_iff_eq]
    unfold depthAfter at this
    split_ifs at this ⊢ with hopen hclose <;> simp_all <;> omega

theorem bracketFault?_append_plain {rest : List Char} (h : IsPlain rest) (depth : Nat)
    (s : List Char) : bracketFault? depth (s ++ rest) = bracketFault? depth s := by
  induction s generalizing depth with
  | nil => simpa using bracketFault?_plain h depth []
  | cons c s ih =>
    by_cases hc : c = '>' ∧ depth = 0
    · obtain ⟨rfl, rfl⟩ := hc
      rw [List.cons_append, bracketFault?_unmatched, bracketFault?_unmatched]
    · rw [List.cons_append, bracketFault?_cons hc, bracketFault?_cons hc, ih]

theorem bracketFault?_trim (s : List Char) : bracketFault? 0 (trim s) = bracketFault? 0 s := by
  obtain ⟨l, r, hl, hr, hs⟩ := exists_trim s
  calc
    bracketFault? 0 (trim s) = bracketFault? 0 (l ++ (trim s ++ r)) := by
      rw [bracketFault?_plain (isPlain_of_blank hl),
        bracketFault?_append_plain (isPlain_of_blank hr)]
    _ = bracketFault? 0 s := by rw [← List.append_assoc, ← hs]

theorem enclosesCommas_cons {depth : Nat} {c : Char} {s : List Char} (h : ¬(c = '>' ∧ depth = 0)) :
    EnclosesCommas depth (c :: s) ↔
      ¬(c = ',' ∧ depth = 0) ∧ EnclosesCommas (depthAfter depth c) s := by
  have hcount (before : List Char) :
      (c :: before).count '>' < depth + (c :: before).count '<' ↔
        before.count '>' < depthAfter depth c + before.count '<' := by
    simp only [List.count_cons, beq_iff_eq]
    unfold depthAfter
    split_ifs with hclose hopen hopen <;> simp_all <;> omega
  refine ⟨?_, ?_⟩
  · intro henc
    refine ⟨?_, ?_⟩
    · rintro ⟨rfl, rfl⟩
      simpa using henc [] s rfl
    · rintro before after rfl
      exact (hcount before).1 (henc (c :: before) after rfl)
  · rintro ⟨hcomma, henc⟩ before after heq
    cases before with
    | nil =>
      obtain ⟨rfl, rfl⟩ := List.cons.inj heq
      have : depth ≠ 0 := fun hzero => hcomma ⟨rfl, hzero⟩
      simp
      omega
    | cons d before =>
      obtain ⟨rfl, rfl⟩ := List.cons.inj heq
      exact (hcount before).2 (henc before after rfl)

theorem splitArguments_comma (s : List Char) :
    splitArguments 0 (',' :: s) = [] :: splitArguments 0 s := by
  simp [splitArguments]

theorem splitArguments_ne_nil (depth : Nat) (s : List Char) : splitArguments depth s ≠ [] := by
  cases s with
  | nil => simp [splitArguments]
  | cons c s =>
    rw [splitArguments]
    split_ifs
    · simp
    all_goals
      dsimp only
      split <;> simp

theorem splitArguments_cons {depth : Nat} {c : Char} {s a : List Char} {as : List (List Char)}
    (h : ¬(c = ',' ∧ depth = 0)) (hs : splitArguments (depthAfter depth c) s = a :: as) :
    splitArguments depth (c :: s) = (c :: a) :: as := by
  rw [splitArguments, if_neg h]
  rw [depthAfter] at hs
  simp only [hs]

theorem splitArguments_append {depth : Nat} {a : List Char} (hb : bracketFault? depth a = none)
    (ha : EnclosesCommas depth a) {rest : List Char} {as : List (List Char)}
    (hrest : splitArguments 0 rest = [] :: as) : splitArguments depth (a ++ rest) = a :: as := by
  induction a generalizing depth with
  | nil =>
    cases depth with
    | zero => exact hrest
    | succ depth => simp [bracketFault?] at hb
  | cons c a ih =>
    have hc : ¬(c = '>' ∧ depth = 0) := not_unmatched hb
    rw [bracketFault?_cons hc] at hb
    obtain ⟨hcomma, hrest'⟩ := (enclosesCommas_cons hc).1 ha
    exact splitArguments_cons hcomma (ih hb hrest')

theorem splitArguments_intercalate {args : List (List Char)} (hne : args ≠ [])
    (h : ∀ a ∈ args, bracketFault? 0 a = none ∧ EnclosesCommas 0 a) :
    splitArguments 0 (List.intercalate [','] args) = args := by
  induction args with
  | nil => exact absurd rfl hne
  | cons a args ih =>
    obtain ⟨⟨hb, ha⟩, hargs⟩ := List.forall_mem_cons.1 h
    cases args with
    | nil =>
      have hone : splitArguments 0 (a ++ []) = [a] := splitArguments_append hb ha rfl
      simpa using hone
    | cons b bs =>
      rw [List.intercalate_cons_cons, List.append_assoc]
      apply splitArguments_append hb ha
      rw [List.singleton_append, splitArguments_comma, ih (List.cons_ne_nil _ _) hargs]

theorem intercalate_splitArguments (depth : Nat) (s : List Char) :
    List.intercalate [','] (splitArguments depth s) = s := by
  induction s generalizing depth with
  | nil => simp [splitArguments]
  | cons c s ih =>
    by_cases hc : c = ',' ∧ depth = 0
    · obtain ⟨rfl, rfl⟩ := hc
      rw [splitArguments_comma]
      obtain ⟨a, as, hs⟩ := List.exists_cons_of_ne_nil (splitArguments_ne_nil 0 s)
      rw [hs, List.intercalate_cons_cons, ← hs, ih]
      rfl
    · obtain ⟨a, as, hs⟩ :=
        List.exists_cons_of_ne_nil (splitArguments_ne_nil (depthAfter depth c) s)
      have := ih (depthAfter depth c)
      rw [splitArguments_cons hc hs]
      rw [hs] at this
      cases as with
      | nil => simpa using this
      | cons b bs =>
        rw [List.intercalate_cons_cons] at this ⊢
        rw [← this]
        rfl

theorem enclosesCommas_of_split {depth : Nat} {s a : List Char} {as : List (List Char)}
    (h : splitArguments depth s = a :: as) :
    (bracketFault? depth a = none → EnclosesCommas depth a) ∧
      ∀ b ∈ as, bracketFault? 0 b = none → EnclosesCommas 0 b := by
  induction s generalizing depth a as with
  | nil =>
    obtain ⟨rfl, rfl⟩ := List.cons.inj h
    refine ⟨?_, by simp⟩
    rintro - before after heq
    simp at heq
  | cons c s ih =>
    by_cases hc : c = ',' ∧ depth = 0
    · obtain ⟨rfl, rfl⟩ := hc
      rw [splitArguments_comma] at h
      obtain ⟨rfl, rfl⟩ := List.cons.inj h
      refine ⟨?_, ?_⟩
      · rintro - before after heq
        simp at heq
      · obtain ⟨b, bs, hs⟩ := List.exists_cons_of_ne_nil (splitArguments_ne_nil 0 s)
        rw [hs]
        exact List.forall_mem_cons.2 (ih hs)
    · obtain ⟨b, bs, hs⟩ :=
        List.exists_cons_of_ne_nil (splitArguments_ne_nil (depthAfter depth c) s)
      rw [splitArguments_cons hc hs] at h
      obtain ⟨rfl, rfl⟩ := List.cons.inj h
      obtain ⟨hfirst, hothers⟩ := ih hs
      refine ⟨?_, hothers⟩
      intro hb
      have hclose : ¬(c = '>' ∧ depth = 0) := not_unmatched hb
      rw [bracketFault?_cons hclose] at hb
      exact (enclosesCommas_cons hclose).2 ⟨hc, hfirst hb⟩

theorem enclosesCommas_of_mem {s a : List Char} (ha : a ∈ splitArguments 0 s)
    (hb : bracketFault? 0 a = none) : EnclosesCommas 0 a := by
  obtain ⟨b, bs, hs⟩ := List.exists_cons_of_ne_nil (splitArguments_ne_nil 0 s)
  obtain ⟨hfirst, hothers⟩ := enclosesCommas_of_split hs
  rw [hs] at ha
  cases List.mem_cons.1 ha with
  | inl heq => exact heq ▸ hfirst (heq ▸ hb)
  | inr hmem => exact hothers a hmem hb

end StagedBuilder.TypeExpr
