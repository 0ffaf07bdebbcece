import StagedBuilder.Text.Blank

namespace StagedBuilder.Text

def IsRun (p : Char → Bool) (s : List Char) : Prop := ∀ c ∈ s, p c = true

instance (p : Char → Bool) (s : List Char) : Decidable (IsRun p s) := List.decidableBAll _ s

def rewriteRuns (p : Char → Bool) (rewrite : List Char → List Char) (run : List Char) :
    List Char → List Char
  | [] => rewrite run
  | c :: cs =>
    if p c then rewriteRuns p rewrite (run ++ [c]) cs
    else rewrite run ++ c :: rewriteRuns p rewrite [] cs

def mapRuns (p : Char → Bool) (rewrite : List Char → List Char) (s : List Char) : List Char :=
  rewriteRuns p rewrite [] s

variable {p : Char → Bool} {rewrite : List Char → List Char} {c : Char} {r s x y : List Char}

theorem isRun_append : IsRun p (x ++ y) ↔ IsRun p x ∧ IsRun p y := List.forall_mem_append

theorem IsRun.not_mem (h : IsRun p s) (hc : p c = false) : c ∉ s := by
  intro hmem
  rw [h c hmem] at hc
  cases hc

/-- A text is a run, or a run that is cut off from a text by another character. -/
theorem runs_induction (p : Char → Bool) {motive : List Char → Prop}
    (run : ∀ r, IsRun p r → motive r)
    (cut : ∀ r c s, IsRun p r → p c = false → motive s → motive (r ++ c :: s))
    (s : List Char) : motive s := by
  suffices h : ∀ s r, IsRun p r → motive (r ++ s) from h s [] nofun
  intro s
  induction s with
  | nil =>
    intro r hr
    rw [List.append_nil]
    exact run r hr
  | cons c s ih =>
    intro r hr
    cases hc : p c with
    | true =>
      rw [List.append_cons]
      exact ih (r ++ [c]) (isRun_append.2 ⟨hr, List.forall_mem_singleton.2 hc⟩)
    | false => exact cut r c s hr hc (ih [] nofun)

theorem rewriteRuns_run (hs : IsRun p s) (r : List Char) :
    rewriteRuns p rewrite r s = rewrite (r ++ s) := by
  induction s generalizing r with
  | nil => rw [rewriteRuns, List.append_nil]
  | cons c s ih =>
    obtain ⟨hc, hs⟩ := List.forall_mem_cons.1 hs
    rw [rewriteRuns, if_pos hc, ih hs, List.append_assoc, List.singleton_append]

theorem rewriteRuns_cut (hc : p c = false) (r x y : List Char) :
    rewriteRuns p rewrite r (x ++ c :: y) =
      rewriteRuns p rewrite r x ++ c :: mapRuns p rewrite y := by
  induction x generalizing r with
  | nil =>
    have hcut : ¬ p c = true := by simp [hc]
    rw [List.nil_append, rewriteRuns, rewriteRuns, if_neg hcut]
    rfl
  | cons d x ih =>
    rw [List.cons_append, rewriteRuns, rewriteRuns]
    by_cases hd : p d = true
    · rw [if_pos hd, if_pos hd, ih]
    · rw [if_neg hd, if_neg hd, ih, List.append_assoc, List.cons_append]

theorem mapRuns_run (h : IsRun p r) : mapRuns p rewrite r = rewrite r := by
  rw [mapRuns, rewriteRuns_run h, List.nil_append]

theorem mapRuns_cut (hc : p c = false) (x y : List Char) :
    mapRuns p rewrite (x ++ c :: y) = mapRuns p rewrite x ++ c :: mapRuns p rewrite y :=
  rewriteRuns_cut hc [] x y

theorem exists_cut (hrun : ∀ r, IsRun p r → IsRun p (rewrite r))
    (h : mapRuns p rewrite s = x ++ c :: y) (hc : p c = false) :
    ∃ x' y', s = x' ++ c :: y' ∧ mapRuns p rewrite x' = x ∧ mapRuns p rewrite y' = y := by
  induction s using runs_induction p generalizing x y with
  | run r hr =>
    have hmem : c ∈ mapRuns p rewrite r := h ▸ List.mem_append_right _ List.mem_cons_self
    rw [mapRuns_run hr] at hmem
    exact absurd hmem ((hrun r hr).not_mem hc)
  | cut r d s hr hd ih =>
    rw [mapRuns_cut hd] at h
    rcases List.append_eq_append_iff.1 h with ⟨z, rfl, hz⟩ | ⟨z, hr', hz⟩
    · cases z with
      | nil =>
        obtain ⟨rfl, rfl⟩ := List.cons.inj hz
        exact ⟨r, s, rfl, (List.append_nil _).symm, rfl⟩
      | cons d' z =>
        obtain ⟨rfl, hrest⟩ := List.cons.inj hz
        obtain ⟨x', y', rfl, rfl, rfl⟩ := ih hrest
        exact ⟨r ++ d :: x', y', by simp, mapRuns_cut hd r x', rfl⟩
    · cases z with
      | nil =>
        obtain ⟨rfl, rfl⟩ := List.cons.inj hz
        exact ⟨r, s, rfl, by rw [hr', List.append_nil], rfl⟩
      | cons d' z =>
        obtain ⟨rfl, -⟩ := List.cons.inj hz
        rw [mapRuns_run hr] at hr'
        have hmem : c ∈ rewrite r := hr' ▸ List.mem_append_right _ List.mem_cons_self
        exact absurd hmem ((hrun r hr).not_mem hc)

end StagedBuilder.Text
