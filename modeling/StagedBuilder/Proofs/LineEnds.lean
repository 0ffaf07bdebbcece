import StagedBuilder.Proofs.TemplateLaws
import StagedBuilder.Proofs.WordLaws

namespace StagedBuilder.Text

variable {l s t : List Char} {ls : List (List Char)}

/-- A text is one line without a feed, or begins with a line that ends in one. -/
theorem line_induction {motive : List Char → Prop} (last : ∀ l, '\n' ∉ l → motive l)
    (line : ∀ l s, '\n' ∉ l → motive s → motive (l ++ '\n' :: s)) (s : List Char) : motive s := by
  induction hn : s.length using Nat.strong_induction_on generalizing s with
  | h n ih =>
    by_cases hfeed : '\n' ∈ s
    · obtain ⟨l, rest, rfl, hl⟩ := List.eq_append_cons_of_mem hfeed
      refine line l rest hl (ih rest.length ?_ rest rfl)
      rw [← hn, List.length_append, List.length_cons]
      omega
    · exact last s hfeed

theorem pieces_of_no_feed (hl : '\n' ∉ l) : pieces (· = '\n') l = [l] := by
  rw [pieces_eq_splitOnP]
  exact List.splitOnP_eq_singleton fun c hc => decide_eq_false fun heq => hl (heq ▸ hc)

theorem pieces_line (hl : '\n' ∉ l) (s : List Char) :
    pieces (· = '\n') (l ++ '\n' :: s) = l :: pieces (· = '\n') s := by
  rw [pieces_eq_splitOnP, List.splitOnP_append_cons l s (by decide), ← pieces_eq_splitOnP,
    ← pieces_eq_splitOnP, pieces_of_no_feed hl]
  rfl

theorem lines_of_no_feed (hl : '\n' ∉ l) : lines l = if l = [] then [] else [l] := by
  rw [lines, pieces_of_no_feed hl]
  rfl

theorem lines_line (hl : '\n' ∉ l) (s : List Char) :
    lines (l ++ '\n' :: s) = dropTrailing '\r' l :: lines s := by
  obtain ⟨w, ws, hw⟩ : ∃ w ws, pieces (· = '\n') s = w :: ws := by
    rw [pieces_eq_splitOnP]
    exact List.exists_cons_of_ne_nil (List.splitOnP_ne_nil _ _)
  rw [lines, lines, pieces_line hl, hw]
  rfl

theorem dropTrailing_cons_cons (c d e : Char) (s : List Char) :
    dropTrailing e (c :: d :: s) = c :: dropTrailing e (d :: s) := by
  unfold dropTrailing
  rw [List.getLast?_cons_cons]
  split_ifs <;> rfl

theorem mem_of_mem_dropTrailing {c d : Char} (h : c ∈ dropTrailing d s) : c ∈ s := by
  unfold dropTrailing at h
  split_ifs at h
  · exact List.dropLast_subset _ h
  · exact h

theorem feed_not_mem_lines (s : List Char) : ∀ l ∈ lines s, '\n' ∉ l := by
  induction s using line_induction with
  | last l hl =>
    rw [lines_of_no_feed hl]
    split_ifs
    · exact List.forall_mem_nil _
    · exact List.forall_mem_singleton.2 hl
  | line l s hl ih =>
    rw [lines_line hl]
    exact List.forall_mem_cons.2 ⟨fun hmem => hl (mem_of_mem_dropTrailing hmem), ih⟩

theorem pieces_ended (h : ∀ l ∈ ls, '\n' ∉ l) :
    pieces (· = '\n') (ls.flatMap (· ++ ['\n'])) = ls ++ [[]] := by
  induction ls with
  | nil => rfl
  | cons l ls ih =>
    obtain ⟨hl, hls⟩ := List.forall_mem_cons.1 h
    rw [List.flatMap_cons, List.append_assoc, List.singleton_append, pieces_line hl, ih hls,
      List.cons_append]

def plainEnds (s : List Char) : List Char :=
  let t := replace "\r\n".toList "\n".toList s
  if t.getLast?.all (· = '\n') then t else t ++ ['\n']

theorem replace_of_no_feed (hl : '\n' ∉ l) : replace "\r\n".toList "\n".toList l = l := by
  induction l with
  | nil => rfl
  | cons c l ih =>
    have hhere : ¬"\r\n".toList <+: c :: l := fun hstart => hl (hstart.subset (by decide))
    rw [replace_cons hhere, ih fun hmem => hl (List.mem_cons_of_mem c hmem)]

theorem replace_line (hl : '\n' ∉ l) (s : List Char) :
    replace "\r\n".toList "\n".toList (l ++ '\n' :: s) =
      dropTrailing '\r' l ++ '\n' :: replace "\r\n".toList "\n".toList s := by
  have hfeed : replace "\r\n".toList "\n".toList ('\n' :: s) =
      '\n' :: replace "\r\n".toList "\n".toList s :=
    replace_cons fun hstart => absurd (List.cons_prefix_cons.1 hstart).1 (by decide)
  induction l with
  | nil => exact hfeed
  | cons c l ih =>
    have hrest : '\n' ∉ l := fun hmem => hl (List.mem_cons_of_mem c hmem)
    cases l with
    | nil =>
      by_cases hc : c = '\r'
      · rw [hc]
        exact replace_append (by decide) "\n".toList s
      · have hhere : ¬"\r\n".toList <+: c :: '\n' :: s :=
          fun hstart => hc (List.cons_prefix_cons.1 hstart).1.symm
        have hlast : [c].getLast? ≠ some '\r' := fun heq => hc (Option.some.inj heq)
        rw [List.singleton_append, replace_cons hhere, hfeed, dropTrailing, if_neg hlast]
        rfl
    | cons d l =>
      have hhere : ¬"\r\n".toList <+: c :: d :: (l ++ '\n' :: s) := by
        intro hstart
        obtain ⟨-, htail⟩ := List.cons_prefix_cons.1 hstart
        exact hrest ((List.cons_prefix_cons.1 htail).1 ▸ List.mem_cons_self)
      rw [dropTrailing_cons_cons, List.cons_append, List.cons_append, replace_cons hhere,
        ← List.cons_append, ih hrest, List.cons_append]

theorem plainEnds_line (hl : '\n' ∉ l) (s : List Char) :
    plainEnds (l ++ '\n' :: s) = dropTrailing '\r' l ++ '\n' :: plainEnds s := by
  unfold plainEnds
  rw [replace_line hl]
  dsimp only
  rw [List.getLast?_append_of_ne_nil _ (List.cons_ne_nil _ _)]
  cases replace "\r\n".toList "\n".toList s with
  | nil => rfl
  | cons c t =>
    rw [List.getLast?_cons_cons]
    split_ifs
    · rfl
    · rw [List.append_assoc, List.cons_append]

theorem flatMap_lines (s : List Char) : (lines s).flatMap (· ++ ['\n']) = plainEnds s := by
  induction s using line_induction with
  | last l hl =>
    rw [lines_of_no_feed hl, plainEnds, replace_of_no_feed hl]
    rcases List.eq_nil_or_concat l with rfl | ⟨front, c, rfl⟩
    · rfl
    · have hc : c ≠ '\n' := fun heq => hl (by simp [heq])
      simp [hc]
  | line l s hl ih =>
    rw [lines_line hl, List.flatMap_cons, ih, plainEnds_line hl, List.append_assoc,
      List.singleton_append]

theorem lines_eq_iff : lines s = lines t ↔ plainEnds s = plainEnds t := by
  rw [← flatMap_lines, ← flatMap_lines]
  refine ⟨congrArg (List.flatMap (· ++ ['\n'])), fun h => ?_⟩
  have hpieces := congrArg (pieces (· = '\n')) h
  rw [pieces_ended (feed_not_mem_lines s), pieces_ended (feed_not_mem_lines t)] at hpieces
  exact List.append_cancel_right hpieces

end StagedBuilder.Text
