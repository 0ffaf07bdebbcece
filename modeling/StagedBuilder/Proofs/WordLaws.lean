import StagedBuilder.Proofs.BlankLaws
import StagedBuilder.Text.Filling

namespace StagedBuilder.Text

variable {s w : List Char} {c : Char}

theorem pieces_eq_splitOnP (p : Char → Bool) (s : List Char) : pieces p s = s.splitOnP p := by
  induction s with
  | nil => rfl
  | cons c s ih =>
    obtain ⟨w, ws, hw⟩ := List.exists_cons_of_ne_nil (List.splitOnP_ne_nil p s)
    rw [pieces, List.splitOnP_cons_eq_if_modifyHead, ih, hw, List.modifyHead_cons]

def IsWord (w : List Char) : Prop := w ≠ [] ∧ ∀ c ∈ w, isBlank c = false

instance (w : List Char) : Decidable (IsWord w) :=
  @instDecidableAnd _ _ _ (List.decidableBAll _ w)

theorem words_append_cons (hc : isBlank c = true) (s t : List Char) :
    words (s ++ c :: t) = words s ++ words t := by
  rw [words, pieces_eq_splitOnP, List.splitOnP_append_cons s t hc, List.filter_append,
    ← pieces_eq_splitOnP, ← pieces_eq_splitOnP]
  rfl

theorem words_of_blank (h : Blank s) : words s = [] := by
  induction s with
  | nil => rfl
  | cons c s ih =>
    obtain ⟨hc, hs⟩ := blank_cons.1 h
    calc
      words ([] ++ c :: s) = words [] ++ words s := words_append_cons hc [] s
      _ = [] := ih hs

theorem words_append_blank (h : Blank w) (s : List Char) : words (s ++ w) = words s := by
  cases w with
  | nil => rw [List.append_nil]
  | cons c w =>
    obtain ⟨hc, hw⟩ := blank_cons.1 h
    rw [words_append_cons hc, words_of_blank hw, List.append_nil]

theorem words_blank_append (h : Blank w) (s : List Char) : words (w ++ s) = words s := by
  induction w with
  | nil => rfl
  | cons c w ih =>
    obtain ⟨hc, hw⟩ := blank_cons.1 h
    calc
      words ([] ++ c :: (w ++ s)) = words [] ++ words (w ++ s) := words_append_cons hc [] _
      _ = words s := ih hw

theorem words_eq_of_not_blank (h : ∀ c ∈ w, isBlank c = false) :
    words w = if w = [] then [] else [w] := by
  have hpieces : pieces isBlank w = [w] := by
    rw [pieces_eq_splitOnP]
    exact List.splitOnP_eq_singleton fun c hc => by simp [h c hc]
  rw [words, hpieces]
  split_ifs with hw
  · rw [hw]
    rfl
  · simp [hw]

theorem IsWord.words_eq (h : IsWord w) : words w = [w] := by
  rw [words_eq_of_not_blank h.2, if_neg h.1]

theorem exists_blank_or (s : List Char) :
    (∀ c ∈ s, isBlank c = false) ∨
      ∃ w c rest, s = w ++ c :: rest ∧ (∀ c ∈ w, isBlank c = false) ∧ isBlank c = true := by
  induction s with
  | nil => exact .inl (List.forall_mem_nil _)
  | cons d s ih =>
    cases hd : isBlank d with
    | true => exact .inr ⟨[], d, s, rfl, List.forall_mem_nil _, hd⟩
    | false =>
      rcases ih with hs | ⟨w, c, rest, rfl, hw, hc⟩
      · exact .inl (List.forall_mem_cons.2 ⟨hd, hs⟩)
      · exact .inr ⟨d :: w, c, rest, rfl, List.forall_mem_cons.2 ⟨hd, hw⟩, hc⟩

theorem of_mem_words (h : w ∈ words s) : IsWord w ∧ w <:+: s := by
  have hvisible {v : List Char} (hv : ∀ c ∈ v, isBlank c = false) (h : w ∈ words v) :
      IsWord w ∧ w = v := by
    rw [words_eq_of_not_blank hv] at h
    split_ifs at h with hne
    · cases h
    · rw [List.mem_singleton] at h
      exact ⟨⟨h ▸ hne, h ▸ hv⟩, h⟩
  induction hn : s.length using Nat.strong_induction_on generalizing s with
  | h n ih =>
    rcases exists_blank_or s with hs | ⟨v, c, rest, rfl, hv, hc⟩
    · obtain ⟨hword, rfl⟩ := hvisible hs h
      exact ⟨hword, List.infix_rfl⟩
    · rw [words_append_cons hc, List.mem_append] at h
      rcases h with h | h
      · obtain ⟨hword, rfl⟩ := hvisible hv h
        exact ⟨hword, (List.prefix_append w (c :: rest)).isInfix⟩
      · have hlength : rest.length < n := by
          rw [← hn, List.length_append, List.length_cons]
          omega
        obtain ⟨hword, hinfix⟩ := ih rest.length hlength h rfl
        have hsuffix : rest <:+ v ++ c :: rest :=
          (List.suffix_cons c rest).trans (List.suffix_append v (c :: rest))
        exact ⟨hword, hinfix.trans hsuffix.isInfix⟩

section Filling

variable {width size : Nat} {line : List String} {ws : List String}

theorem flatten_fillFrom : (fillFrom width line size ws).flatten = line ++ ws := by
  fun_induction fillFrom width line size ws with
  | case1 line size => simp
  | case2 line size w ws hfits ih => rw [ih, List.append_assoc, List.singleton_append]
  | case3 line size w ws hwide ih => rw [List.flatten_cons, ih, List.singleton_append]

theorem flatten_fill (width : Nat) (ws : List String) : (fill width ws).flatten = ws := by
  cases ws with
  | nil => rfl
  | cons w ws => exact flatten_fillFrom

theorem ne_nil_of_mem_fillFrom (hline : line ≠ []) : ∀ l ∈ fillFrom width line size ws, l ≠ [] := by
  fun_induction fillFrom width line size ws with
  | case1 line size => exact List.forall_mem_singleton.2 hline
  | case2 line size w ws hfits ih => exact ih (by simp)
  | case3 line size w ws hwide ih =>
    exact List.forall_mem_cons.2 ⟨hline, ih (List.cons_ne_nil _ _)⟩

theorem ne_nil_of_mem_fill {l : List String} (hl : l ∈ fill width ws) : l ≠ [] := by
  cases ws with
  | nil => cases hl
  | cons w ws => exact ne_nil_of_mem_fillFrom (List.cons_ne_nil _ _) l hl

theorem toList_spaced (w v : String) (line : List String) :
    (" ".intercalate (w :: v :: line)).toList =
      w.toList ++ ' ' :: (" ".intercalate (v :: line)).toList := by
  rw [String.intercalate_cons_cons, String.toList_append, String.toList_append, List.append_assoc]
  rfl

theorem words_intercalate (h : ∀ w ∈ line, IsWord w.toList) :
    words (" ".intercalate line).toList = line.map (·.toList) := by
  induction line with
  | nil => rfl
  | cons w line ih =>
    obtain ⟨hw, hline⟩ := List.forall_mem_cons.1 h
    cases line with
    | nil =>
      rw [String.intercalate_singleton, hw.words_eq]
      rfl
    | cons v line =>
      have hspace : isBlank ' ' = true := by decide
      rw [toList_spaced, words_append_cons hspace, hw.words_eq, ih hline]
      rfl

theorem of_mem_fill_words {text w : String} {l : List String}
    (hl : l ∈ fill width ((words text.toList).map .ofList)) (hw : w ∈ l) :
    IsWord w.toList ∧ w.toList ∈ words text.toList := by
  have hmem : w ∈ (words text.toList).map String.ofList := by
    rw [← flatten_fill width ((words text.toList).map String.ofList)]
    exact List.mem_flatten.2 ⟨l, hl, hw⟩
  obtain ⟨x, hx, rfl⟩ := List.mem_map.1 hmem
  rw [String.toList_ofList]
  exact ⟨(of_mem_words hx).1, hx⟩

theorem exists_of_mem_wrap {text l : String} (hl : l ∈ wrap width text) :
    ∃ line, line ≠ [] ∧ l = " ".intercalate line ∧
      ∀ w ∈ line, IsWord w.toList ∧ w.toList ∈ words text.toList := by
  obtain ⟨line, hline, rfl⟩ := List.mem_map.1 hl
  exact ⟨line, ne_nil_of_mem_fill hline, rfl, fun w hw => of_mem_fill_words hline hw⟩

theorem words_wrap (width : Nat) (text : String) :
    (wrap width text).flatMap (words ·.toList) = words text.toList := by
  let lines := fill width ((words text.toList).map String.ofList)
  have hwords : ∀ line ∈ lines,
      words (" ".intercalate line).toList = line.map (·.toList) :=
    fun line hline => words_intercalate fun w hw => (of_mem_fill_words hline hw).1
  calc
    (wrap width text).flatMap (words ·.toList) =
        lines.flatMap fun line => words (" ".intercalate line).toList := List.flatMap_map ..
    _ = lines.flatMap (·.map (·.toList)) := by
      rw [List.flatMap_def, List.flatMap_def, List.map_congr_left hwords]
    _ = lines.flatten.map (·.toList) := by rw [List.map_flatten, List.flatMap_def]
    _ = words text.toList := by
      rw [flatten_fill, List.map_map]
      exact (List.map_congr_left fun x _ => String.toList_ofList).trans (List.map_id _)

end Filling

end StagedBuilder.Text
