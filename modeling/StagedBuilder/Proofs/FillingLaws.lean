import StagedBuilder.Proofs.WordLaws

namespace StagedBuilder.Text

inductive HasWords : List Char → List (List Char) → Prop
  | none {s : List Char} (blank : Blank s) : HasWords s []
  | word {before w rest : List Char} {ws : List (List Char)} (blank : Blank before)
      (word : IsWord w) (apart : ∀ c ∈ rest.head?, isBlank c = true) (later : HasWords rest ws) :
      HasWords (before ++ w ++ rest) (w :: ws)

section Words

variable {s rest : List Char} {c : Char} {ws : List (List Char)}

theorem HasWords.cons (hc : isBlank c = true) (h : HasWords s ws) : HasWords (c :: s) ws := by
  cases h with
  | none blank => exact .none (blank_cons.2 ⟨hc, blank⟩)
  | @word before w rest ws blank word apart later =>
    have hbefore : Blank (c :: before) := blank_cons.2 ⟨hc, blank⟩
    exact .word hbefore word apart later

theorem hasWords_words (s : List Char) : HasWords s (words s) := by
  induction hn : s.length using Nat.strong_induction_on generalizing s with
  | h n ih =>
    rcases exists_blank_or s with hs | ⟨w, c, rest, rfl, hw, hc⟩
    · rw [words_eq_of_not_blank hs]
      split_ifs with hnil
      · exact .none (hnil ▸ blank_nil)
      · have hword : HasWords ([] ++ s ++ []) [s] :=
          .word blank_nil ⟨hnil, hs⟩ nofun (.none blank_nil)
        rwa [List.nil_append, List.append_nil] at hword
    · have hlength : rest.length < n := by
        rw [← hn, List.length_append, List.length_cons]
        omega
      have hrest : HasWords (c :: rest) (words rest) := (ih _ hlength rest rfl).cons hc
      rw [words_append_cons hc, words_eq_of_not_blank hw]
      split_ifs with hnil
      · rwa [hnil]
      · have hapart : ∀ d ∈ (c :: rest).head?, isBlank d = true := by
          rintro d ⟨⟩
          exact hc
        exact .word blank_nil ⟨hnil, hw⟩ hapart hrest

theorem HasWords.eq_words (h : HasWords s ws) : ws = words s := by
  induction h with
  | none blank => exact (words_of_blank blank).symm
  | @word before w rest ws blank word apart later ih =>
    rw [List.append_assoc, words_blank_append blank, ih]
    cases rest with
    | nil =>
      rw [List.append_nil, word.words_eq]
      rfl
    | cons c rest =>
      have hc : isBlank c = true := apart c rfl
      have hrest : words (c :: rest) = words rest := words_append_cons hc [] rest
      rw [words_append_cons hc, word.words_eq, hrest]
      rfl

end Words

def lineSize (line : List String) : Nat := (" ".intercalate line).utf8ByteSize

/-- Not wider than `width`, unless it is a single word. -/
def Fits (width : Nat) (line : List String) : Prop := lineSize line ≤ width ∨ ∃ w, line = [w]

structure Filled (width : Nat) (lines : List (List String)) : Prop where
  ne_nil : ∀ l ∈ lines, l ≠ []
  fits : ∀ l ∈ lines, Fits width l

/-- The lines hold the words of a text in their order, with one space between two words. -/
def Wraps (width : Nat) (text : String) (lines : List String) : Prop :=
  ∃ broken, HasWords text.toList (broken.flatten.map (·.toList)) ∧ Filled width broken ∧
    lines = broken.map (" ".intercalate ·)

section Sizes

variable {line more : List String}

def spacedSize : List String → Nat
  | [] => 0
  | w :: ws => w.utf8ByteSize + 1 + spacedSize ws

theorem spacedSize_append (line more : List String) :
    spacedSize (line ++ more) = spacedSize line + spacedSize more := by
  induction line with
  | nil => exact (Nat.zero_add _).symm
  | cons w line ih =>
    rw [List.cons_append, spacedSize, spacedSize, ih]
    exact (Nat.add_assoc ..).symm

theorem spacedSize_le_of_sublist (h : line.Sublist more) : spacedSize line ≤ spacedSize more := by
  induction h with
  | slnil => exact Nat.le_refl _
  | cons w _ ih => exact Nat.le_add_left_of_le ih
  | cons_cons w _ ih => exact Nat.add_le_add_left ih _

theorem lineSize_eq (line : List String) : lineSize line = spacedSize line - 1 := by
  have hspace : " ".utf8ByteSize = 1 := by decide
  induction line with
  | nil => rfl
  | cons w line ih =>
    cases line with
    | nil => simp [lineSize, spacedSize]
    | cons v line =>
      rw [lineSize, String.intercalate_cons_cons, String.utf8ByteSize_append,
        String.utf8ByteSize_append, hspace, ← lineSize, ih]
      simp only [spacedSize]
      omega

theorem lineSize_concat (hline : line ≠ []) (w : String) :
    lineSize (line ++ [w]) = lineSize line + 1 + w.utf8ByteSize := by
  obtain ⟨v, line, rfl⟩ := List.exists_cons_of_ne_nil hline
  rw [lineSize_eq, lineSize_eq, spacedSize_append]
  simp only [spacedSize]
  omega

theorem lineSize_le_of_sublist (h : line.Sublist more) : lineSize line ≤ lineSize more := by
  rw [lineSize_eq, lineSize_eq]
  exact Nat.sub_le_sub_right (spacedSize_le_of_sublist h) 1

end Sizes

section Filling

variable {width : Nat} {line more ws rest : List String} {lines : List (List String)}

theorem Filled.cons (hne : line ≠ []) (hfits : Fits width line) (h : Filled width lines) :
    Filled width (line :: lines) :=
  ⟨List.forall_mem_cons.2 ⟨hne, h.ne_nil⟩, List.forall_mem_cons.2 ⟨hfits, h.fits⟩⟩

theorem Filled.tail (h : Filled width (line :: lines)) : Filled width lines :=
  ⟨(List.forall_mem_cons.1 h.ne_nil).2, (List.forall_mem_cons.1 h.fits).2⟩

theorem filled_nil (width : Nat) : Filled width [] :=
  ⟨List.forall_mem_nil _, List.forall_mem_nil _⟩

theorem filled_fillFrom (hne : line ≠ []) (hfits : Fits width line) :
    Filled width (fillFrom width line (lineSize line) ws) := by
  generalize hsize : lineSize line = size
  fun_induction fillFrom width line size ws with
  | case1 line size => exact (filled_nil width).cons hne hfits
  | case2 line size w ws hroom ih =>
    have hgrown : lineSize (line ++ [w]) = size + 1 + w.utf8ByteSize := by
      rw [lineSize_concat hne, hsize]
    exact ih (by simp) (.inl (hgrown ▸ hroom)) hgrown
  | case3 line size w ws hwide ih =>
    have hword : lineSize [w] = w.utf8ByteSize := by rw [lineSize, String.intercalate_singleton]
    exact (ih (List.cons_ne_nil _ _) (.inr ⟨w, rfl⟩) hword).cons hne hfits

theorem fill_cons (w : String) (ws : List String) :
    fill width (w :: ws) = fillFrom width [w] (lineSize [w]) ws := by
  rw [fill, lineSize, String.intercalate_singleton]

theorem filled_fill (width : Nat) (ws : List String) : Filled width (fill width ws) := by
  cases ws with
  | nil => exact filled_nil width
  | cons w ws =>
    rw [fill_cons]
    exact filled_fillFrom (List.cons_ne_nil _ _) (.inr ⟨w, rfl⟩)

theorem exists_fillFrom_eq (width : Nat) (line : List String) (size : Nat) (ws : List String) :
    ∃ full rest, fillFrom width line size ws = full :: fill width rest ∧ rest <:+ ws := by
  fun_induction fillFrom width line size ws with
  | case1 line size => exact ⟨line, [], rfl, List.nil_suffix⟩
  | case2 line size w ws hroom ih =>
    obtain ⟨full, rest, heq, hrest⟩ := ih
    exact ⟨full, rest, heq, hrest.trans (List.suffix_cons w ws)⟩
  | case3 line size w ws hwide ih => exact ⟨line, w :: ws, rfl, List.suffix_rfl⟩

theorem fillFrom_append (hline : line ≠ []) (hfits : lineSize (line ++ more) ≤ width)
    (ws : List String) :
    fillFrom width line (lineSize line) (more ++ ws) =
      fillFrom width (line ++ more) (lineSize (line ++ more)) ws := by
  induction more generalizing line with
  | nil => rw [List.append_nil, List.nil_append]
  | cons w more ih =>
    have hsplit : line ++ w :: more = line ++ [w] ++ more := by simp
    have hgrown : lineSize (line ++ [w]) = lineSize line + 1 + w.utf8ByteSize :=
      lineSize_concat hline w
    rw [hsplit] at hfits ⊢
    have hroom : lineSize line + 1 + w.utf8ByteSize ≤ width :=
      hgrown ▸ (lineSize_le_of_sublist (List.sublist_append_left _ _)).trans hfits
    rw [List.cons_append, fillFrom, if_pos hroom, ← hgrown]
    exact ih (by simp) hfits

theorem exists_fill_append_eq (hne : line ≠ []) (hfits : Fits width line) (ws : List String) :
    ∃ full rest, fill width (line ++ ws) = full :: fill width rest ∧ rest <:+ ws := by
  obtain ⟨w, more, rfl⟩ := List.exists_cons_of_ne_nil hne
  have hfilled : fill width (w :: more ++ ws) =
      fillFrom width (w :: more) (lineSize (w :: more)) ws := by
    rw [List.cons_append, fill_cons]
    rcases hfits with hsize | ⟨v, hone⟩
    · exact fillFrom_append (List.cons_ne_nil w []) hsize ws
    · obtain rfl := (List.cons.inj hone).2
      rfl
  rw [hfilled]
  exact exists_fillFrom_eq width _ _ ws

theorem Fits.of_suffix (hfits : Fits width more) (hline : line ≠ []) (hsuffix : line <:+ more) :
    Fits width line := by
  rcases hfits with hsize | ⟨w, rfl⟩
  · exact .inl ((lineSize_le_of_sublist hsuffix.sublist).trans hsize)
  · rcases List.suffix_cons_iff.1 hsuffix with rfl | hnil
    · exact .inr ⟨w, rfl⟩
    · exact absurd (List.suffix_nil.1 hnil) hline

theorem Filled.length_fill_le (h : Filled width lines) (hrest : rest <:+ lines.flatten) :
    (fill width rest).length ≤ lines.length := by
  -- the induction is on the lines; `rest` may begin inside the first of them
  induction lines generalizing rest with
  | nil =>
    rw [List.flatten_nil, List.suffix_nil] at hrest
    rw [hrest]
    exact Nat.le_refl _
  | cons line lines ih =>
    obtain ⟨earlier, hsplit⟩ := hrest
    rw [List.flatten_cons, List.append_eq_append_iff] at hsplit
    rcases hsplit with ⟨first, hline, rfl⟩ | ⟨skipped, -, hskipped⟩
    · by_cases hnil : first = []
      · rw [hnil, List.nil_append]
        exact Nat.le_succ_of_le (ih h.tail List.suffix_rfl)
      · have hfits : Fits width first :=
          (h.fits line List.mem_cons_self).of_suffix hnil ⟨earlier, hline.symm⟩
        obtain ⟨full, left, heq, hleft⟩ := exists_fill_append_eq hnil hfits lines.flatten
        rw [heq]
        exact Nat.succ_le_succ (ih h.tail hleft)
    · exact Nat.le_succ_of_le (ih h.tail ⟨skipped, hskipped.symm⟩)

end Filling

theorem map_ofList_map_toList (ws : List String) : (ws.map (·.toList)).map .ofList = ws := by
  rw [List.map_map]
  exact (List.map_congr_left fun w _ => String.ofList_toList).trans (List.map_id ws)

theorem map_toList_map_ofList (ws : List (List Char)) :
    (ws.map String.ofList).map (·.toList) = ws := by
  rw [List.map_map]
  exact (List.map_congr_left fun w _ => String.toList_ofList).trans (List.map_id ws)

/-- A text is wrapped into lines that hold its words, and no other lines that do are fewer. -/
theorem wraps_in_fewest_lines (width : Nat) (text : String) :
    Wraps width text (wrap width text) ∧
      ∀ lines, Wraps width text lines → (wrap width text).length ≤ lines.length := by
  constructor
  · refine ⟨fill width ((words text.toList).map .ofList), ?_, filled_fill _ _, rfl⟩
    rw [flatten_fill, map_toList_map_ofList]
    exact hasWords_words text.toList
  · rintro _ ⟨broken, hwords, hfilled, rfl⟩
    have hflatten : (words text.toList).map .ofList = broken.flatten := by
      rw [← hwords.eq_words, map_ofList_map_toList]
    rw [wrap, List.length_map, List.length_map, hflatten]
    exact hfilled.length_fill_le List.suffix_rfl

end StagedBuilder.Text
