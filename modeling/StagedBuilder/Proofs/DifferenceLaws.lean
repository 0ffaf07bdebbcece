import StagedBuilder.Proofs.LineEnds
import StagedBuilder.Text.Difference

namespace StagedBuilder.Text

variable {ls es as : List (List Char)}

def lineAt (ls : List (List Char)) (n : Nat) : List Char := ls[n]?.getD missing

section Places

theorem lineAt_of_length_le {n : Nat} (h : ls.length ≤ n) : lineAt ls n = missing := by
  rw [lineAt, List.getElem?_eq_none h, Option.getD_none]

theorem getElem?_padded {count : Nat} (h : ls.length ≤ count) (n : Nat) :
    (padded count ls)[n]? = if n < count then some (lineAt ls n) else none := by
  rw [padded, List.getElem?_append, List.getElem?_replicate]
  by_cases hline : n < ls.length
  · rw [if_pos hline, if_pos (hline.trans_le h), lineAt, List.getElem?_eq_getElem hline,
      Option.getD_some]
  · rw [if_neg hline, lineAt_of_length_le (Nat.le_of_not_lt hline)]
    congr 1
    exact propext (by omega)

theorem mem_differences_iff {expected actual : List Char} {d : Difference} :
    d ∈ differences expected actual ↔
      ∃ n, d = ⟨n + 1, lineAt (lines expected) n, lineAt (lines actual) n⟩ ∧
        lineAt (lines expected) n ≠ lineAt (lines actual) n := by
  have hes := Nat.le_max_left (lines expected).length (lines actual).length
  have has := Nat.le_max_right (lines expected).length (lines actual).length
  rw [differences]
  dsimp only
  rw [List.mem_filterMap]
  constructor
  · rintro ⟨⟨⟨e, a⟩, line⟩, hmem, hd⟩
    obtain ⟨hline, hat⟩ := List.mk_mem_zipIdx_iff_le_and_getElem?_sub.1 hmem
    obtain ⟨he, ha⟩ := List.getElem?_zip_eq_some.1 hat
    rw [getElem?_padded hes, Option.ite_none_right_eq_some] at he
    rw [getElem?_padded has, Option.ite_none_right_eq_some] at ha
    obtain ⟨-, he⟩ := he
    obtain ⟨-, ha⟩ := ha
    split_ifs at hd with hea
    obtain rfl := Option.some.inj hd
    refine ⟨line - 1, ?_, ?_⟩
    · rw [Option.some.inj he, Option.some.inj ha, Nat.sub_add_cancel hline]
    · rwa [Option.some.inj he, Option.some.inj ha]
  · rintro ⟨n, rfl, hne⟩
    have hn : n < max (lines expected).length (lines actual).length := by
      by_contra hbeyond
      rw [Nat.not_lt] at hbeyond
      exact hne ((lineAt_of_length_le (hes.trans hbeyond)).trans
        (lineAt_of_length_le (has.trans hbeyond)).symm)
    refine ⟨((lineAt (lines expected) n, lineAt (lines actual) n), n + 1), ?_, if_neg hne⟩
    rw [List.mk_mem_zipIdx_iff_le_and_getElem?_sub, Nat.add_sub_cancel, List.getElem?_zip_eq_some,
      getElem?_padded hes, getElem?_padded has, if_pos hn, if_pos hn]
    exact ⟨Nat.le_add_left 1 n, rfl, rfl⟩

theorem increasing_differences (expected actual : List Char) :
    (differences expected actual).Pairwise (·.line < ·.line) := by
  rw [differences]
  dsimp only
  refine List.Pairwise.filterMap _ (R := fun x y => x.2 < y.2) ?_ ?_
  · rintro ⟨⟨e, a⟩, line⟩ ⟨⟨e', a'⟩, line'⟩ hlt d hd d' hd'
    dsimp only at hd hd' hlt
    split_ifs at hd hd'
    obtain rfl := Option.some.inj hd
    obtain rfl := Option.some.inj hd'
    exact hlt
  · rw [← List.pairwise_map, List.zipIdx_map_snd]
    exact List.pairwise_lt_range'

end Places

namespace Difference

def told (d : Difference) : List (List Char) := [
  ("Line " ++ toString d.line ++ ":").toList, "  expected: ".toList ++ d.expected,
  "  actual:   ".toList ++ d.actual]

end Difference

/-- The message tells these differences, line by line. -/
def Tells (message : String) (ds : List Difference) : Prop :=
  pieces (· = '\n') message.toList =
    "Content mismatch:".toList :: ds.flatMap Difference.told ++ [[]]

section Messages

theorem toString_nat_inj {m n : Nat} (h : toString m = toString n) : m = n := by
  rw [Nat.toString_eq_ofList_toDigits, Nat.toString_eq_ofList_toDigits] at h
  have hdigits := congrArg (Nat.ofDigitChars 10 · 0) (String.ofList_injective h)
  simpa [Nat.ofDigitChars_toDigits] using hdigits

theorem told_inj {d d' : Difference} (h : d.told = d'.told) : d = d' := by
  obtain ⟨line, e, a⟩ := d
  obtain ⟨line', e', a'⟩ := d'
  simp only [Difference.told, List.cons.injEq, String.toList_inj, List.append_cancel_left_eq,
    and_true] at h
  obtain ⟨hline, rfl, rfl⟩ := h
  have hnumber : toString line = toString line' := by
    rw [← String.toList_inj] at hline ⊢
    simpa using hline
  rw [toString_nat_inj hnumber]

theorem flatMap_told_inj {ds ds' : List Difference}
    (h : ds.flatMap Difference.told = ds'.flatMap Difference.told) : ds = ds' := by
  induction ds generalizing ds' with
  | nil =>
    cases ds' with
    | nil => rfl
    | cons d' ds' => cases h
  | cons d ds ih =>
    cases ds' with
    | nil => cases h
    | cons d' ds' =>
      rw [List.flatMap_cons, List.flatMap_cons] at h
      obtain ⟨hd, hds⟩ := List.append_inj h rfl
      rw [told_inj hd, ih hds]

theorem Tells.eq {message : String} {ds ds' : List Difference} (h : Tells message ds)
    (h' : Tells message ds') : ds = ds' := by
  have hlines := List.append_cancel_right (h.symm.trans h')
  exact flatMap_told_inj (List.cons.inj hlines).2

theorem feed_not_mem_toString (n : Nat) : '\n' ∉ (toString n).toList := by
  rw [Nat.toString_eq_ofList_toDigits, String.toList_ofList]
  intro hmem
  exact absurd (Nat.isDigit_of_mem_toDigits (by decide) (by decide) hmem) (by decide)

theorem feed_not_mem_lineAt (s : List Char) (n : Nat) : '\n' ∉ lineAt (lines s) n := by
  unfold lineAt
  cases hline : (lines s)[n]? with
  | none => exact by decide
  | some l => exact feed_not_mem_lines s l (List.mem_of_getElem? hline)

theorem feed_not_mem_told {d : Difference} (hexpected : '\n' ∉ d.expected)
    (hactual : '\n' ∉ d.actual) : ∀ l ∈ d.told, '\n' ∉ l := by
  have hnumber := feed_not_mem_toString d.line
  simp only [Difference.told, List.forall_mem_cons, String.toList_append, List.mem_append, not_or]
  exact ⟨⟨⟨by decide, hnumber⟩, by decide⟩, ⟨by decide, hexpected⟩, ⟨by decide, hactual⟩,
    List.forall_mem_nil _⟩

theorem toList_text (d : Difference) : d.text.toList = d.told.flatMap (· ++ ['\n']) := by
  simp [Difference.text, Difference.told]

theorem toList_intercalate_text (ds : List Difference) :
    ("".intercalate (ds.map (·.text))).toList =
      (ds.flatMap Difference.told).flatMap (· ++ ['\n']) := by
  rw [String.toList_intercalate, List.map_map]
  induction ds with
  | nil => rfl
  | cons d ds ih =>
    rw [List.flatMap_cons, List.flatMap_append, ← ih, ← toList_text]
    cases ds with
    | nil => simp
    | cons d' ds => rfl

theorem tells_mismatch {expected actual message : String}
    (h : mismatch? expected actual = some message) :
    Tells message (differences expected.toList actual.toList) := by
  unfold mismatch? at h
  split_ifs at h
  obtain rfl := Option.some.inj h
  have hhead : "Content mismatch:\n".toList = "Content mismatch:".toList ++ ['\n'] := rfl
  have hfeed : ∀ l ∈ "Content mismatch:".toList ::
      (differences expected.toList actual.toList).flatMap Difference.told, '\n' ∉ l := by
    refine List.forall_mem_cons.2 ⟨by decide, fun l hl => ?_⟩
    obtain ⟨d, hd, hl⟩ := List.mem_flatMap.1 hl
    obtain ⟨n, rfl, -⟩ := mem_differences_iff.1 hd
    exact feed_not_mem_told (feed_not_mem_lineAt _ n) (feed_not_mem_lineAt _ n) l hl
  rw [Tells, String.toList_append, toList_intercalate_text, hhead]
  exact pieces_ended hfeed

end Messages

/--
Every place where the texts have different lines is told, in order and with both lines. A line that
only one of the texts has counts as different.
-/
structure Pinpoints (es as : List (List Char)) (ds : List Difference) : Prop where
  told : ds ≠ []
  increasing : ds.Pairwise (·.line < ·.line)
  places : ∀ n, (∃ d ∈ ds, d.line = n + 1) ↔ es[n]? ≠ as[n]?
  sides : ∀ d ∈ ds, ∃ n, d = ⟨n + 1, lineAt es n, lineAt as n⟩

section Pinpointing

theorem mem_drop_iff {n : Nat} {l : List Char} : l ∈ ls.drop n ↔ ∃ i, n ≤ i ∧ ls[i]? = some l := by
  rw [List.mem_iff_getElem?]
  simp only [List.getElem?_drop]
  constructor
  · rintro ⟨i, hi⟩
    exact ⟨n + i, Nat.le_add_right n i, hi⟩
  · rintro ⟨i, hle, hi⟩
    exact ⟨i - n, by rwa [Nat.add_sub_cancel' hle]⟩

theorem lineAt_ne_iff_of_told (h : missing ∉ es.drop as.length ++ as.drop es.length) (n : Nat) :
    lineAt es n ≠ lineAt as n ↔ es[n]? ≠ as[n]? := by
  rw [List.mem_append, not_or, mem_drop_iff, mem_drop_iff] at h
  refine not_congr ⟨fun heq => ?_, fun heq => by rw [lineAt, lineAt, heq]⟩
  unfold lineAt at heq
  cases he : es[n]? with
  | none =>
    cases ha : as[n]? with
    | none => rfl
    | some a =>
      rw [he, ha] at heq
      exact absurd ⟨n, List.getElem?_eq_none_iff.1 he, ha.trans (congrArg some heq.symm)⟩ h.2
  | some e =>
    cases ha : as[n]? with
    | none =>
      rw [he, ha] at heq
      exact absurd ⟨n, List.getElem?_eq_none_iff.1 ha, he.trans (congrArg some heq)⟩ h.1
    | some a =>
      rw [he, ha] at heq
      exact congrArg some heq

theorem missing_not_mem_of_told (h : ∀ n, es[n]? ≠ as[n]? → lineAt es n ≠ lineAt as n) :
    missing ∉ es.drop as.length ++ as.drop es.length := by
  have hsides {n : Nat} (hes : lineAt es n = missing) (has : lineAt as n = missing)
      (hne : es[n]? ≠ as[n]?) : False := h n hne (hes.trans has.symm)
  rw [List.mem_append, not_or, mem_drop_iff, mem_drop_iff]
  constructor
  · rintro ⟨n, hle, hn⟩
    refine hsides (by rw [lineAt, hn, Option.getD_some]) (lineAt_of_length_le hle) ?_
    rw [hn, List.getElem?_eq_none hle]
    nofun
  · rintro ⟨n, hle, hn⟩
    refine hsides (lineAt_of_length_le hle) (by rw [lineAt, hn, Option.getD_some]) ?_
    rw [hn, List.getElem?_eq_none hle]
    nofun

theorem told_iff {expected actual : List Char} (n : Nat) :
    (∃ d ∈ differences expected actual, d.line = n + 1) ↔
      lineAt (lines expected) n ≠ lineAt (lines actual) n := by
  simp only [mem_differences_iff]
  constructor
  · rintro ⟨d, ⟨m, rfl, hne⟩, hline⟩
    obtain rfl := Nat.succ.inj hline
    exact hne
  · intro hne
    exact ⟨_, ⟨n, rfl, hne⟩, rfl⟩

theorem pinpoints_differences_iff {expected actual : List Char} :
    Pinpoints (lines expected) (lines actual) (differences expected actual) ↔
      plainEnds expected ≠ plainEnds actual ∧
        missing ∉ (lines expected).drop (lines actual).length ++
          (lines actual).drop (lines expected).length := by
  constructor
  · intro h
    refine ⟨fun heq => ?_, missing_not_mem_of_told fun n => (told_iff n).1 ∘ (h.places n).2⟩
    obtain ⟨d, hd⟩ := List.exists_mem_of_ne_nil _ h.told
    obtain ⟨n, -, hne⟩ := mem_differences_iff.1 hd
    rw [lines_eq_iff.2 heq] at hne
    exact hne rfl
  · rintro ⟨hends, hmissing⟩
    have hplaces (n : Nat) := (told_iff n).trans (lineAt_ne_iff_of_told hmissing n)
    refine ⟨?_, increasing_differences expected actual, hplaces, fun d hd => ?_⟩
    · intro hnone
      refine hends (lines_eq_iff.1 (List.ext_getElem? fun n => ?_))
      by_contra hne
      obtain ⟨d, hd, -⟩ := (hplaces n).2 hne
      rw [hnone] at hd
      cases hd
    · obtain ⟨n, hn, -⟩ := mem_differences_iff.1 hd
      exact ⟨n, hn⟩

end Pinpointing

/--
There is a message exactly if the texts are not the same. It tells in order the places whose lines
read differently once `<missing>` stands for a missing line; these are all places where the lines
differ, and at least one, exactly if the texts differ in more than the ends of their lines and no
line that only one of them has reads `<missing>`.
-/
theorem pinpointed_iff (expected actual : String) :
    (mismatch? expected actual = none ↔ expected = actual) ∧
      ∀ message, mismatch? expected actual = some message →
        ∃ ds, (∀ ds', Tells message ds' ↔ ds' = ds) ∧ ds.Pairwise (·.line < ·.line) ∧
          (∀ d, d ∈ ds ↔ ∃ n,
            d = ⟨n + 1, lineAt (lines expected.toList) n, lineAt (lines actual.toList) n⟩ ∧
              lineAt (lines expected.toList) n ≠ lineAt (lines actual.toList) n) ∧
          (Pinpoints (lines expected.toList) (lines actual.toList) ds ↔
            plainEnds expected.toList ≠ plainEnds actual.toList ∧
              missing ∉ (lines expected.toList).drop (lines actual.toList).length ++
                (lines actual.toList).drop (lines expected.toList).length) := by
  constructor
  · unfold mismatch?
    split_ifs with heq <;> simp [heq]
  · intro message h
    have htells := tells_mismatch h
    refine ⟨differences expected.toList actual.toList, ?_, increasing_differences _ _,
      fun d => mem_differences_iff, pinpoints_differences_iff⟩
    intro ds'
    exact ⟨fun h' => h'.eq htells, fun heq => heq ▸ htells⟩

def verseMessage : String :=
  "Content mismatch:\nLine 2:\n  expected: two\n  actual:   2\n" ++
    "Line 3:\n  expected: three\n  actual:   <missing>\n"

theorem verse_pinpointed :
    mismatch? "one\r\ntwo\nthree" "one\n2\n" = some verseMessage ∧
      ∃ ds, Tells verseMessage ds ∧
        Pinpoints (lines "one\r\ntwo\nthree".toList) (lines "one\n2\n".toList) ds := by
  have hmessage : mismatch? "one\r\ntwo\nthree" "one\n2\n" = some verseMessage := by decide
  obtain ⟨-, hmessages⟩ := pinpointed_iff "one\r\ntwo\nthree" "one\n2\n"
  obtain ⟨ds, htells, -, -, hpinpoints⟩ := hmessages _ hmessage
  exact ⟨hmessage, ds, (htells ds).2 rfl, hpinpoints.2 (by decide)⟩

theorem feed_untold :
    mismatch? "one\n" "one" = some "Content mismatch:\n" ∧
      (lines "one\n<missing>".toList)[1]? ≠ (lines "one".toList)[1]? ∧
      mismatch? "one\n<missing>" "one" = some "Content mismatch:\n" ∧
      ∀ ds, Tells "Content mismatch:\n" ds → ds = [] := by
  have htells : Tells "Content mismatch:\n" [] := by
    unfold Tells
    decide
  exact ⟨by decide, by decide, by decide, fun ds h => h.eq htells⟩

end StagedBuilder.Text
