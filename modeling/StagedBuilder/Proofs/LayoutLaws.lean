import StagedBuilder.Proofs.BlankLaws
import StagedBuilder.Proofs.StageLaws

namespace StagedBuilder

open Text

namespace Sheet

def Adds (s : Sheet) (text : String) (after : Sheet) : Prop :=
  ∃ added : String, after.text = s.text ++ added ∧ squeeze added.toList = squeeze text.toList

def opened (text : String) : Nat := if text.toList.getLast? = some '\x7b' then 1 else 0

section Lines

variable {s after last : Sheet} {text text' head tail : String} {args : List String}

theorem adds_of_text_eq (h : after.text = s.text) : s.Adds "" after :=
  ⟨"", by rw [h, String.append_empty], rfl⟩

theorem Adds.trans (h : s.Adds text after) (h' : after.Adds text' last) :
    s.Adds (text ++ text') last := by
  obtain ⟨added, hafter, hadded⟩ := h
  obtain ⟨added', hlast, hadded'⟩ := h'
  refine ⟨added ++ added', ?_, ?_⟩
  · rw [hlast, hafter, String.append_assoc]
  · simp only [String.toList_append, squeeze_append, hadded, hadded']

theorem Adds.of_squeeze_eq (h : s.Adds text after)
    (heq : squeeze text.toList = squeeze text'.toList) : s.Adds text' after := by
  obtain ⟨added, hafter, hadded⟩ := h
  exact ⟨added, hafter, hadded.trans heq⟩

theorem Adds.squeeze_eq (h : s.Adds text after) (h' : s.Adds text' after) :
    squeeze text.toList = squeeze text'.toList := by
  obtain ⟨added, hafter, hadded⟩ := h
  obtain ⟨added', hafter', hadded'⟩ := h'
  rw [hafter, String.append_right_inj] at hafter'
  rw [← hadded, ← hadded', hafter']

theorem adds_line (text : String) : s.Adds text (s.line text) := by
  have hblank (n : Nat) : squeeze (List.replicate n ' ') = [] :=
    squeeze_of_blank fun c hc => List.eq_of_mem_replicate hc ▸ by decide
  have hend : squeeze "\n".toList = [] := by decide
  refine ⟨.ofList (.replicate s.column ' ') ++ text ++ "\n", ?_, ?_⟩
  · simp only [line, String.append_assoc]
  · simp only [String.toList_append, String.toList_ofList, squeeze_append, hblank, hend,
      List.nil_append, List.append_nil]

theorem depth_line (text : String) : (s.line text).depth = s.depth + opened text := by
  unfold line opened
  dsimp only
  split_ifs <;> rfl

theorem opened_append (text : String) (h : tail ≠ "") : opened (text ++ tail) = opened tail := by
  have hnil : tail.toList ≠ [] := mt String.toList_eq_nil_iff.1 h
  rw [opened, opened, String.toList_append, List.getLast?_append,
    List.getLast?_eq_some_getLast hnil, Option.some_or]

theorem opened_of_blank (h : Blank text.toList) : opened text = 0 := by
  rw [opened, if_neg]
  intro hbrace
  exact h.not_mem (by decide) (List.mem_of_getLast? hbrace)

theorem argumentLines_cons_cons (a b : String) (as : List String) :
    s.argumentLines tail (a :: b :: as) = (s.line (a ++ ",")).argumentLines tail (b :: as) := rfl

theorem adds_argumentLines (hargs : args ≠ []) :
    s.Adds (",".intercalate args ++ tail) (s.argumentLines tail args) := by
  induction args generalizing s with
  | nil => exact absurd rfl hargs
  | cons a as ih =>
    cases as with
    | nil => exact adds_line (a ++ tail)
    | cons b bs =>
      have hrest := ih (s := s.line (a ++ ",")) (List.cons_ne_nil _ _)
      rw [argumentLines_cons_cons, String.intercalate_cons_cons, String.append_assoc]
      exact (adds_line (a ++ ",")).trans hrest

theorem depth_argumentLines (hargs : args ≠ []) (htail : tail ≠ "") :
    (s.argumentLines tail args).depth = s.depth + opened tail := by
  induction args generalizing s with
  | nil => exact absurd rfl hargs
  | cons a as ih =>
    cases as with
    | nil => exact (depth_line _).trans (by rw [opened_append _ htail])
    | cons b bs =>
      have hcomma : opened (a ++ ",") = 0 := opened_append a (by decide)
      rw [argumentLines_cons_cons, ih (List.cons_ne_nil _ _), depth_line, hcomma, Nat.add_zero]

end Lines

section Calls

variable {s : Sheet} {head tail : String} {args : List String}

structure Completes (s : Sheet) (head : String) (args : List String) (tail : String)
    (after : Sheet) : Prop where
  text : s.Adds (head ++ ",".intercalate args ++ tail) after
  depth : after.depth = s.depth + opened tail

/-- The call does not fit its line, and there is no argument for its end to follow. -/
def LosesTail (s : Sheet) (head : String) (args : List String) (tail : String) : Prop :=
  args = [] ∧ maxInlineWidth < s.column + (head ++ tail).utf8ByteSize

theorem call_of_losesTail (h : s.LosesTail head args tail) :
    s.call head args tail = s.line head := by
  obtain ⟨rfl, hwide⟩ := h
  have hbroken : ¬(([] : List String).length ≤ maxInlineArgs ∧
      s.column + (head ++ ", ".intercalate [] ++ tail).utf8ByteSize ≤ maxInlineWidth) := by
    rw [String.intercalate_nil, String.append_empty]
    omega
  rw [call, if_neg hbroken]
  rfl

theorem completes_line (htail : tail ≠ "") :
    s.Completes head args tail (s.line (head ++ ", ".intercalate args ++ tail)) := by
  have hcommas : squeeze ", ".toList = squeeze ",".toList := by decide
  constructor
  · apply (adds_line _).of_squeeze_eq
    simp only [String.toList_append, squeeze_append, String.toList_intercalate,
      squeeze_intercalate, hcommas]
  · rw [depth_line, opened_append _ htail]

theorem completes_lines (hhead : opened head = 0) (htail : tail ≠ "") (hargs : args ≠ []) :
    s.Completes head args tail
      ((s.line head).indent.indent.argumentLines tail args).dedent.dedent := by
  have hlines : (s.line head).indent.indent.Adds (",".intercalate args ++ tail)
      ((s.line head).indent.indent.argumentLines tail args) := adds_argumentLines hargs
  constructor
  · rw [String.append_assoc]
    exact (adds_line head).trans hlines
  · have hdepth := depth_argumentLines (s := (s.line head).indent.indent) hargs htail
    have hline := depth_line (s := s) head
    simp only [indent, dedent] at hdepth ⊢
    omega

theorem completes_call (hhead : opened head = 0) (htail : tail ≠ "")
    (h : ¬ s.LosesTail head args tail) : s.Completes head args tail (s.call head args tail) := by
  unfold call
  dsimp only
  split_ifs with hfits
  · exact completes_line htail
  · apply completes_lines hhead htail
    rintro rfl
    apply hfits
    refine ⟨Nat.zero_le _, Nat.le_of_not_lt ?_⟩
    intro hwide
    rw [String.intercalate_nil, String.append_empty] at hwide
    exact h ⟨rfl, hwide⟩

theorem completes_line_head_iff (hhead : opened head = 0) :
    s.Completes head [] tail (s.line head) ↔ Blank tail.toList := by
  constructor
  · intro h
    have hlost := (adds_line head).squeeze_eq h.text
    rw [String.intercalate_nil, String.append_empty, String.toList_append, squeeze_append,
      List.self_eq_append_right] at hlost
    exact squeeze_eq_nil_iff.1 hlost
  · intro hblank
    constructor
    · apply (adds_line head).of_squeeze_eq
      rw [String.intercalate_nil, String.append_empty, String.toList_append, squeeze_append,
        squeeze_of_blank hblank, List.append_nil]
    · rw [depth_line, hhead, opened_of_blank hblank]

end Calls

structure Alike (s t : Sheet) : Prop where
  text : squeeze s.text.toList = squeeze t.text.toList
  depth : s.depth = t.depth

theorem Alike.adds {s t s' t' : Sheet} {text text' : String} (h : s.Alike t) (hs : s.Adds text s')
    (ht : t.Adds text' t') (htext : squeeze text.toList = squeeze text'.toList)
    (hdepth : s'.depth = t'.depth) : s'.Alike t' := by
  obtain ⟨added, hs', hadded⟩ := hs
  obtain ⟨added', ht', hadded'⟩ := ht
  constructor
  · rw [hs', ht', String.toList_append, String.toList_append, squeeze_append, squeeze_append,
      h.text, hadded, hadded', htext]
  · exact hdepth

theorem Alike.line {s t : Sheet} (h : s.Alike t) (text : String) :
    (s.line text).Alike (t.line text) := by
  apply h.adds (adds_line text) (adds_line text) rfl
  rw [depth_line, depth_line, h.depth]

theorem Alike.of_text_eq {s t s' t' : Sheet} (h : s.Alike t) (hs : s'.text = s.text)
    (ht : t'.text = t.text) (hdepth : s'.depth = t'.depth) : s'.Alike t' :=
  h.adds (adds_of_text_eq hs) (adds_of_text_eq ht) rfl hdepth

theorem Alike.dedent {s t : Sheet} (h : s.Alike t) : s.dedent.Alike t.dedent :=
  h.of_text_eq rfl rfl (congrArg (· - 1) h.depth)

end Sheet

namespace Mark

def inLine : Mark → Mark
  | .call head args tail => .line (head ++ ", ".intercalate args ++ tail)
  | mark => mark

/-- A call that has arguments and an end, and whose beginning is not the end of a block. -/
def Flows : Mark → Prop
  | .call head args tail => head.toList.getLast? = some '(' ∧ args ≠ [] ∧ tail ≠ ""
  | _ => True

end Mark

namespace Sheet

theorem opened_of_getLast? {head : String} (h : head.toList.getLast? = some '(') :
    opened head = 0 := by
  rw [opened, h]
  rfl

theorem Alike.put {s t : Sheet} {m : Mark} (h : s.Alike t) (hm : m.Flows) :
    (s.put m).Alike (t.put m.inLine) := by
  cases m with
  | line text => exact h.line text
  | blank =>
    have hblank (s : Sheet) : s.Adds "" s.blank := ⟨"\n", rfl, by decide⟩
    exact h.adds (hblank s) (hblank t) rfl h.depth
  | indent => exact h.of_text_eq rfl rfl (congrArg (· + 1) h.depth)
  | dedent => exact h.dedent
  | close => exact h.dedent.line _
  | reopen text => exact h.dedent.line _
  | imports => exact h.line importsMark
  | call head args tail =>
    obtain ⟨hhead, hargs, htail⟩ := hm
    have hcall : s.Completes head args tail (s.call head args tail) :=
      completes_call (opened_of_getLast? hhead) htail fun hlost => hargs hlost.1
    have hline : t.Completes head args tail (t.line (head ++ ", ".intercalate args ++ tail)) :=
      completes_line htail
    apply h.adds hcall.text hline.text rfl
    rw [hcall.depth, hline.depth, h.depth]

theorem Alike.putAll {s t : Sheet} {marks : List Mark} (h : s.Alike t)
    (hmarks : ∀ m ∈ marks, m.Flows) :
    (s.putAll marks).Alike (t.putAll (marks.map Mark.inLine)) := by
  induction marks generalizing s t with
  | nil => exact h
  | cons m marks ih =>
    rw [List.forall_mem_cons] at hmarks
    exact ih (h.put hmarks.1) hmarks.2

/--
A call is written whole unless it has no arguments and does not fit its line; then it is the line of
its beginning that is written. So sheets on which all calls have arguments are the same up to
blanks, and as deep, whether or not their calls are broken into lines.
-/
theorem calls_in_either_layout (s : Sheet) {head tail : String} (args : List String)
    (hlast : head.toList.getLast? = some '(') (htail : tail ≠ "") :
    (s.Completes head args tail (s.call head args tail) ↔
      ¬ s.LosesTail head args tail ∨ Blank tail.toList) ∧
    (s.LosesTail head args tail → s.call head args tail = s.line head) ∧
    ∀ marks : List Mark, (∀ m ∈ marks, m.Flows) →
      (s.putAll marks).Alike (s.putAll (marks.map Mark.inLine)) := by
  have hhead : opened head = 0 := opened_of_getLast? hlast
  refine ⟨?_, call_of_losesTail, fun marks hmarks => Alike.putAll ⟨rfl, rfl⟩ hmarks⟩
  by_cases hlost : s.LosesTail head args tail
  · rw [call_of_losesTail hlost, hlost.1, completes_line_head_iff hhead]
    simp only [hlost.1 ▸ hlost, not_true, false_or]
  · exact iff_of_true (completes_call hhead htail hlost) (.inl hlost)

theorem crate_call_whole :
    "private CrateImpl(".toList.getLast? = some '(' ∧ ") \x7b" ≠ "" ∧
      (⟨1, ""⟩ : Sheet).Completes "private CrateImpl(" ["int w", "int h", "int d", "String label"]
        ") \x7b" ⟨2, "    private CrateImpl(\n            int w,\n            int h,\n" ++
          "            int d,\n            String label) \x7b\n"⟩ := by
  have hlast : "private CrateImpl(".toList.getLast? = some '(' := by decide
  have htail : ") \x7b" ≠ "" := by decide
  obtain ⟨hwhole, -⟩ := calls_in_either_layout ⟨1, ""⟩
    ["int w", "int h", "int d", "String label"] hlast htail
  exact ⟨hlast, htail, hwhole.2 (.inl fun hlost => nomatch hlost.1)⟩

end Sheet

namespace Builder

def hall : Builder where
  target := "me.HallNamedAfterAllWhoBuiltItInTheOrderInWhichTheyCameToBuildIt"
  name := "me.builder.HallBuilder"
  params := []
  construction := .direct
  copy := false

def hallCall : String := "return new " ++ ClassName.simple hall.target ++ "("

theorem hall_call_cut :
    (¬ ∀ (s : Sheet) (head : String) (args : List String) (tail : String),
      head.toList.getLast? = some '(' → tail ≠ "" →
        s.Completes head args tail (s.call head args tail)) ∧
    hall.source {} = .ok ((hall.unit {}).text hall.ownNames) ∧
    hall.buildMethod {} true ∈ (hall.unit {}).methods ∧
    (hall.construct {}).marks ((hall.unit {}).imports hall.ownNames).display =
      [.call hallCall [] ");"] ∧
    ∀ text, (⟨2, text⟩ : Sheet).call hallCall [] ");" = (⟨2, text⟩ : Sheet).line hallCall := by
  have hlast : hallCall.toList.getLast? = some '(' := by decide
  have hwide : Sheet.maxInlineWidth < 2 * Sheet.step + (hallCall ++ ");").utf8ByteSize := by decide
  have hlost (text : String) : (⟨2, text⟩ : Sheet).LosesTail hallCall [] ");" := ⟨rfl, hwide⟩
  have hline (text : String) :
      (⟨2, text⟩ : Sheet).call hallCall [] ");" = (⟨2, text⟩ : Sheet).line hallCall :=
    Sheet.call_of_losesTail (hlost text)
  have hname : ((hall.unit {}).imports hall.ownNames).display hall.target =
      ClassName.simple hall.target := by decide +kernel
  refine ⟨?_, rfl, ?_, ?_, hline⟩
  · intro h
    have hcall := h ⟨2, ""⟩ hallCall [] ");" hlast (by decide)
    rw [hline, Sheet.completes_line_head_iff (Sheet.opened_of_getLast? hlast)] at hcall
    exact absurd hcall (by decide)
  · rw [methods_flat rfl, flatMethods]
    simp
  · rw [hallCall, ← hname]
    rfl

end Builder

end StagedBuilder
