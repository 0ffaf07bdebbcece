import StagedBuilder.Proofs.CommentText
import StagedBuilder.Proofs.LayoutLaws

namespace StagedBuilder

open Text

namespace Text

def outdented (text : String) : List (List Char) := (pieces (· = '\n') text.toList).map trimStart

theorem outdented_ended_append (s t : String) :
    outdented (s ++ "\n" ++ t) = outdented s ++ outdented t := by
  have hsplit : (s ++ "\n" ++ t).toList = s.toList ++ '\n' :: t.toList := by
    simp only [String.toList_append, List.append_assoc]
    rfl
  rw [outdented, hsplit, pieces_eq_splitOnP, List.splitOnP_append_cons _ _ (by decide),
    List.map_append, ← pieces_eq_splitOnP, ← pieces_eq_splitOnP]
  rfl

theorem outdented_spaces_append (n : Nat) (s : String) :
    outdented (.ofList (.replicate n ' ') ++ s) = outdented s := by
  have hspace (cs : List Char) :
      (pieces (· = '\n') (' ' :: cs)).map trimStart = (pieces (· = '\n') cs).map trimStart := by
    obtain ⟨w, ws, hw⟩ : ∃ w ws, pieces (· = '\n') cs = w :: ws := by
      rw [pieces_eq_splitOnP]
      exact List.exists_cons_of_ne_nil (List.splitOnP_ne_nil _ _)
    rw [pieces, hw]
    rfl
  rw [outdented, outdented, String.toList_append, String.toList_ofList]
  induction n with
  | zero => rfl
  | succ n ih => rw [List.replicate_succ, List.cons_append, hspace, ih]

end Text

def Mark.shown : Mark → List String
  | .line text => [text]
  | .blank => [""]
  | .indent => []
  | .dedent => []
  | .close => ["\x7d"]
  | .reopen text => ["\x7d " ++ text]
  | .imports => [Sheet.importsMark]
  | .call head args tail => [head ++ ", ".intercalate args ++ tail]

theorem Mark.inLine_inLine (m : Mark) : m.inLine.inLine = m.inLine := by cases m <;> rfl

theorem Mark.shown_inLine (m : Mark) : m.inLine.shown = m.shown := by cases m <;> rfl

namespace Sheet

variable {depth : Nat} {m : Mark} {marks : List Mark}

theorem exists_laid_eq (depth : Nat) (hm : m.inLine = m) :
    (laid depth [m]).text = "" ∧ m.shown = [] ∨
      ∃ n shown, (laid depth [m]).text = .ofList (.replicate n ' ') ++ shown ++ "\n" ∧
        m.shown = [shown] := by
  have hline (depth : Nat) (text : String) : (line { depth } text).text =
      .ofList (.replicate (depth * step) ' ') ++ text ++ "\n" := by
    rw [← String.empty_append (s := .ofList _)]
    rfl
  cases m with
  | line text => exact .inr ⟨_, _, hline depth text, rfl⟩
  | blank => exact .inr ⟨0, "", rfl, rfl⟩
  | indent => exact .inl ⟨rfl, rfl⟩
  | dedent => exact .inl ⟨rfl, rfl⟩
  | close => exact .inr ⟨_, _, hline (depth - 1) _, rfl⟩
  | reopen text => exact .inr ⟨_, _, hline (depth - 1) _, rfl⟩
  | imports => exact .inr ⟨_, _, hline depth _, rfl⟩
  | call => cases hm

theorem text_laid_append (depth : Nat) (marks more : List Mark) :
    (laid depth (marks ++ more)).text =
      (laid depth marks).text ++ (laid (laid depth marks).depth more).text := by
  rw [laid_append]
  rfl

theorem text_laid_cons (depth : Nat) (m : Mark) (marks : List Mark) :
    (laid depth (m :: marks)).text =
      (laid depth [m]).text ++ (laid (laid depth [m]).depth marks).text :=
  text_laid_append depth [m] marks

theorem outdented_laid (h : ∀ m ∈ marks, m.inLine = m) (depth : Nat) :
    outdented (laid depth marks).text = (marks.flatMap (·.shown)).flatMap outdented ++ [[]] := by
  induction marks generalizing depth with
  | nil => rfl
  | cons m marks ih =>
    obtain ⟨hm, hmarks⟩ := List.forall_mem_cons.1 h
    rw [text_laid_cons, List.flatMap_cons]
    rcases exists_laid_eq depth hm with ⟨htext, hshown⟩ | ⟨n, shown, htext, hshown⟩
    · rw [htext, hshown, String.empty_append, ih hmarks, List.nil_append]
    · rw [htext, hshown, outdented_ended_append, outdented_spaces_append, ih hmarks,
        List.singleton_append, List.flatMap_cons, List.append_assoc]

theorem squeeze_laid_of_inLine (h : ∀ m ∈ marks, m.inLine = m) (depth : Nat) :
    squeeze (laid depth marks).text.toList =
      (marks.flatMap (·.shown)).flatMap (squeeze ·.toList) := by
  induction marks generalizing depth with
  | nil => rfl
  | cons m marks ih =>
    obtain ⟨hm, hmarks⟩ := List.forall_mem_cons.1 h
    rw [text_laid_cons, List.flatMap_cons]
    rcases exists_laid_eq depth hm with ⟨htext, hshown⟩ | ⟨n, shown, htext, hshown⟩
    · rw [htext, hshown, String.empty_append, ih hmarks, List.nil_append]
    · have hend : squeeze "\n".toList = [] := by decide
      rw [htext, hshown, List.singleton_append, List.flatMap_cons,
        ← ih hmarks (laid depth [m]).depth]
      simp only [String.toList_append, squeeze_append, String.toList_ofList,
        squeeze_of_blank (blank_spaces n), hend, List.nil_append, List.append_nil]

theorem squeeze_laid (h : ∀ m ∈ marks, m.Flows) (depth : Nat) :
    squeeze (laid depth marks).text.toList =
      (marks.flatMap (·.shown)).flatMap (squeeze ·.toList) := by
  have hunbroken : ∀ m ∈ marks.map Mark.inLine, m.inLine = m :=
    List.forall_mem_map.2 fun m _ => m.inLine_inLine
  have hshown : (marks.map Mark.inLine).flatMap (·.shown) = marks.flatMap (·.shown) := by
    rw [List.flatMap_map]
    exact congrArg (List.flatMap · marks) (funext Mark.shown_inLine)
  have halike : (laid depth marks).Alike (laid depth (marks.map Mark.inLine)) :=
    Alike.putAll ⟨rfl, rfl⟩ h
  rw [halike.text, squeeze_laid_of_inLine hunbroken, hshown]

end Sheet

namespace Java

variable {names : Names} {lead : String} {cs : List String}

theorem squeeze_conjunctionLines (hcs : cs ≠ []) :
    ((conjunctionLines lead cs).flatMap (·.shown)).flatMap (squeeze ·.toList) =
      squeeze (lead ++ " && ".intercalate cs ++ ";").toList := by
  fun_induction conjunctionLines lead cs with
  | case1 => exact absurd rfl hcs
  | case2 lead c => simp [Mark.shown]
  | case3 lead c cs hmore ih =>
    obtain ⟨d, ds, rfl⟩ := List.exists_cons_of_ne_nil hmore
    have hand : squeeze "&& ".toList = squeeze " && ".toList := by decide
    have hline : (Mark.line (lead ++ c)).shown = [lead ++ c] := rfl
    rw [List.flatMap_cons, hline, List.singleton_append, List.flatMap_cons,
      ih (List.cons_ne_nil _ _), String.intercalate_cons_cons]
    simp only [String.toList_append, squeeze_append, hand, List.append_assoc]

theorem inLine_conjunctionLines : ∀ m ∈ conjunctionLines lead cs, m.inLine = m := by
  fun_induction conjunctionLines lead cs with
  | case1 => exact fun _ hm => nomatch hm
  | case2 lead c => exact List.forall_mem_singleton.2 rfl
  | case3 lead c cs hmore ih => exact List.forall_mem_cons.2 ⟨rfl, ih⟩

theorem Step.squeeze_retAll {conditions : List Expr} (hconditions : conditions ≠ []) (depth : Nat) :
    squeeze (Sheet.laid depth ((Step.retAll conditions).marks names)).text.toList =
      squeeze ("return " ++ " && ".intercalate (Expr.texts names conditions) ++ ";").toList := by
  have hreturn : squeeze "return".toList = squeeze "return ".toList := by decide
  obtain ⟨c, cs, rfl⟩ := List.exists_cons_of_ne_nil hconditions
  cases cs with
  | nil =>
    have hmarks : (Step.retAll [c]).marks names = [.line ("return " ++ c.text names ++ ";")] := rfl
    rw [hmarks, Sheet.squeeze_laid_of_inLine (List.forall_mem_singleton.2 rfl)]
    simp [Mark.shown, Expr.texts]
  | cons d ds =>
    let lines := conjunctionLines "" (Expr.texts names (c :: d :: ds))
    let marks : List Mark := [.line "return", .indent, .indent] ++ lines ++ [.dedent, .dedent]
    have hmarks : (Step.retAll (c :: d :: ds)).marks names = marks := rfl
    have hwhole : ∀ m ∈ marks, m.inLine = m := by
      rw [List.forall_mem_append, List.forall_mem_append]
      exact ⟨⟨by decide, inLine_conjunctionLines⟩, by decide⟩
    have hshown : marks.flatMap (·.shown) = "return" :: lines.flatMap (·.shown) := by
      rw [List.flatMap_append, List.flatMap_append]
      exact List.append_nil _
    have hlines : (lines.flatMap (·.shown)).flatMap (squeeze ·.toList) =
        squeeze ("" ++ " && ".intercalate (Expr.texts names (c :: d :: ds)) ++ ";").toList :=
      squeeze_conjunctionLines (List.cons_ne_nil _ _)
    rw [hmarks, Sheet.squeeze_laid_of_inLine hwhole, hshown, List.flatMap_cons, hlines, hreturn,
      String.empty_append]
    simp only [String.toList_append, squeeze_append, List.append_assoc]

end Java

end StagedBuilder
