import StagedBuilder.Java.Layout
import StagedBuilder.Proofs.FaultLaws

/-!
A file as stretches of code and of documentation. What a stretch looks like depends on what is
before it by the depth of the indentation alone, and the imports are put into the first of them.
-/

namespace StagedBuilder

open Text

namespace Text

variable {pat s before after : List Char}

theorem cut?_append (h : cut? pat s = some (before, after)) (t : List Char) :
    cut? pat (s ++ t) = some (before, after ++ t) := by
  induction s generalizing before with
  | nil =>
    rw [cut?] at h
    split_ifs at h with hpat
    obtain ⟨rfl, rfl⟩ := Prod.mk.inj (Option.some.inj h)
    subst hpat
    cases t <;> rfl
  | cons c s ih =>
    have htext := eq_of_cut? h
    rw [cut?] at h
    rw [List.cons_append, cut?]
    split_ifs at h with hhere
    · have hhead : pat <+: c :: s := List.isPrefixOf_iff_prefix.1 hhere
      obtain ⟨rfl, rfl⟩ := Prod.mk.inj (Option.some.inj h)
      have hlater : pat.isPrefixOf (c :: (s ++ t)) = true :=
        List.isPrefixOf_iff_prefix.2 (hhead.trans (List.prefix_append (c :: s) t))
      rw [if_pos hlater, ← List.cons_append, List.drop_append_of_le_length hhead.length_le]
    · obtain ⟨⟨front, rest⟩, hcut, heq⟩ := Option.map_eq_some_iff.1 h
      obtain ⟨rfl, rfl⟩ := Prod.mk.inj heq
      have hlength : pat.length ≤ (c :: s).length := by
        rw [htext]
        simp only [List.length_append]
        omega
      -- what is found further on fits in front of `t`, so it does not begin here and reach into it
      have hlater : ¬ pat.isPrefixOf (c :: (s ++ t)) = true := by
        intro hprefix
        apply hhere
        rw [List.isPrefixOf_iff_prefix] at hprefix ⊢
        exact List.prefix_of_prefix_length_le hprefix (List.prefix_append (c :: s) t) hlength
      rw [if_neg hlater, ih hcut]
      rfl

theorem replaceFirst_append (h : pat <:+: s) (new t : List Char) :
    replaceFirst pat new (s ++ t) = replaceFirst pat new s ++ t := by
  obtain ⟨⟨before, after⟩, hcut⟩ : ∃ sides, cut? pat s = some sides := by
    rw [← Option.ne_none_iff_exists']
    exact fun hnone => cut?_eq_none_iff.1 hnone h
  rw [replaceFirst, replaceFirst, hcut, cut?_append hcut]
  simp only [List.append_assoc]

end Text

namespace Sheet

def under (above : String) (s : Sheet) : Sheet := { s with text := above ++ s.text }

section Under

variable (above : String) (s : Sheet)

theorem line_under (text : String) : (s.under above).line text = (s.line text).under above := by
  simp only [line, under, column, String.append_assoc]

theorem argumentLines_under (tail : String) (args : List String) :
    (s.under above).argumentLines tail args = (s.argumentLines tail args).under above := by
  fun_induction argumentLines s tail args with
  | case1 => rfl
  | case2 s a => exact line_under above s (a ++ tail)
  | case3 s a as hmore ih =>
    obtain ⟨b, bs, rfl⟩ := List.exists_cons_of_ne_nil hmore
    rw [← ih, ← line_under]
    rfl

theorem put_under (m : Mark) : (s.under above).put m = (s.put m).under above := by
  cases m with
  | line text => exact line_under above s text
  | blank => simp only [put, blank, under, String.append_assoc]
  | indent => rfl
  | dedent => rfl
  | close => exact line_under above s.dedent _
  | reopen text => exact line_under above s.dedent _
  | imports => exact line_under above s _
  | call head args tail =>
    have hcolumn : (s.under above).column = s.column := rfl
    have hlines :
        (((s.under above).line head).indent.indent.argumentLines tail args).dedent.dedent =
          (((s.line head).indent.indent.argumentLines tail args).dedent.dedent).under above := by
      rw [line_under]
      exact congrArg (·.dedent.dedent)
        (argumentLines_under above (s.line head).indent.indent tail args)
    unfold put call
    dsimp only
    rw [hcolumn, hlines, line_under]
    split_ifs
    · rfl
    · rfl

theorem putAll_under (marks : List Mark) :
    (s.under above).putAll marks = (s.putAll marks).under above := by
  induction marks generalizing s with
  | nil => rfl
  | cons m marks ih =>
    calc
      ((s.under above).put m).putAll marks = ((s.put m).under above).putAll marks := by
        rw [put_under]
      _ = ((s.put m).putAll marks).under above := ih (s.put m)

end Under

theorem eq_under (s : Sheet) : s = under s.text { depth := s.depth } := by
  rw [under, String.append_empty]

def laid (depth : Nat) (marks : List Mark) : Sheet := putAll { depth } marks

theorem laid_append (depth : Nat) (marks more : List Mark) :
    laid depth (marks ++ more) =
      (laid (laid depth marks).depth more).under (laid depth marks).text := by
  calc
    laid depth (marks ++ more) = (laid depth marks).putAll more := List.foldl_append
    _ = (laid (laid depth marks).depth more).under (laid depth marks).text := by
      conv_lhs => rw [eq_under (laid depth marks), putAll_under]
      rfl

theorem finish_under {front : Sheet} (h : (importsMark ++ "\n").toList <:+: front.text.toList)
    (rest : Sheet) (i : Imports) :
    (rest.under front.text).finish i = front.finish i ++ rest.text := by
  have htext : (rest.under front.text).text.toList = front.text.toList ++ rest.text.toList :=
    String.toList_append
  unfold finish
  dsimp only
  rw [htext, replaceFirst_append h, String.ofList_append, String.ofList_toList]

theorem imports_infix_laid (depth : Nat) (before after : List Mark) :
    (importsMark ++ "\n").toList <:+: (laid depth (before ++ .imports :: after)).text.toList := by
  let s := laid depth before
  have hmark : (laid s.depth [.imports]).text =
      .ofList (.replicate (column { depth := s.depth }) ' ') ++ (importsMark ++ "\n") := by
    rw [← String.append_assoc]
    rfl
  rw [← List.singleton_append, laid_append, laid_append]
  refine ⟨(s.text ++ .ofList (.replicate (column { depth := s.depth }) ' ')).toList,
    (laid (laid s.depth [.imports]).depth after).text.toList, ?_⟩
  rw [under, under, hmark]
  simp only [String.toList_append, List.append_assoc]
  rfl

end Sheet

namespace Java

/-- Documentation, or the code between it. -/
inductive Passage
  | code (marks : List Mark)
  | doc (doc : Doc)

/-- A part of the text of a file, and the documentation that it shows. -/
structure Stretch where
  doc : Option Doc
  text : String

namespace Passage

def doc? : Passage → Option Doc
  | .code _ => none
  | .doc d => d

def marks : Passage → List Mark
  | .code marks => marks
  | .doc d => d.marks

@[simp] theorem marks_code (marks : List Mark) : (code marks).marks = marks := rfl

@[simp] theorem marks_doc (d : Doc) : (Passage.doc d).marks = d.marks := rfl

def stretches (depth : Nat) : List Passage → List Stretch
  | [] => []
  | p :: ps =>
    ⟨p.doc?, (Sheet.laid depth p.marks).text⟩ :: stretches (Sheet.laid depth p.marks).depth ps

theorem join_stretches (depth : Nat) (ps : List Passage) :
    String.join ((stretches depth ps).map (·.text)) =
      (Sheet.laid depth (ps.flatMap (·.marks))).text := by
  induction ps generalizing depth with
  | nil => rfl
  | cons p ps ih =>
    rw [stretches, List.map_cons, String.join_cons, ih, List.flatMap_cons, Sheet.laid_append]
    rfl

theorem stretches_append (depth : Nat) (ps qs : List Passage) :
    stretches depth (ps ++ qs) =
      stretches depth ps ++ stretches (Sheet.laid depth (ps.flatMap (·.marks))).depth qs := by
  induction ps generalizing depth with
  | nil => rfl
  | cons p ps ih =>
    rw [List.cons_append, stretches, ih, stretches, List.flatMap_cons, Sheet.laid_append]
    rfl

theorem exists_stretches_within {ps qs : List Passage} (h : ps <:+: qs) (depth : Nat) :
    ∃ within, stretches within ps <:+: stretches depth qs := by
  obtain ⟨above, below, rfl⟩ := h
  rw [List.append_assoc, stretches_append, stretches_append]
  exact ⟨_, _, _, List.append_assoc _ _ _⟩

theorem of_mem_stretches {depth : Nat} {ps : List Passage} {x : Stretch} {d : Doc}
    (hx : x ∈ stretches depth ps) (hd : x.doc = some d) :
    .doc d ∈ ps ∧ ∃ depth, x.text = (Sheet.laid depth d.marks).text := by
  induction ps generalizing depth with
  | nil => cases hx
  | cons p ps ih =>
    rw [stretches, List.mem_cons] at hx
    rcases hx with rfl | hx
    · cases p with
      | code => cases hd
      | doc =>
        obtain rfl := Option.some.inj hd
        exact ⟨List.mem_cons_self, depth, rfl⟩
    · obtain ⟨hmem, hdepth⟩ := ih hx
      exact ⟨List.mem_cons_of_mem _ hmem, hdepth⟩

end Passage

namespace Method

def code (names : Names) (m : Method) : List Mark :=
  let formals := m.formals.map (·.text names)
  let header :=
    if m.flowing then .call (m.head names) formals ") \x7b"
    else .line (m.head names ++ ", ".intercalate formals ++ ") \x7b")
  m.markers.map (fun r => .line ("@" ++ names r)) ++
    header :: m.body.flatMap (·.marks names) ++ [.close]

def passages (names : Names) (m : Method) : List Passage :=
  .code [.blank] :: (m.doc.map .doc).toList ++ [.code (m.code names)]

theorem marks_passages (names : Names) (m : Method) :
    (m.passages names).flatMap (·.marks) = m.marks names := by
  cases hdoc : m.doc <;> simp [passages, marks, code, hdoc]

theorem doc_mem_passages {names : Names} {m : Method} {d : Doc} :
    .doc d ∈ m.passages names ↔ m.doc = some d := by
  simp [passages]

theorem documented_within {names : Names} {m : Method} {d : Doc} (hd : m.doc = some d) :
    [.doc d, .code (m.code names)] <:+: m.passages names := by
  refine ⟨[.code [.blank]], [], ?_⟩
  rw [passages, hd]
  rfl

end Method

def NestedClass.passages (names : Names) (c : NestedClass) : List Passage :=
  .code (.blank :: .line ("public static final class " ++ c.name ++ " \x7b") ::
    fieldMarks names c.fields) :: c.methods.flatMap (·.passages names) ++ [.code [.close]]

theorem NestedClass.doc_mem_passages {names : Names} {c : NestedClass} {d : Doc} :
    .doc d ∈ c.passages names ↔ ∃ m ∈ c.methods, m.doc = some d := by
  simp [passages, Method.doc_mem_passages]

def Member.passages (names : Names) : Member → List Passage
  | .method m => m.passages names
  | .nested c => c.passages names

theorem Member.marks_passages (names : Names) (m : Member) :
    (m.passages names).flatMap (·.marks) = m.marks names := by
  cases m with
  | method m => exact m.marks_passages names
  | nested c =>
    simp [passages, NestedClass.passages, marks, NestedClass.marks, List.flatMap_assoc,
      Method.marks_passages]

theorem Member.passages_within_nested {names : Names} {c : NestedClass} {m : Method}
    (hm : m ∈ c.methods) : m.passages names <:+: (Member.nested c).passages names := by
  have hmethod : m.passages names <:+: c.methods.flatMap (·.passages names) :=
    List.infix_of_mem_flatten (List.mem_map_of_mem hm)
  exact hmethod.trans ⟨[_], _, rfl⟩

namespace SourceUnit

def front (names : Names) (u : SourceUnit) : List Mark :=
  .line "// GENERATED FILE - DO NOT EDIT" ::
    (if u.package = "" then [] else [.line ("package " ++ u.package ++ ";")]) ++
    .imports :: [.blank,
      .line ("@" ++ names u.marker ++ "(\"" ++ u.origin ++ "\")"),
      .line ("public final class " ++ u.name ++
        ((u.interface.map fun r => " implements " ++ names r).getD "") ++ " \x7b")] ++
    ((u.fields.map (fieldMarks names)).getD [])

def later (names : Names) (u : SourceUnit) : List Passage :=
  u.members.flatMap (·.passages names) ++ [.code [.close]]

def stretches (u : SourceUnit) (start : Imports) : List Stretch :=
  let imports := u.imports start
  let front := Sheet.laid 0 (u.front imports.display)
  ⟨none, front.finish imports⟩ :: Passage.stretches front.depth (u.later imports.display)

variable {u : SourceUnit} {names : Names} {d : Doc}

theorem marks_eq (names : Names) (u : SourceUnit) :
    u.marks names = u.front names ++ (u.later names).flatMap (·.marks) := by
  simp [marks, front, later, List.flatMap_assoc, Member.marks_passages]

theorem text_eq_join (u : SourceUnit) (start : Imports) :
    u.text start = String.join ((u.stretches start).map (·.text)) := by
  have hfront (names : Names) :
      (Sheet.importsMark ++ "\n").toList <:+: (Sheet.laid 0 (u.front names)).text.toList := by
    rw [front, List.append_assoc]
    exact Sheet.imports_infix_laid 0 (.line "// GENERATED FILE - DO NOT EDIT" :: _) _
  rw [stretches, List.map_cons, String.join_cons, Passage.join_stretches,
    ← Sheet.finish_under (hfront _), ← Sheet.laid_append, ← marks_eq]
  rfl

theorem exists_of_doc_mem (h : .doc d ∈ u.later names) :
    ∃ m ∈ u.methods ++ u.nestedClasses.flatMap (·.methods), m.doc = some d := by
  rw [later, List.mem_append, List.mem_flatMap] at h
  rcases h with ⟨member, hmember, hdoc⟩ | h
  · cases member with
    | method m =>
      have hm : m ∈ u.methods := List.mem_filterMap.2 ⟨_, hmember, rfl⟩
      exact ⟨m, List.mem_append_left _ hm, Method.doc_mem_passages.1 hdoc⟩
    | nested c =>
      have hc : c ∈ u.nestedClasses := List.mem_filterMap.2 ⟨_, hmember, rfl⟩
      obtain ⟨m, hm, hdoc⟩ := NestedClass.doc_mem_passages.1 hdoc
      have hnested := List.mem_flatMap.2 ⟨c, hc, hm⟩
      exact ⟨m, List.mem_append_right _ hnested, hdoc⟩
  · cases List.mem_singleton.1 h

/-- The documentation stands right before the code of the method. -/
def Documents (u : SourceUnit) (start : Imports) (m : Method) (d : Doc) : Prop :=
  ∃ x y, [x, y] <:+: u.stretches start ∧ x.doc = some d ∧ y.doc = none ∧
    ∃ depth, y.text = (Sheet.laid depth (m.code (u.imports start).display)).text

theorem passages_within {m : Method}
    (hm : m ∈ u.methods ++ u.nestedClasses.flatMap (·.methods)) :
    m.passages names <:+: u.later names := by
  have hmember {member : Member} (hmem : member ∈ u.members) :
      member.passages names <:+: u.later names :=
    (List.infix_of_mem_flatten (List.mem_map_of_mem hmem)).trans (List.prefix_append _ _).isInfix
  rw [List.mem_append, List.mem_flatMap] at hm
  rcases hm with hm | ⟨c, hc, hm⟩
  · obtain ⟨member, hmem, heq⟩ := List.mem_filterMap.1 hm
    cases member with
    | method m' => exact Option.some.inj heq ▸ hmember hmem
    | nested c => cases heq
  · obtain ⟨member, hmem, heq⟩ := List.mem_filterMap.1 hc
    cases member with
    | method m => cases heq
    | nested c' =>
      obtain rfl := Option.some.inj heq
      exact (Member.passages_within_nested hm).trans (hmember hmem)

theorem documents {m : Method} (hm : m ∈ u.methods ++ u.nestedClasses.flatMap (·.methods))
    (hd : m.doc = some d) (start : Imports) : u.Documents start m d := by
  let names := (u.imports start).display
  have hpassages : [.doc d, .code (m.code names)] <:+: u.later names :=
    (Method.documented_within hd).trans (passages_within hm)
  obtain ⟨depth, hwithin⟩ :=
    Passage.exists_stretches_within hpassages (Sheet.laid 0 (u.front names)).depth
  exact ⟨_, _, hwithin.trans (List.suffix_cons _ _).isInfix, rfl, rfl, _, rfl⟩

theorem of_mem_stretches {start : Imports} {x : Stretch} (hx : x ∈ u.stretches start)
    (hd : x.doc = some d) :
    (∃ m ∈ u.methods ++ u.nestedClasses.flatMap (·.methods), m.doc = some d) ∧
      ∃ depth, x.text = (Sheet.laid depth d.marks).text := by
  rw [stretches, List.mem_cons] at hx
  rcases hx with rfl | hx
  · cases hd
  · obtain ⟨hmem, hdepth⟩ := Passage.of_mem_stretches hx hd
    exact ⟨exists_of_doc_mem hmem, hdepth⟩

end SourceUnit

end Java

end StagedBuilder
