import StagedBuilder.Proofs.ConcreteSyntax

namespace StagedBuilder

open Text

namespace Java

section Lined

variable {names : Names} {ls : List String}

theorem TypeRef.written_text (t : TypeRef) : t.Written names (t.text names) := by
  induction t with
  | reference text => exact .reference text
  | expr type => exact .expr type
  | written text => exact .written text
  | collector builder elements next ih => exact .collector builder elements ih

theorem TypeRef.forall₂_written_text (ts : List TypeRef) :
    List.Forall₂ (TypeRef.Written names) ts (ts.map (·.text names)) :=
  List.forall₂_map_right_iff.2 (List.forall₂_same.2 fun t _ => t.written_text)

theorem Callee.written_text (c : Callee) : c.Written names (c.text names) := by
  cases c with
  | constructor type => exact .constructor type.written_text
  | inferred reference => exact .inferred reference
  | method receiver name =>
    cases receiver with
    | implicit => exact .implicit name
    | value value => exact .value value name
    | static reference => exact .static reference name

mutual

theorem Expr.written_text (e : Expr) : e.Written names (e.text names) := by
  cases e with
  | this => exact .this
  | null => exact .null
  | truth value =>
    cases value with
    | true => exact .holds
    | false => exact .fails
  | name text => exact .name text
  | quoted text => exact .quoted text
  | field owner member => exact .field member owner.written_text
  | call callee args => exact .call callee.written_text (Expr.allWritten_texts args)
  | ifNull subject whenNull otherwise =>
    exact .ifNull subject.written_text whenNull.written_text otherwise.written_text
  | supplier value => exact .supplier value.written_text
  | cast type value => exact .cast type value.written_text
  | binary operator left right => exact .binary operator left.written_text right.written_text

theorem Expr.allWritten_texts (es : List Expr) :
    Expr.AllWritten names es (Expr.texts names es) := by
  cases es with
  | nil => exact .nil
  | cons e es => exact .cons e.written_text (Expr.allWritten_texts es)

end

theorem conjoined_of_lines {lead : String} {cs : List String} (hcs : cs ≠ [])
    (h : Lines (conjunctionLines lead cs) ls) : Conjoined lead cs ls := by
  induction cs generalizing lead ls with
  | nil => exact absurd rfl hcs
  | cons c cs ih =>
    cases cs with
    | nil =>
      simp only [conjunctionLines, lines_line_iff, inTurn_nil_iff] at h
      obtain ⟨_, rfl, rfl⟩ := h
      exact .last lead c
    | cons d cs =>
      simp only [conjunctionLines, lines_line_iff] at h
      obtain ⟨more, rfl, hmore⟩ := h
      exact .more (ih (List.cons_ne_nil d cs) hmore)

def Step.Complete : Step → Prop
  | .retCall _ args => args ≠ []
  | .retAll conditions => conditions ≠ []
  | _ => True

def Stmt.Complete : Stmt → Prop
  | .step s => s.Complete
  | .when _ body => ∀ s ∈ body, s.Complete
  | .reflective _ _ args => args ≠ []

structure Method.Complete (m : Method) : Prop where
  formals : m.flowing = true → m.formals ≠ []
  body : ∀ s ∈ m.body, s.Complete

theorem Step.written_of_lines {s : Step} (hs : s.Complete) (h : Lines (s.marks names) ls) :
    s.Written names ls := by
  cases s with
  | comment text =>
    simp only [marks, lines_line_iff, inTurn_nil_iff] at h
    obtain ⟨_, rfl, rfl⟩ := h
    exact .comment text
  | nullChecks checker checked =>
    have hmarks : Step.marks names (.nullChecks checker checked) =
        (checked.map (nullCheckLine names checker)).map .line := by
      rw [marks, List.map_map]
      rfl
    rw [hmarks, lines_map_line_iff] at h
    exact h ▸ .nullChecks checker checked
  | assign owner field value =>
    simp only [marks, lines_line_iff, inTurn_nil_iff] at h
    obtain ⟨_, rfl, rfl⟩ := h
    exact .assign field owner.written_text value.written_text
  | declare type name value =>
    simp only [marks, lines_line_iff, inTurn_nil_iff] at h
    obtain ⟨_, rfl, rfl⟩ := h
    exact .declare name type.written_text value.written_text
  | eval value =>
    simp only [marks, lines_line_iff, inTurn_nil_iff] at h
    obtain ⟨_, rfl, rfl⟩ := h
    exact .eval value.written_text
  | ret value =>
    simp only [marks, lines_line_iff, inTurn_nil_iff] at h
    obtain ⟨_, rfl, rfl⟩ := h
    exact .ret value.written_text
  | retCall callee args =>
    simp only [marks, lines_call_iff, inTurn_nil_iff] at h
    obtain ⟨lines, _, rfl, hlisting, rfl⟩ := h
    rw [List.append_nil]
    exact .retCall callee.written_text (Expr.allWritten_texts args) hlisting
  | retAll conditions =>
    rcases conditions with _ | ⟨c, _ | ⟨d, cs⟩⟩
    · exact absurd rfl hs
    · simp only [marks, lines_line_iff, inTurn_nil_iff] at h
      obtain ⟨_, rfl, rfl⟩ := h
      exact .retOne c.written_text
    · simp only [marks, List.cons_append, lines_line_iff, lines_indent_iff] at h
      obtain ⟨more, rfl, h⟩ := h
      obtain ⟨conditions, back, rfl, hconditions, hback⟩ := inTurn_append_iff.1 h
      simp only [lines_dedent_iff, inTurn_nil_iff] at hback
      rw [hback, List.append_nil]
      exact .retAll (Expr.allWritten_texts _)
        (conjoined_of_lines (List.cons_ne_nil _ _) hconditions)

theorem Stmt.written_of_lines {s : Stmt} (hs : s.Complete) (h : Lines (s.marks names) ls) :
    s.Written names ls := by
  cases s with
  | step s => exact .step (Step.written_of_lines hs h)
  | when condition body =>
    simp only [marks, List.cons_append, lines_line_iff] at h
    obtain ⟨more, rfl, h⟩ := h
    obtain ⟨guarded, back, rfl, hbody, hback⟩ := inTurn_append_iff.1 h
    simp only [lines_close_iff, inTurn_nil_iff] at hback
    obtain ⟨_, rfl, rfl⟩ := hback
    exact .when condition.written_text
      (hbody.of_flatMap fun s hmem _ => Step.written_of_lines (hs s hmem))
  | reflective target erased args =>
    simp only [marks, Reflection.failures, failureLines, List.map_cons, List.map_nil,
      List.cons_append, List.nil_append, List.drop_succ_cons, List.drop_zero, lines_line_iff,
      lines_indent_iff, lines_dedent_iff, lines_call_iff, lines_reopen_iff, lines_close_iff,
      inTurn_nil_iff] at h
    obtain ⟨_, rfl, _, rfl, _, rfl, _, rfl, _, rfl, lines, _, rfl, hlisting, _, rfl, _, rfl, _, rfl,
      _, rfl, _, rfl, _, rfl, rfl⟩ := h
    have hclasses : erased.map (fun t => t.text names ++ ".class") =
        (erased.map (·.text names)).map (· ++ ".class") := by
      rw [List.map_map]
      rfl
    have hwritten : Stmt.Written names (.reflective target erased args) _ :=
      .reflective (TypeRef.forall₂_written_text erased) (Expr.allWritten_texts args) hlisting
    have hlookup (x : String) : x ++ "> " ++ Reflection.handle ++ " = " = x ++ "> _c = " :=
      String.toList_injective (by simp [Reflection.handle])
    have hcatch (x : String) : "\x7d " ++ ("catch (" ++ x) = "\x7d catch (" ++ x :=
      String.toList_injective (by simp)
    have hfailure (x : String) : x ++ " " ++ Reflection.failure ++ ") \x7b" = x ++ " e) \x7b" :=
      String.toList_injective (by simp [Reflection.failure])
    have hthrow (x : String) : x ++ "(" ++ Reflection.failure ++ ");" = x ++ "(e);" :=
      String.toList_injective (by simp [Reflection.failure])
    rw [hlookup, hclasses, hcatch, hfailure, hthrow]
    exact hwritten

theorem Formal.written_text (f : Formal) : f.Written names (f.text names) := by
  obtain ⟨marker, type, name⟩ := f
  cases marker with
  | none =>
    have htext : Formal.text names ⟨none, type, name⟩ = type.text names ++ " " ++ name := by
      simp [text]
    exact htext ▸ .plain name type.written_text
  | some marker => exact .marked marker name type.written_text

theorem Formal.forall₂_written_text (fs : List Formal) :
    List.Forall₂ (Formal.Written names) fs (fs.map (·.text names)) :=
  List.forall₂_map_right_iff.2 (List.forall₂_same.2 fun f _ => f.written_text)

theorem Doc.marks_eq_lines (d : Doc) : d.marks = d.lines.map .line := by
  simp [marks, lines, width]

theorem Method.heads_head (m : Method) : m.Heads names (m.head names) := by
  have hmodifiers : m.modifiers =
      (if m.isPublic then "public " else "private ") ++ if m.isStatic then "static " else "" := by
    unfold modifiers
    cases m.isPublic <;> cases m.isStatic <;> decide
  rw [head, ← hmodifiers]
  cases hresult : m.result with
  | none => simpa using Method.Heads.constructor hresult
  | some type => simpa [String.append_assoc] using Method.Heads.method hresult type.written_text

theorem Method.written_of_lines {m : Method} (hm : m.Complete)
    (h : Lines (m.marks names) ls) : m.Written names ls := by
  obtain ⟨front, back, rfl, hfront, hback⟩ := inTurn_append_iff.1 h
  obtain ⟨above, below, rfl, habove, hbelow⟩ := inTurn_append_iff.1 hfront
  obtain ⟨documented, marked, rfl, hdoc, hmarked⟩ := inTurn_append_iff.1 habove
  simp only [lines_close_iff, inTurn_nil_iff] at hback
  obtain ⟨_, rfl, rfl⟩ := hback
  have hdocumented : documented = "" :: (m.doc.map Doc.lines).getD [] := by
    obtain ⟨more, rfl, hcomment⟩ := lines_blank_iff.1 hdoc
    cases hgiven : m.doc with
    | none =>
      rw [hgiven] at hcomment
      rw [inTurn_nil_iff.1 hcomment]
      rfl
    | some d =>
      rw [hgiven, Option.map_some, Option.getD_some, Doc.marks_eq_lines,
        lines_map_line_iff] at hcomment
      rw [hcomment]
      rfl
  have hmarkers : marked = m.markers.map fun r => "@" ++ names r := by
    rwa [← lines_map_line_iff, List.map_map]
  have hopening : ∃ opening body, below = opening ++ body ∧
      Listing (m.head names) ") \x7b" (m.formals.map (·.text names)) opening ∧
      Lines (m.body.flatMap (·.marks names)) body := by
    split_ifs at hbelow
    · exact lines_call_iff.1 hbelow
    · obtain ⟨body, rfl, hbody⟩ := lines_line_iff.1 hbelow
      exact ⟨_, body, rfl, .inLine _, hbody⟩
  obtain ⟨opening, body, rfl, hlisting, hbody⟩ := hopening
  rw [hdocumented, hmarkers, ← List.append_assoc]
  exact .intro m.heads_head (Formal.forall₂_written_text m.formals) hlisting
    (hbody.of_flatMap fun s hs _ => Stmt.written_of_lines (hm.body s hs))

theorem Field.written_text (f : Field) : f.Written names [f.text names] := by
  have hmodifiers : f.modifiers = "private " ++ if f.isFinal then "final " else "" := by
    unfold modifiers
    cases f.isFinal <;> decide
  rw [text, ← hmodifiers]
  cases hvalue : f.value with
  | none => simpa using Field.Written.unset f.type.written_text hvalue
  | some value =>
    simpa [String.append_assoc] using
      Field.Written.set f.type.written_text hvalue value.written_text

theorem written_of_lines_fieldMarks {fields : List Field}
    (h : Lines (fieldMarks names fields) ls) :
    ∃ lines, ls = "" :: lines ∧ InTurn (Field.Written names) fields lines := by
  obtain ⟨lines, rfl, hlines⟩ := lines_blank_iff.1 h
  rw [List.map_eq_flatMap] at hlines
  refine ⟨lines, rfl, hlines.of_flatMap fun f _ ls hline => ?_⟩
  obtain ⟨more, rfl, hmore⟩ := lines_line_iff.1 hline
  rw [inTurn_nil_iff.1 hmore]
  exact f.written_text

def NestedClass.Complete (c : NestedClass) : Prop := ∀ m ∈ c.methods, m.Complete

def Member.Complete : Member → Prop
  | .method m => m.Complete
  | .nested c => c.Complete

def SourceUnit.Complete (u : SourceUnit) : Prop := ∀ m ∈ u.members, m.Complete

theorem NestedClass.written_of_lines {c : NestedClass} (hc : c.Complete)
    (h : Lines (c.marks names) ls) : c.Written names ls := by
  obtain ⟨front, back, rfl, hfront, hback⟩ := inTurn_append_iff.1 h
  obtain ⟨above, methods, rfl, habove, hmethods⟩ := inTurn_append_iff.1 hfront
  simp only [lines_close_iff, inTurn_nil_iff] at hback
  obtain ⟨_, rfl, rfl⟩ := hback
  obtain ⟨_, rfl, hclass⟩ := lines_blank_iff.1 habove
  obtain ⟨_, rfl, hmarks⟩ := lines_line_iff.1 hclass
  obtain ⟨fields, rfl, hfields⟩ := written_of_lines_fieldMarks hmarks
  exact .intro hfields (hmethods.of_flatMap fun m hm _ => Method.written_of_lines (hc m hm))

theorem Member.written_of_lines {m : Member} (hm : m.Complete) (h : Lines (m.marks names) ls) :
    m.Written names ls := by
  cases m with
  | method m => exact .method (Method.written_of_lines hm h)
  | nested c => exact .nested (NestedClass.written_of_lines hm h)

theorem SourceUnit.written_of_lines {u : SourceUnit} (hu : u.Complete)
    (h : Lines (u.body names) ls) : u.Written names ls := by
  obtain ⟨front, back, rfl, hfront, hback⟩ := inTurn_append_iff.1 h
  obtain ⟨above, members, rfl, habove, hmembers⟩ := inTurn_append_iff.1 hfront
  obtain ⟨opening, fields, rfl, hopening, hfields⟩ := inTurn_append_iff.1 habove
  simp only [lines_close_iff, inTurn_nil_iff] at hback
  obtain ⟨_, rfl, rfl⟩ := hback
  simp only [lines_blank_iff, lines_line_iff, inTurn_nil_iff] at hopening
  obtain ⟨_, rfl, _, rfl, _, rfl, rfl⟩ := hopening
  have hhas : SourceUnit.HasFields names u.fields fields := by
    cases hgiven : u.fields with
    | none =>
      rw [hgiven] at hfields
      rw [inTurn_nil_iff.1 hfields]
      exact .none
    | some given =>
      rw [hgiven] at hfields
      obtain ⟨lines, rfl, hlines⟩ := written_of_lines_fieldMarks hfields
      exact .some hlines
  have himplementing : (u.interface.map fun r => " implements " ++ names r).getD "" =
      u.implementing names := by
    unfold implementing
    cases u.interface <;> rfl
  rw [himplementing]
  exact .intro hhas (hmembers.of_flatMap fun m hm _ => Member.written_of_lines (hu m hm))

end Lined

section HasArguments

variable {names : Names}

theorem Expr.texts_ne_nil {es : List Expr} (h : es ≠ []) : Expr.texts names es ≠ [] := by
  obtain ⟨e, es, rfl⟩ := List.exists_cons_of_ne_nil h
  exact List.cons_ne_nil _ _

theorem Step.hasArguments {s : Step} (hs : s.Complete) :
    ∀ m ∈ s.marks names, m.HasArguments := by
  cases s with
  | nullChecks checker checked => exact List.forall_mem_map.2 fun _ _ => trivial
  | retCall callee args => exact List.forall_mem_singleton.2 (Expr.texts_ne_nil hs)
  | retAll conditions =>
    rcases conditions with _ | ⟨c, _ | ⟨d, cs⟩⟩
    · exact absurd rfl hs
    · exact List.forall_mem_singleton.2 trivial
    · have hlines : ∀ m ∈ conjunctionLines "" (Expr.texts names (c :: d :: cs)), m.HasArguments :=
        fun m hm => Mark.hasArguments_of_inLine (inLine_conjunctionLines m hm)
      simpa [marks, or_imp, forall_and, Mark.HasArguments] using hlines
  | _ => exact List.forall_mem_singleton.2 trivial

theorem Stmt.hasArguments {s : Stmt} (hs : s.Complete) :
    ∀ m ∈ s.marks names, m.HasArguments := by
  cases s with
  | step s => exact Step.hasArguments hs
  | when condition body =>
    have hbody : ∀ m ∈ body.flatMap (·.marks names), m.HasArguments :=
      List.forall_mem_flatMap.2 fun s hmem => Step.hasArguments (hs s hmem)
    simp only [marks, List.cons_append, List.forall_mem_cons, List.forall_mem_append]
    exact ⟨trivial, hbody, trivial, List.forall_mem_nil _⟩
  | reflective target erased args =>
    have hargs : Expr.texts names args ≠ [] := Expr.texts_ne_nil hs
    simp [marks, Reflection.failures, failureLines, Mark.HasArguments, hargs]

theorem Method.hasArguments {m : Method} (hm : m.Complete) :
    ∀ mark ∈ m.marks names, mark.HasArguments := by
  have hdoc : ∀ mark ∈ (m.doc.map (·.marks)).getD [], mark.HasArguments := by
    cases m.doc with
    | none => exact fun _ hmark => nomatch hmark
    | some d =>
      rw [Option.map_some, Option.getD_some, Doc.marks_eq_lines]
      exact List.forall_mem_map.2 fun _ _ => trivial
  have hmarkers : ∀ mark ∈ m.markers.map fun r => Mark.line ("@" ++ names r), mark.HasArguments :=
    List.forall_mem_map.2 fun _ _ => trivial
  have hbody : ∀ mark ∈ m.body.flatMap (·.marks names), mark.HasArguments :=
    List.forall_mem_flatMap.2 fun s hs => Stmt.hasArguments (hm.body s hs)
  simp only [marks, List.cons_append, List.forall_mem_cons, List.forall_mem_append]
  refine ⟨trivial, ⟨⟨hdoc, hmarkers⟩, ?_, hbody⟩, trivial, List.forall_mem_nil _⟩
  split_ifs with hflowing
  · simpa [Mark.HasArguments] using hm.formals hflowing
  · trivial

theorem hasArguments_fieldMarks {fields : List Field} :
    ∀ m ∈ fieldMarks names fields, m.HasArguments :=
  List.forall_mem_cons.2 ⟨trivial, List.forall_mem_map.2 fun _ _ => trivial⟩

theorem Member.hasArguments {m : Member} (hm : m.Complete) :
    ∀ mark ∈ m.marks names, mark.HasArguments := by
  cases m with
  | method m => exact Method.hasArguments hm
  | nested c =>
    have hmethods : ∀ mark ∈ c.methods.flatMap (·.marks names), mark.HasArguments :=
      List.forall_mem_flatMap.2 fun m hmem => Method.hasArguments (hm m hmem)
    simp only [marks, NestedClass.marks, List.cons_append, List.forall_mem_cons,
      List.forall_mem_append]
    exact ⟨trivial, trivial, ⟨hasArguments_fieldMarks, hmethods⟩,
      trivial, List.forall_mem_nil _⟩

theorem SourceUnit.hasArguments {u : SourceUnit} (hu : u.Complete) :
    ∀ m ∈ u.body names, m.HasArguments := by
  have hfields : ∀ m ∈ (u.fields.map (fieldMarks names)).getD [], m.HasArguments := by
    cases u.fields with
    | none => exact fun _ hm => nomatch hm
    | some fields => exact hasArguments_fieldMarks
  have hmembers : ∀ m ∈ u.members.flatMap (·.marks names), m.HasArguments :=
    List.forall_mem_flatMap.2 fun m hm => Member.hasArguments (hu m hm)
  simp only [body, List.cons_append, List.nil_append, List.forall_mem_cons, List.forall_mem_append]
  exact ⟨trivial, trivial, trivial, ⟨hfields, hmembers⟩, trivial, List.forall_mem_nil _⟩

end HasArguments

namespace SourceUnit

variable {u : SourceUnit} {start : Imports}

theorem exists_text_eq_body (u : SourceUnit) (start : Imports) :
    ∃ above depth, u.text start =
        above ++ (Sheet.laid depth (u.body (u.imports start).display)).text ∧
      ('\n' ∉ u.package.toList → above = ended (u.headLines ++ (u.imports start).blockLines)) := by
  let names := (u.imports start).display
  by_cases hpackage : '\n' ∈ u.package.toList
  · let head := u.headLines.map Mark.line
    let front := Sheet.laid 0 (head ++ [.imports])
    have hmarks : u.marks names = (head ++ [.imports]) ++ u.body names := by
      rw [marks_eq_body, List.append_assoc]
      rfl
    refine ⟨front.finish (u.imports start), front.depth, ?_, fun h => absurd hpackage h⟩
    rw [← Sheet.finish_under (Sheet.imports_infix_laid 0 head []), ← Sheet.laid_append, ← hmarks]
    rfl
  · exact ⟨_, 0, text_eq_below hpackage, fun _ => rfl⟩

/-- The file has its class, in one of the ways of writing it, below its head and the imports. -/
def WrittenIn (u : SourceUnit) (start : Imports) (text : String) : Prop :=
  ∃ above below lines, text = above ++ below ∧ Shows lines below ∧
    u.Written (u.imports start).display lines ∧
    ('\n' ∉ u.package.toList → above = ended (u.headLines ++ (u.imports start).blockLines))

theorem writtenIn_text (hu : u.Complete) : u.WrittenIn start (u.text start) := by
  obtain ⟨above, depth, htext, habove⟩ := u.exists_text_eq_body start
  obtain ⟨lines, hlines, hshows⟩ := Sheet.exists_lines depth (hasArguments hu)
  exact ⟨above, _, lines, htext, hshows, written_of_lines hu hlines, habove⟩

end SourceUnit

end Java

open Java

theorem Java.Method.complete_of_body {m : Method} (hflowing : m.flowing = false)
    (hbody : ∀ s ∈ m.body, s.Complete) : m.Complete :=
  ⟨fun h => absurd h (by rw [hflowing]; decide), hbody⟩

namespace Builder

variable {s : SupportClasses} {b : Builder} {p : Parameter} {owner : Expr} {m : Method}

theorem complete_nullCheck : ∀ t ∈ p.nullCheck s, t.Complete := by
  intro t ht
  obtain ⟨-, rfl⟩ := (List.mem_ite_nil_right.1 ht).imp_right List.mem_singleton.1
  trivial

theorem complete_construct (hparams : b.params ≠ []) : (b.construct s).Complete := by
  have hargs : b.params.map (argument s) ≠ [] := mt List.map_eq_nil_iff.1 hparams
  unfold construct
  cases b.construction with
  | direct => exact hargs
  | reflective => exact hargs
  | delegate implementation => exact hargs

theorem Offered.complete (h : Offered s b owner m) (hparams : b.params ≠ []) : m.Complete := by
  cases h with
  | setter notice known goes =>
    exact Method.complete_of_body rfl
      (List.forall_mem_append.2 ⟨complete_nullCheck, by simp [Stmt.Complete, Step.Complete]⟩)
  | innerSetter known goes wraps =>
    refine Method.complete_of_body rfl (List.forall_mem_append.2 ⟨?_, ?_⟩)
    · split_ifs <;> simp [Stmt.Complete, Step.Complete]
    · simp [Stmt.Complete, Step.Complete]
  | accessor elements known goes collects =>
    exact Method.complete_of_body rfl
      (by simp [Builder.accessor, Stmt.Complete, Step.Complete])
  | build isPublic inRoot =>
    exact Method.complete_of_body rfl (List.forall_mem_singleton.2 (complete_construct hparams))
  | delegatedBuild inStage =>
    exact Method.complete_of_body rfl (List.forall_mem_singleton.2 trivial)

theorem Outer.complete (h : Outer s b m) (hparams : b.params ≠ []) : m.Complete := by
  cases h with
  | hidden => exact Method.complete_of_body rfl (List.forall_mem_singleton.2 trivial)
  | creator shape mem =>
    rcases eq_of_mem_creators mem with rfl | rfl
    · exact Method.complete_of_body rfl (List.forall_mem_singleton.2 trivial)
    · exact Method.complete_of_body rfl (List.forall_mem_singleton.2 trivial)
  | offered shape offered => exact offered.complete hparams
  | factory shape known =>
    exact Method.complete_of_body rfl (List.forall_mem_append.2
      ⟨complete_nullCheck, List.forall_mem_singleton.2 (complete_construct hparams)⟩)
  | copy emits =>
    exact Method.complete_of_body rfl (by simp [copyMethod, Stmt.Complete, Step.Complete])

theorem Written.complete (h : Written s b m) (hparams : b.params ≠ []) : m.Complete := by
  cases h with
  | outer outer => exact outer.complete hparams
  | offered offered => exact offered.complete hparams
  | stageConstructor p => exact Method.complete_of_body rfl (List.forall_mem_singleton.2 trivial)
  | copyConstructor emits =>
    exact Method.complete_of_body rfl (List.forall_mem_map.2 fun _ _ => trivial)

theorem complete_unit (hparams : b.params ≠ []) : (b.unit s).Complete := by
  intro member hmember
  cases member with
  | method m =>
    exact (outer_of_mem (List.mem_filterMap.2 ⟨_, hmember, rfl⟩)).complete hparams
  | nested c =>
    exact fun m hm =>
      (written_of_nested (List.mem_filterMap.2 ⟨_, hmember, rfl⟩) hm).complete hparams

end Builder

namespace Implementation

variable {s : SupportClasses} {i : Implementation}

theorem complete_textParts (lead : String) (ps : List Parameter) :
    ∀ t ∈ textParts lead ps, t.Complete := by
  induction ps generalizing lead with
  | nil => exact List.forall_mem_nil _
  | cons p ps ih =>
    exact List.forall_mem_cons.2 ⟨trivial, List.forall_mem_cons.2 ⟨trivial, ih ", "⟩⟩

theorem complete_constructor (hparams : i.params ≠ []) : (i.constructor s).Complete where
  formals _ := mt List.map_eq_nil_iff.1 hparams
  body := by
    have hassigns : ∀ t ∈ i.params.map fun p => Stmt.step (.assign .this p.name (.name p.name)),
        t.Complete :=
      List.forall_mem_map.2 fun _ _ => trivial
    have hcheck : ∀ t ∈ (i.check.map fun c =>
        Stmt.step (.eval (.call (.method .implicit c) []))).toList, t.Complete := by
      cases i.check with
      | none => exact List.forall_mem_nil _
      | some c => exact List.forall_mem_singleton.2 trivial
    exact List.forall_mem_append.2 ⟨List.forall_mem_cons.2 ⟨trivial, hassigns⟩, hcheck⟩

theorem complete_factory (hparams : i.params ≠ []) : i.factory.Complete where
  formals _ := mt List.map_eq_nil_iff.1 hparams
  body := by
    have hargs : Expr.names (i.params.map (·.name)) ≠ [] := by
      rw [Expr.names, List.map_map]
      exact mt List.map_eq_nil_iff.1 hparams
    exact List.forall_mem_singleton.2 hargs

theorem complete_toStringMethod : i.toStringMethod.Complete :=
  Method.complete_of_body rfl (List.forall_mem_append.2
    ⟨List.forall_mem_cons.2 ⟨trivial, List.forall_mem_cons.2 ⟨trivial, complete_textParts "" _⟩⟩,
      List.forall_mem_cons.2 ⟨trivial, List.forall_mem_singleton.2 trivial⟩⟩)

theorem complete_equalsMethod : i.equalsMethod.Complete := by
  refine Method.complete_of_body rfl ?_
  unfold equalsMethod
  cases i.params <;> simp [Stmt.Complete, Step.Complete]

theorem complete_unit (hparams : i.params ≠ []) : (i.unit s).Complete := by
  have haccessors : ∀ m ∈ i.params.map (accessor s), m.Complete :=
    List.forall_mem_map.2 fun p _ =>
      Method.complete_of_body rfl (List.forall_mem_singleton.2 trivial)
  have hhash : i.hashCodeMethod.Complete :=
    Method.complete_of_body rfl (List.forall_mem_singleton.2 trivial)
  have hmethods : ∀ m ∈ i.constructor s :: i.factory :: i.params.map (accessor s) ++
      [i.toStringMethod, i.equalsMethod, i.hashCodeMethod], m.Complete := by
    simp only [List.cons_append, List.forall_mem_cons, List.forall_mem_append]
    exact ⟨complete_constructor hparams, complete_factory hparams, haccessors,
      complete_toStringMethod, complete_equalsMethod, hhash, List.forall_mem_nil _⟩
  exact List.forall_mem_map.2 hmethods

end Implementation

end StagedBuilder
