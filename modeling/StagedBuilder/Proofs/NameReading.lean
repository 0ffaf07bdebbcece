import StagedBuilder.Proofs.ConcreteSyntax

/-!
How the names before a dot are read. A variable in scope obscures a class of its name, so that a
call that is meant for the class is one of a method of the variable.
-/

namespace StagedBuilder.Java

def firstName (name : String) : String := .ofList (name.toList.takeWhile (· ≠ '.'))

section Read

variable (names : Names) (hidden : List String)

def Receiver.read : Receiver → Receiver
  | .static reference =>
    if firstName (names reference) ∈ hidden then .value (names reference) else .static reference
  | receiver => receiver

def Callee.read : Callee → Callee
  | .method receiver name => .method (receiver.read names hidden) name
  | callee => callee

mutual

def Expr.read : Expr → Expr
  | .this => .this
  | .null => .null
  | .truth value => .truth value
  | .name text => .name text
  | .quoted text => .quoted text
  | .field owner member => .field owner.read member
  | .call callee args => .call (callee.read names hidden) (Expr.readAll args)
  | .ifNull subject whenNull otherwise => .ifNull subject.read whenNull.read otherwise.read
  | .supplier value => .supplier value.read
  | .cast type value => .cast type value.read
  | .binary operator left right => .binary operator left.read right.read

def Expr.readAll : List Expr → List Expr
  | [] => []
  | e :: es => e.read :: Expr.readAll es

end

def Step.read : Step → List Step
  | .comment text => [.comment text]
  | .nullChecks checker checked =>
    if firstName (names checker) ∈ hidden then
      checked.map fun n => .eval (.call (.method (.value (names checker)) "checkNotNull")
        [.name n, .quoted n])
    else [.nullChecks checker checked]
  | .assign owner field value => [.assign (owner.read names hidden) field (value.read names hidden)]
  | .declare type name value => [.declare type name (value.read names hidden)]
  | .eval value => [.eval (value.read names hidden)]
  | .ret value => [.ret (value.read names hidden)]
  | .retCall callee args =>
    [.retCall (callee.read names hidden) (Expr.readAll names hidden args)]
  | .retAll conditions => [.retAll (Expr.readAll names hidden conditions)]

def Step.declares : Step → List String
  | .declare _ name _ => [name]
  | _ => []

def Stmt.read : Stmt → List Stmt
  | .step s => (s.read names hidden).map .step
  | .when condition body =>
    [.when (condition.read names hidden) (body.flatMap (·.read names hidden))]
  | .reflective target erased args =>
    [.reflective target erased (Expr.readAll names (Reflection.handle :: hidden) args)]

def Stmt.declares : Stmt → List String
  | .step s => s.declares
  | _ => []

end Read

def readBody (names : Names) (hidden : List String) : List Stmt → List Stmt
  | [] => []
  | s :: rest => s.read names hidden ++ readBody names (s.declares ++ hidden) rest

section Read

variable (names : Names) (hidden : List String)

def Method.read (m : Method) : Method :=
  { m with body := readBody names (m.formals.map (·.name) ++ hidden) m.body }

def Field.read (f : Field) : Field := { f with value := f.value.map (·.read names hidden) }

/-- The fields of the class around are in scope as well. -/
def NestedClass.read (c : NestedClass) : NestedClass :=
  let hidden := c.fields.map (·.name) ++ hidden
  { c with
    fields := c.fields.map (·.read names hidden)
    methods := c.methods.map (·.read names hidden) }

def Member.read : Member → Member
  | .method m => .method (m.read names hidden)
  | .nested c => .nested (c.read names hidden)

def SourceUnit.read (u : SourceUnit) : SourceUnit :=
  let hidden := (u.fields.getD []).map (·.name)
  { u with
    fields := u.fields.map fun fields => fields.map (·.read names hidden)
    members := u.members.map (·.read names hidden) }

end Read

/-- No class that is called is obscured by a variable. -/
def SourceUnit.Unobscured (u : SourceUnit) (names : Names) : Prop := u.read names = u

section Text

variable {names : Names} {hidden : List String}

theorem Callee.text_read (c : Callee) : (c.read names hidden).text names = c.text names := by
  cases c with
  | constructor type => rfl
  | inferred reference => rfl
  | method receiver name =>
    cases receiver with
    | implicit => rfl
    | value value => rfl
    | static reference =>
      rw [read, Receiver.read]
      split_ifs <;> rfl

mutual

theorem Expr.text_read (e : Expr) : (e.read names hidden).text names = e.text names := by
  cases e with
  | this => rfl
  | null => rfl
  | truth => rfl
  | name => rfl
  | quoted => rfl
  | field owner member => rw [read, text, text, owner.text_read]
  | call callee args => rw [read, text, text, callee.text_read, Expr.texts_readAll args]
  | ifNull subject whenNull otherwise =>
    rw [read, text, text, subject.text_read, whenNull.text_read, otherwise.text_read]
  | supplier value => rw [read, text, text, value.text_read]
  | cast type value => rw [read, text, text, value.text_read]
  | binary operator left right => rw [read, text, text, left.text_read, right.text_read]

theorem Expr.texts_readAll (es : List Expr) :
    Expr.texts names (Expr.readAll names hidden es) = Expr.texts names es := by
  cases es with
  | nil => rfl
  | cons e es => rw [Expr.readAll, Expr.texts, Expr.texts, e.text_read, Expr.texts_readAll es]

end

theorem Step.marks_read (s : Step) :
    (s.read names hidden).flatMap (·.marks names) = s.marks names := by
  cases s with
  | comment text => rfl
  | nullChecks checker checked =>
    have hline (n : String) :
        Step.marks names (.eval (.call (.method (.value (names checker)) "checkNotNull")
          [.name n, .quoted n])) = [.line (nullCheckLine names checker n)] := by
      rw [marks]
      refine congrArg (fun text => [Mark.line text]) (String.toList_injective ?_)
      simp [Expr.text, Expr.texts, Callee.text, nullCheckLine]
    rw [read]
    split_ifs
    · rw [List.flatMap_map, marks, List.map_eq_flatMap]
      exact List.flatMap_congr fun n _ => hline n
    · exact List.append_nil _
  | assign owner field value => simp [read, marks, Expr.text_read]
  | declare type name value => simp [read, marks, Expr.text_read]
  | eval value => simp [read, marks, Expr.text_read]
  | ret value => simp [read, marks, Expr.text_read]
  | retCall callee args => simp [read, marks, Callee.text_read, Expr.texts_readAll]
  | retAll conditions =>
    rcases conditions with _ | ⟨c, _ | ⟨d, cs⟩⟩
    · rfl
    · simp [read, marks, Expr.readAll, Expr.text_read]
    · simp [read, marks, Expr.readAll, Expr.texts, Expr.text_read, Expr.texts_readAll]

theorem Stmt.marks_read (s : Stmt) :
    (s.read names hidden).flatMap (·.marks names) = s.marks names := by
  cases s with
  | step s =>
    rw [read, List.flatMap_map]
    exact s.marks_read
  | when condition body =>
    simp [read, marks, Expr.text_read, List.flatMap_assoc, Step.marks_read]
  | reflective target erased args => simp [read, marks, Expr.texts_readAll]

theorem marks_readBody (body : List Stmt) :
    (readBody names hidden body).flatMap (·.marks names) = body.flatMap (·.marks names) := by
  induction body generalizing hidden with
  | nil => rfl
  | cons s rest ih => rw [readBody, List.flatMap_append, s.marks_read, ih, List.flatMap_cons]

theorem Method.marks_read (m : Method) : (m.read names hidden).marks names = m.marks names := by
  have hhead : (m.read names hidden).head names = m.head names := rfl
  unfold marks
  rw [hhead]
  simp only [read, marks_readBody]
  rfl

theorem Field.text_read (f : Field) : (f.read names hidden).text names = f.text names := by
  simp only [text, read, Option.map_map, Function.comp_def, Expr.text_read]
  rfl

theorem fieldMarks_read (fields : List Field) :
    fieldMarks names (fields.map (·.read names hidden)) = fieldMarks names fields := by
  simp [fieldMarks, Function.comp_def, Field.text_read]

theorem Member.marks_read (m : Member) : (m.read names hidden).marks names = m.marks names := by
  cases m with
  | method m => exact m.marks_read
  | nested c =>
    simp [read, marks, NestedClass.read, NestedClass.marks, fieldMarks_read, List.flatMap_map,
      Method.marks_read]

/-- However the names are read, the text is that of the file. -/
theorem SourceUnit.marks_read (u : SourceUnit) : (u.read names).marks names = u.marks names := by
  have hfields : (u.fields.map fun fields => fieldMarks names
      (fields.map (·.read names ((u.fields.getD []).map (·.name))))) =
        u.fields.map (fieldMarks names) :=
    congrArg (Option.map · u.fields) (funext fieldMarks_read)
  simp only [marks, read, Option.map_map, Function.comp_def, hfields, List.flatMap_map,
    Member.marks_read]
  rfl

end Text

def Method.bound (m : Method) : List String :=
  Reflection.handle :: m.formals.map (·.name) ++ m.body.flatMap (·.declares)

def NestedClass.bound (c : NestedClass) : List String :=
  c.fields.map (·.name) ++ c.methods.flatMap (·.bound)

def Member.bound : Member → List String
  | .method m => m.bound
  | .nested c => c.bound

def SourceUnit.bound (u : SourceUnit) : List String :=
  (u.fields.getD []).map (·.name) ++ u.members.flatMap (·.bound)

def Clear (names : Names) (references bound : List String) : Prop :=
  ∀ r ∈ references, firstName (names r) ∉ bound

instance (names : Names) (references bound : List String) :
    Decidable (Clear names references bound) :=
  inferInstanceAs (Decidable (∀ r ∈ references, firstName (names r) ∉ bound))

section Clear

variable {names : Names} {hidden all rs rs' : List String}

theorem clear_append : Clear names (rs ++ rs') all ↔ Clear names rs all ∧ Clear names rs' all :=
  List.forall_mem_append

theorem Clear.of_flatMap {α : Type} {uses : α → List String} {as : List α}
    (h : Clear names (as.flatMap uses) all) {a : α} (ha : a ∈ as) : Clear names (uses a) all :=
  List.forall_mem_flatMap.1 h a ha

theorem Clear.anti (h : Clear names rs all) (hsub : hidden ⊆ all) : Clear names rs hidden :=
  fun r hr hmem => h r hr (hsub hmem)

theorem Callee.read_eq (c : Callee) (h : Clear names c.uses hidden) : c.read names hidden = c := by
  cases c with
  | constructor type => rfl
  | inferred reference => rfl
  | method receiver name =>
    cases receiver with
    | implicit => rfl
    | value value => rfl
    | static reference => rw [read, Receiver.read, if_neg (h reference (.head _))]

mutual

theorem Expr.read_eq (e : Expr) (h : Clear names e.uses hidden) : e.read names hidden = e := by
  cases e with
  | this => rfl
  | null => rfl
  | truth => rfl
  | name => rfl
  | quoted => rfl
  | field owner member => rw [read, owner.read_eq h]
  | call callee args =>
    obtain ⟨hargs, hcallee⟩ := clear_append.1 h
    rw [read, callee.read_eq hcallee, Expr.readAll_eq args hargs]
  | ifNull subject whenNull otherwise =>
    obtain ⟨h, hotherwise⟩ := clear_append.1 h
    obtain ⟨hsubject, hnull⟩ := clear_append.1 h
    rw [read, subject.read_eq hsubject, whenNull.read_eq hnull, otherwise.read_eq hotherwise]
  | supplier value => rw [read, value.read_eq h]
  | cast type value => rw [read, value.read_eq h]
  | binary operator left right =>
    obtain ⟨hleft, hright⟩ := clear_append.1 h
    rw [read, left.read_eq hleft, right.read_eq hright]

theorem Expr.readAll_eq (es : List Expr) (h : Clear names (Expr.usesAll es) hidden) :
    Expr.readAll names hidden es = es := by
  cases es with
  | nil => rfl
  | cons e es =>
    obtain ⟨he, hes⟩ := clear_append.1 h
    rw [Expr.readAll, e.read_eq he, Expr.readAll_eq es hes]

end

theorem Step.read_eq (s : Step) (h : Clear names s.uses hidden) : s.read names hidden = [s] := by
  cases s with
  | comment text => rfl
  | nullChecks checker checked => rw [read, if_neg (h checker (.head _))]
  | assign owner field value =>
    obtain ⟨howner, hvalue⟩ := clear_append.1 h
    rw [read, owner.read_eq howner, value.read_eq hvalue]
  | declare type name value => rw [read, value.read_eq (clear_append.1 h).2]
  | eval value => rw [read, value.read_eq h]
  | ret value => rw [read, value.read_eq h]
  | retCall callee args =>
    obtain ⟨hargs, hcallee⟩ := clear_append.1 h
    rw [read, callee.read_eq hcallee, Expr.readAll_eq args hargs]
  | retAll conditions => rw [read, Expr.readAll_eq conditions h]

theorem Stmt.read_eq (s : Stmt) (h : Clear names s.uses (Reflection.handle :: hidden)) :
    s.read names hidden = [s] := by
  have hhidden : Clear names s.uses hidden := h.anti (List.subset_cons_self _ _)
  cases s with
  | step s => rw [read, s.read_eq hhidden, List.map_singleton]
  | when condition body =>
    obtain ⟨hcondition, hbody⟩ := clear_append.1 hhidden
    have hsteps : body.flatMap (·.read names hidden) = body := by
      rw [List.flatMap_congr fun s hs => s.read_eq (hbody.of_flatMap hs), List.flatMap_singleton']
    rw [read, condition.read_eq hcondition, hsteps]
  | reflective target erased args =>
    rw [read, Expr.readAll_eq args (clear_append.1 (clear_append.1 h).1).1]

theorem readBody_eq {body : List Stmt} (h : Clear names (body.flatMap (·.uses)) all)
    (hhandle : Reflection.handle ∈ all) (hhidden : hidden ⊆ all)
    (hdeclares : body.flatMap (·.declares) ⊆ all) : readBody names hidden body = body := by
  induction body generalizing hidden with
  | nil => rfl
  | cons s rest ih =>
    obtain ⟨hs, hrest⟩ := clear_append.1 h
    obtain ⟨hnames, hlater⟩ := List.append_subset.1 hdeclares
    rw [readBody, s.read_eq (hs.anti (List.cons_subset.2 ⟨hhandle, hhidden⟩)),
      ih hrest (List.append_subset.2 ⟨hnames, hhidden⟩) hlater]
    rfl

theorem Method.read_eq (m : Method) (h : Clear names m.uses all) (hhidden : hidden ⊆ all)
    (hbound : m.bound ⊆ all) : m.read names hidden = m := by
  obtain ⟨hfront, hdeclares⟩ := List.append_subset.1 hbound
  obtain ⟨hhandle, hformals⟩ := List.cons_subset.1 hfront
  rw [read, readBody_eq (clear_append.1 h).2 hhandle (List.append_subset.2 ⟨hformals, hhidden⟩)
    hdeclares]

theorem Field.read_eq (f : Field) (h : Clear names f.uses hidden) : f.read names hidden = f := by
  have hvalue : f.value.map (·.read names hidden) = f.value := by
    obtain ⟨-, h⟩ := clear_append.1 h
    cases hgiven : f.value with
    | none => rfl
    | some value =>
      rw [hgiven] at h
      rw [Option.map_some, value.read_eq h]
  rw [read, hvalue]

theorem map_read_fields {fields : List Field} (h : Clear names (fields.flatMap (·.uses)) hidden) :
    fields.map (·.read names hidden) = fields := by
  rw [List.map_congr_left fun f hf => f.read_eq (h.of_flatMap hf), List.map_id']

theorem NestedClass.read_eq (c : NestedClass) (h : Clear names c.uses all) (hhidden : hidden ⊆ all)
    (hbound : c.bound ⊆ all) : c.read names hidden = c := by
  obtain ⟨hfields, hmethods⟩ := clear_append.1 h
  obtain ⟨hnames, hinner⟩ := List.append_subset.1 hbound
  have hscope : c.fields.map (·.name) ++ hidden ⊆ all := List.append_subset.2 ⟨hnames, hhidden⟩
  have hread : ∀ m ∈ c.methods, m.read names (c.fields.map (·.name) ++ hidden) = m := fun m hm =>
    m.read_eq (hmethods.of_flatMap hm) hscope
      fun _ hn => hinner (List.mem_flatMap.2 ⟨m, hm, hn⟩)
  rw [read, map_read_fields (hfields.anti hscope), List.map_congr_left hread, List.map_id']

theorem Member.read_eq (m : Member) (h : Clear names m.uses all) (hhidden : hidden ⊆ all)
    (hbound : m.bound ⊆ all) : m.read names hidden = m := by
  cases m with
  | method m => rw [read, m.read_eq h hhidden hbound]
  | nested c => rw [read, c.read_eq h hhidden hbound]

theorem SourceUnit.unobscured_of_clear {u : SourceUnit} (h : Clear names u.uses u.bound) :
    u.Unobscured names := by
  obtain ⟨h, hmembers⟩ := clear_append.1 h
  obtain ⟨hhidden, hinner⟩ := List.append_subset.1 (List.Subset.refl u.bound)
  have hfields : (u.fields.map fun fields =>
      fields.map (·.read names ((u.fields.getD []).map (·.name)))) = u.fields := by
    have hfields := ((clear_append.1 h).2).anti hhidden
    cases hgiven : u.fields with
    | none => rfl
    | some fields =>
      rw [hgiven] at hfields
      exact congrArg some (map_read_fields hfields)
  have hread : ∀ m ∈ u.members, m.read names ((u.fields.getD []).map (·.name)) = m := fun m hm =>
    m.read_eq (hmembers.of_flatMap hm) hhidden
      fun _ hn => hinner (List.mem_flatMap.2 ⟨m, hm, hn⟩)
  rw [Unobscured, read, hfields, List.map_congr_left hread, List.map_id']

end Clear

end StagedBuilder.Java
