import StagedBuilder.Proofs.MethodLaws
import StagedBuilder.Proofs.TypeRoundTrip

namespace StagedBuilder

namespace TypeExpr

open Text

/-- What is outside of all brackets in a text that is read at `depth`. -/
def outside : (depth : Nat) → List Char → List Char
  | _, [] => []
  | 0, c :: cs => if c = '<' then outside 1 cs else c :: outside 0 cs
  | depth + 1, c :: cs => outside (depthAfter (depth + 1) c) cs

theorem outside_of_no_open {s : List Char} (h : '<' ∉ s) (rest : List Char) :
    outside 0 (s ++ rest) = s ++ outside 0 rest := by
  induction s with
  | nil => rfl
  | cons c s ih =>
    rw [List.mem_cons, not_or] at h
    rw [List.cons_append, outside, if_neg (Ne.symm h.1), ih h.2, List.cons_append]

theorem outside_inner {depth : Nat} {s : List Char} (h : bracketFault? depth s = none)
    (rest : List Char) : outside (1 + depth) (s ++ rest) = outside 1 rest := by
  induction s generalizing depth with
  | nil =>
    cases depth with
    | zero => rfl
    | succ depth => simp [bracketFault?] at h
  | cons c s ih =>
    have hc : ¬(c = '>' ∧ depth = 0) := not_unmatched h
    rw [bracketFault?_cons hc] at h
    rw [List.cons_append, Nat.add_comm, outside, Nat.add_comm, depthAfter_add hc, ih h]

theorem outside_group {inner : List Char} (h : bracketFault? 0 inner = none) (rest : List Char) :
    outside 0 ('<' :: (inner ++ '>' :: rest)) = outside 0 rest := by
  rw [outside, if_pos rfl]
  exact outside_inner h ('>' :: rest)

theorem outside_eq_append (s : List Char) :
    outside 0 s = s.takeWhile (· ≠ '<') ++ outside 0 (s.dropWhile (· ≠ '<')) := by
  have hfront : '<' ∉ s.takeWhile (· ≠ '<') := by
    intro hmem
    simpa using List.mem_takeWhile_imp hmem
  rw [← outside_of_no_open hfront, List.takeWhile_append_dropWhile]

def erasedText (text : String) : String := .ofList (trim (outside 0 text.toList))

theorem erasedText_render {t : TypeExpr} (h : IsCanonical t) : erasedText t.render = t.base := by
  cases h with
  | @leaf base proper =>
    have houtside : outside 0 base.toList = base.toList := by
      simpa [outside] using outside_of_no_open proper.plain.1 []
    rw [erasedText, toList_render_leaf, houtside, proper.trimmed, String.ofList_toList]
    rfl
  | @node base args proper named args_ne arguments canonical =>
    have hinner : bracketFault? 0
        (List.intercalate [',', ' '] (args.map fun a => a.render.toList)) = none :=
      bracketFault?_intercalate (by decide)
        (List.forall_mem_map.2 fun a ha => balanced_render (canonical a ha))
    rw [erasedText, toList_render_node base args_ne, outside_of_no_open proper.plain.1,
      outside_group hinner [], outside, List.append_nil, proper.trimmed, String.ofList_toList]
    rfl

theorem trim_takeWhile_eq_iff (s : List Char) :
    trim (s.takeWhile (· ≠ '<')) = trim (outside 0 s) ↔
      Blank (outside 0 (s.dropWhile (· ≠ '<'))) := by
  rw [outside_eq_append s]
  constructor
  · intro h
    have hsqueeze := congrArg squeeze h
    rw [squeeze_trim, squeeze_trim, squeeze_append, List.self_eq_append_right] at hsqueeze
    exact squeeze_eq_nil_iff.1 hsqueeze
  · intro h
    exact (trim_append_blank h _).symm

end TypeExpr

open TypeExpr (outside erasedText)

namespace Java

def TypeRef.erased : TypeRef → TypeRef
  | .reference text => .reference text
  | .expr type => .reference type.base
  | .written text => .written (erasedText text)
  | .collector builder _ _ => .reference builder

def SourceUnit.allMethods (u : SourceUnit) : List Method :=
  u.methods ++ u.nestedClasses.flatMap (·.methods)

theorem Expr.texts_eq_map (names : Names) (es : List Expr) :
    Expr.texts names es = es.map (·.text names) := by
  induction es with
  | nil => rfl
  | cons e es ih => rw [Expr.texts, ih, List.map_cons]

end Java

namespace Reference

open Text

theorem takeDimensions_append (s : List Char) :
    (takeDimensions s).1 ++ (takeDimensions s).2 = s := by
  fun_induction takeDimensions s with
  | case1 cs d rest heq ih => rw [heq] at ih; rw [← ih]; rfl
  | case2 cs d rest heq ih => rw [heq] at ih; rw [← ih]; rfl
  | case3 => rfl

theorem className_append_dimensions {text : String} (htrim : trim text.toList = text.toList)
    (hbound : (ofText text).bound = "") :
    text = (ofText text).className ++ (ofText text).dimensions := by
  have hnamed : ∀ b ∈ wildcardBounds, b ≠ "" := by decide
  have hsplit : splitBound text.toList = ([], text.toList) := by
    simp only [ofText, htrim] at hbound
    unfold splitBound at hbound ⊢
    split at hbound
    · rename_i b hb
      rw [String.ofList_toList] at hbound
      exact absurd hbound (hnamed b (List.mem_of_find?_eq_some hb))
    · rfl
  have hdimensions := takeDimensions_append text.toList.reverse
  simp only [ofText, htrim, hsplit]
  rw [← String.ofList_append, ← List.reverse_append, hdimensions, List.reverse_reverse,
    String.ofList_toList]

end Reference

namespace Parameter

/-- What is outside of brackets behind the first of them; a type that is read has nothing there. -/
def trailing (p : Parameter) : List Char :=
  match p.type with
  | .parsed _ => []
  | .verbatim text => outside 0 (text.toList.dropWhile (· ≠ '<'))

theorem type_of_ofDecl {d : ParameterDecl} {p : Parameter} (h : ofDecl d = .ok p) :
    (d.verbatim = true ∧ p.type = .verbatim (.ofList (Text.trim d.type.toList))) ∨
      (d.verbatim = false ∧ ∃ t, TypeExpr.parse d.type = .ok t ∧ p.type = .parsed t.qualify) := by
  unfold ofDecl at h
  split_ifs at h with hverbatim
  · left
    obtain rfl := Except.ok.inj h
    exact ⟨hverbatim, rfl⟩
  · right
    refine ⟨by simpa using hverbatim, ?_⟩
    cases ht : TypeExpr.parse d.type with
    | error e =>
      rw [ht] at h
      cases h
    | ok t =>
      rw [ht] at h
      obtain rfl := Except.ok.inj h
      exact ⟨t, rfl, rfl⟩

theorem erased_of_ofDecl {d : ParameterDecl} {p : Parameter} (h : ofDecl d = .ok p) :
    p.typeRef.erased =
      if d.verbatim then .written (erasedText p.type.render)
      else .reference (erasedText p.type.render) := by
  rcases type_of_ofDecl h with ⟨hverbatim, htype⟩ | ⟨hverbatim, t, ht, htype⟩
  · rw [if_pos hverbatim, typeRef, htype]
    rfl
  · have hcanonical : t.qualify.IsCanonical :=
      (TypeExpr.isCanonical_of_denotes (TypeExpr.denotes_of_parse ht)).qualify
    rw [hverbatim, typeRef, htype, DeclaredType.render, TypeExpr.erasedText_render hcanonical]
    rfl

end Parameter

namespace Builder

open Java Text

variable {s : SupportClasses} {b : Builder}

theorem erasure_eq_erased_iff (p : Parameter) :
    erasure p = p.typeRef.erased ↔ Blank p.trailing := by
  unfold erasure Parameter.typeRef Parameter.trailing
  cases p.type with
  | parsed type => exact iff_of_true rfl blank_nil
  | verbatim text =>
    rw [← TypeExpr.trim_takeWhile_eq_iff]
    simp only [TypeRef.erased, erasedText, TypeRef.written.injEq, String.ofList_inj]

def Ordinary (s : SupportClasses) (b : Builder) (st : Stmt) : Prop :=
  (∃ step, st = .step step) ∨ st = b.construct s

theorem ordinary_step (step : Step) : Ordinary s b (.step step) := .inl ⟨step, rfl⟩

theorem ordinary_steps (steps : List Step) : ∀ st ∈ steps.map .step, Ordinary s b st := by
  rw [List.forall_mem_map]
  intro step _
  exact ordinary_step step

theorem ordinary_nullCheck (p : Parameter) : ∀ st ∈ p.nullCheck s, Ordinary s b st := by
  unfold Parameter.nullCheck
  split_ifs
  · exact ordinary_steps [.nullChecks s.preconditions [p.name]]
  · exact List.forall_mem_nil _

theorem Offered.ordinary {owner : Expr} {m : Method} (h : Offered s b owner m) :
    ∀ st ∈ m.body, Ordinary s b st := by
  cases h with
  | @setter p next notice known goes =>
    exact List.forall_mem_append.2 ⟨ordinary_nullCheck p, ordinary_steps
      [.assign owner p.name (.name p.name), .ret next.value]⟩
  | @innerSetter p next inner known goes wraps =>
    refine List.forall_mem_append.2 ⟨?_, ordinary_steps
      [.assign owner p.name (.call (.method (.static optionalClass) "of") [.name p.name]),
        .ret next.value]⟩
    split_ifs
    · exact List.forall_mem_nil _
    · exact ordinary_steps [.nullChecks s.preconditions [p.name]]
  | accessor => exact ordinary_steps [_, _]
  | build => exact List.forall_mem_singleton.2 (.inr rfl)
  | delegatedBuild => exact ordinary_steps [_]

theorem Outer.ordinary {m : Method} (h : Outer s b m) : ∀ st ∈ m.body, Ordinary s b st := by
  cases h with
  | hidden => exact ordinary_steps [_]
  | creator shape mem =>
    cases eq_of_mem_creators mem with
    | inl hm =>
      rw [hm]
      exact ordinary_steps [_]
    | inr hm =>
      rw [hm]
      exact ordinary_steps [_]
  | offered shape offered => exact offered.ordinary
  | @factory p shape known =>
    exact List.forall_mem_append.2 ⟨ordinary_nullCheck p, List.forall_mem_singleton.2 (.inr rfl)⟩
  | copy => exact ordinary_steps [_, _]

theorem ordinary_of_mem {m : Method} (hm : m ∈ (b.unit s).allMethods) :
    ∀ st ∈ m.body, Ordinary s b st := by
  cases written_of_mem hm with
  | outer outer => exact outer.ordinary
  | offered offered => exact offered.ordinary
  | stageConstructor p => exact ordinary_steps [_]
  | copyConstructor => exact List.forall_mem_map.2 fun p _ => ordinary_step _

theorem factoryMethod_mem (hshape : b.shape = .factory) {p : Parameter} (hp : p ∈ b.params) :
    b.factoryMethod s p ∈ (b.unit s).allMethods := by
  rw [SourceUnit.allMethods, methods_factory hshape]
  exact List.mem_append_left _ (List.mem_append_left _ (.tail _ (List.mem_map_of_mem hp)))

theorem exists_construct : ∃ m ∈ (b.unit s).allMethods, b.construct s ∈ m.body := by
  by_cases hshape : b.shape = .factory
  · obtain ⟨p, hparams⟩ := params_of_factory hshape
    have hp : p ∈ b.params := hparams ▸ List.mem_singleton_self p
    exact ⟨b.factoryMethod s p, factoryMethod_mem hshape hp, by simp [factoryMethod]⟩
  · obtain ⟨setters, isPublic, heq, -⟩ := methods_of_not_factory (s := s) hshape
    refine ⟨b.buildMethod s isPublic, List.mem_append_left _ ?_, List.mem_singleton_self _⟩
    rw [heq]
    simp

theorem construct_eq_reflective_iff {target : String} {erased : List TypeRef} {args : List Expr} :
    b.construct s = .reflective target erased args ↔
      b.construction = .reflective ∧ target = b.target ∧ erased = b.params.map erasure ∧
        args = b.params.map (argument s) := by
  unfold construct
  cases b.construction with
  | direct => simp
  | reflective => simp [eq_comm]
  | delegate implementation => simp

def literal (names : Names) (p : Parameter) : String := (erasure p).text names ++ ".class"

theorem marks_reflective (names : Names) (h : b.construction = .reflective) :
    ∃ before later, (b.construct s).marks names =
      before ++
        [.line (".getDeclaredConstructor(" ++
            ", ".intercalate (b.params.map (literal names)) ++ ");"),
          .dedent, .dedent, .line (Reflection.handle ++ ".setAccessible(true);"),
          .call ("return " ++ Reflection.handle ++ ".newInstance(")
            (b.params.map fun p => (argument s p).text names) ");"] ++
        later := by
  have hconstruct : b.construct s =
      .reflective b.target (b.params.map erasure) (b.params.map (argument s)) :=
    construct_eq_reflective_iff.2 ⟨h, rfl, rfl, rfl⟩
  rw [hconstruct, Stmt.marks, Expr.texts_eq_map, List.map_map, List.map_map]
  exact ⟨[_, _, _, _, _], _, rfl⟩

/--
A file that makes its target by reflection has one statement for it, which looks the constructor up
by one literal for each parameter in their order and calls it with one argument for each. The
literal is that of the erased type, the text without type arguments, unless there is text outside of
the brackets of a type that is written as it stands. That of a type that was read is its class name
with all array suffixes.
-/
theorem reflective_literals (h : b.construction = .reflective) :
    ((∃ m ∈ (b.unit s).allMethods, b.construct s ∈ m.body) ∧
      ∀ m ∈ (b.unit s).allMethods, ∀ target erased args,
        .reflective target erased args ∈ m.body → .reflective target erased args = b.construct s) ∧
    (∀ names, ∃ before later, (b.construct s).marks names =
      before ++
        [.line (".getDeclaredConstructor(" ++
            ", ".intercalate (b.params.map (literal names)) ++ ");"),
          .dedent, .dedent, .line (Reflection.handle ++ ".setAccessible(true);"),
          .call ("return " ++ Reflection.handle ++ ".newInstance(")
            (b.params.map fun p => (argument s p).text names) ");"] ++
        later) ∧
    (∀ p ∈ b.params, erasure p = p.typeRef.erased ↔ Blank p.trailing) ∧
    (∀ d, ∀ p ∈ b.params, Parameter.ofDecl d = .ok p →
      p.typeRef.erased =
        if d.verbatim then .written (erasedText p.type.render)
        else .reference (erasedText p.type.render)) ∧
    ∀ (i : Imports) (p : Parameter) (t : TypeExpr), p ∈ b.params → p.type = .parsed t →
      trim t.base.toList = t.base.toList → (Reference.ofText t.base).bound = "" →
        t.base = (Reference.ofText t.base).className ++ (Reference.ofText t.base).dimensions ∧
        literal i.display p = i.nameOf (Reference.ofText t.base).className ++
          (Reference.ofText t.base).dimensions ++ ".class" := by
  refine ⟨⟨exists_construct, ?_⟩, fun names => marks_reflective names h,
    fun p _ => erasure_eq_erased_iff p, fun d p _ hp => Parameter.erased_of_ofDecl hp, ?_⟩
  · intro m hm target erased args hmem
    rcases ordinary_of_mem hm _ hmem with ⟨step, hstep⟩ | hconstruct
    · cases hstep
    · exact hconstruct
  · intro i p t _ htype htrim hbound
    refine ⟨Reference.className_append_dimensions htrim hbound, ?_⟩
    rw [literal, erasure, htype]
    change i.display t.base ++ _ = _
    rw [Imports.display, hbound, String.empty_append]

def depot : Builder where
  target := "me.Depot"
  name := "me.builder.DepotBuilder"
  params := [
    { name := "name", type := .parsed (.leaf "java.lang.String") },
    { name := "ids", type := .parsed (.node "java.util.Set" [.leaf "java.lang.Long"]) },
    { name := "maps", type := .parsed (.leaf "com.acme.Map[][]") },
    { name := "stock", type := .verbatim "java.util.Map<String, java.util.List<T>> " }]
  construction := .reflective

theorem depot_erasures :
    depot.construction = .reflective ∧
      depot.params.map erasure =
        [.reference "java.lang.String", .reference "java.util.Set",
          .reference "com.acme.Map[][]", .written "java.util.Map"] ∧
      ∀ p ∈ depot.params, erasure p = p.typeRef.erased := by
  have hreflective : depot.construction = .reflective := rfl
  obtain ⟨-, -, herased, -⟩ := reflective_literals (s := {}) hreflective
  have htrailing : ∀ p ∈ depot.params, Blank p.trailing := by decide +kernel
  exact ⟨hreflective, by decide +kernel, fun p hp => (herased p hp).2 (htrailing p hp)⟩

def grid : Builder where
  target := "me.Grid"
  name := "me.builder.GridBuilder"
  params := [
    { name := "rows", type := .verbatim "java.util.List<String>[]" },
    { name := "first", type := .verbatim "me.Table<String>.Row" }]
  construction := .reflective
  copy := false

def gridNames : Imports := (grid.unit {}).imports grid.ownNames

theorem grid_not_erased :
    (¬ ∀ (b : Builder) (p : Parameter) (text : String), b.construction = .reflective →
      p ∈ b.params → p.type = .verbatim text → TypeExpr.bracketFault? 0 text.toList = none →
        erasure p = p.typeRef.erased) ∧
    grid.source {} = .ok ((grid.unit {}).text grid.ownNames) ∧
    grid.params.map (literal gridNames.display) =
      ["java.util.List.class", "me.Table.class"] ∧
    grid.params.map (·.typeRef.erased.text gridNames.display ++ ".class") =
      ["java.util.List[].class", "me.Table.Row.class"] := by
  refine ⟨?_, rfl, by decide +kernel, by decide +kernel⟩
  intro h
  have hrows := h grid _ "java.util.List<String>[]" rfl List.mem_cons_self rfl (by decide)
  rw [erasure_eq_erased_iff] at hrows
  exact absurd hrows (by decide)

end Builder

end StagedBuilder
