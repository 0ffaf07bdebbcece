import StagedBuilder.Proofs.ImportLaws
import StagedBuilder.Proofs.LineLaws
import StagedBuilder.Proofs.SetterSites

namespace StagedBuilder

open Text

namespace Java

namespace TypeRef

/-- The type with the class `type` in the place of what it reaches. -/
def leadingTo (type : String) : TypeRef → TypeRef
  | .collector builder elements next => .collector builder elements (next.leadingTo type)
  | _ => .written type

def around (names : Names) : TypeRef → String × String
  | .collector builder elements next =>
    (names builder ++ "<" ++ ", ".intercalate (elements.map (·.renderWith names)) ++ ", " ++
      (next.around names).1, (next.around names).2 ++ ">")
  | _ => ("", "")

variable {names : Names}

theorem text_eq_around (t : TypeRef) :
    t.text names = (t.around names).1 ++ t.reached.text names ++ (t.around names).2 := by
  induction t with
  | reference text => exact (String.append_empty.trans String.empty_append).symm
  | expr type => exact (String.append_empty.trans String.empty_append).symm
  | written text => exact (String.append_empty.trans String.empty_append).symm
  | collector builder elements next ih =>
    rw [text, ih, around, reached]
    simp only [String.append_assoc]

theorem around_leadingTo (type : String) (t : TypeRef) :
    (t.leadingTo type).around names = t.around names := by
  induction t with
  | collector builder elements next ih => rw [leadingTo, around, around, ih]
  | _ => rfl

end TypeRef

inductive Line
  | fixed (text : String)
  | naming (before after : String)

def Line.text (type : String) : Line → String
  | .fixed text => text
  | .naming before after => before ++ type ++ after

namespace Method

variable {names : Names} {m : Method} {type : String}

def leadingTo (type : String) (m : Method) : Method :=
  { m with result := m.result.map (·.leadingTo type) }

def headerLine (names : Names) (m : Method) : Line :=
  let access :=
    (if m.isPublic then "public " else "private ") ++ if m.isStatic then "static " else ""
  let call := m.name ++ "(" ++ ", ".intercalate (m.formals.map (·.text names)) ++ ") \x7b"
  match m.result with
  | none => .fixed (access ++ call)
  | some t => .naming (access ++ (t.around names).1) ((t.around names).2 ++ " " ++ call)

def introduction (names : Names) (m : Method) : List Mark :=
  .blank :: (m.doc.map (·.marks)).getD [] ++ m.markers.map fun r => .line ("@" ++ names r)

def interior (names : Names) (m : Method) : List Mark :=
  m.body.flatMap (·.marks names) ++ [.close]

def lines (names : Names) (m : Method) : List Line :=
  ((m.introduction names).flatMap (·.shown)).map .fixed ++
    m.headerLine names :: ((m.interior names).flatMap (·.shown)).map .fixed

theorem marks_eq (hflowing : m.flowing = false) :
    m.marks names = m.introduction names ++
      .line (m.head names ++ ", ".intercalate (m.formals.map (·.text names)) ++ ") \x7b") ::
        m.interior names := by
  rw [marks, hflowing, introduction, interior]
  simp

theorem text_headerLine (h : ∀ t ∈ m.result, t.reached = .written type) :
    (m.headerLine names).text type =
      m.head names ++ ", ".intercalate (m.formals.map (·.text names)) ++ ") \x7b" := by
  rw [headerLine, head]
  cases hresult : m.result with
  | none => simp [Line.text, String.append_assoc]
  | some t =>
    have hreached : t.reached.text names = type := by
      rw [h t hresult]
      rfl
    simp [Line.text, String.append_assoc, t.text_eq_around, hreached]

theorem shown_marks (hflowing : m.flowing = false)
    (h : ∀ t ∈ m.result, t.reached = .written type) :
    (m.marks names).flatMap (·.shown) = (m.lines names).map (·.text type) := by
  have hfixed (texts : List String) : (texts.map Line.fixed).map (·.text type) = texts := by
    rw [List.map_map]
    exact List.map_id texts
  rw [marks_eq hflowing, ← text_headerLine h, lines, List.map_append, List.map_cons, hfixed,
    hfixed, List.flatMap_append, List.flatMap_cons]
  rfl

theorem lines_leadingTo (type : String) (m : Method) :
    (m.leadingTo type).lines names = m.lines names := by
  have hheader : (m.leadingTo type).headerLine names = m.headerLine names := by
    cases hresult : m.result with
    | none => simp [headerLine, leadingTo, hresult]
    | some t => simp [headerLine, leadingTo, hresult, TypeRef.around_leadingTo]
  rw [lines, hheader]
  rfl

theorem forall_mem_marks {P : Mark → Prop} (hflowing : m.flowing = false) (hblank : P .blank)
    (hclose : P .close) (hline : ∀ text, P (.line text))
    (hbody : ∀ st ∈ m.body, ∀ mark ∈ st.marks names, P mark) : ∀ mark ∈ m.marks names, P mark := by
  have hdoc : ∀ mark ∈ (m.doc.map (·.marks)).getD [], P mark := by
    cases m.doc with
    | none => exact fun _ hmark => nomatch hmark
    | some d =>
      rw [Option.map_some, Option.getD_some, Doc.marks, List.cons_append, List.forall_mem_cons,
        List.forall_mem_append]
      refine ⟨hline _, List.forall_mem_map.2 fun _ _ => hline _, ?_⟩
      simp [hline]
  have hmarkers : ∀ mark ∈ m.markers.map fun r => Mark.line ("@" ++ names r), P mark :=
    List.forall_mem_map.2 fun _ _ => hline _
  have hinterior : ∀ mark ∈ m.interior names, P mark := by
    rw [interior, List.forall_mem_append, List.forall_mem_flatMap, List.forall_mem_singleton]
    exact ⟨hbody, hclose⟩
  rw [marks_eq hflowing, introduction, List.forall_mem_append, List.cons_append,
    List.forall_mem_cons, List.forall_mem_append, List.forall_mem_cons]
  exact ⟨⟨hblank, hdoc, hmarkers⟩, hline _, hinterior⟩

end Method

def offers (methods : List Method) : List Method :=
  methods.filter fun m => m.isPublic && !m.isStatic

theorem offers_append (ms ms' : List Method) : offers (ms ++ ms') = offers ms ++ offers ms' :=
  List.filter_append ..

structure Method.Fluent (names : Names) (type : String) (m : Method) : Prop where
  offered : (m.isPublic && !m.isStatic) = true
  flowing : m.flowing = false
  reached : ∀ t ∈ m.result, t.reached = .written type
  body : ∀ st ∈ m.body, ∀ mark ∈ st.marks names, mark.inLine = mark

/-- What the methods write from some depth on. -/
def Writes (names : Names) (ms : List Method) (text : String) : Prop :=
  ∃ depth, text = (Sheet.laid depth (ms.flatMap (·.marks names))).text

section Writes

variable {names : Names} {ms : List Method} {type text text' : String}

theorem Writes.exists_above (names : Names) (ms : List Method) (depth : Nat) (marks : List Mark) :
    ∃ text depth', Writes names ms text ∧
      (Sheet.laid depth (ms.flatMap (·.marks names) ++ marks)).text =
        text ++ (Sheet.laid depth' marks).text :=
  ⟨_, _, ⟨depth, rfl⟩, Sheet.text_laid_append ..⟩

theorem Writes.outdented (h : Writes names ms text) (hms : ∀ m ∈ ms, m.Fluent names type) :
    outdented text = (ms.flatMap (·.lines names)).flatMap (outdented <| ·.text type) ++ [[]] := by
  obtain ⟨depth, rfl⟩ := h
  have hwhole : ∀ mark ∈ ms.flatMap (·.marks names), mark.inLine = mark := by
    rw [List.forall_mem_flatMap]
    intro m hm
    exact Method.forall_mem_marks (hms m hm).flowing rfl rfl (fun _ => rfl) (hms m hm).body
  have hshown : (ms.flatMap (·.marks names)).flatMap (·.shown) =
      (ms.flatMap (·.lines names)).map (·.text type) := by
    rw [List.flatMap_assoc, List.map_flatMap]
    exact List.flatMap_congr fun m hm =>
      Method.shown_marks (hms m hm).flowing (hms m hm).reached
  rw [Sheet.outdented_laid hwhole, hshown, List.flatMap_map]

theorem Writes.squeeze_eq (h : Writes names ms text) (h' : Writes names ms text')
    (hms : ∀ m ∈ ms, ∀ mark ∈ m.marks names, mark.Flows) :
    squeeze text.toList = squeeze text'.toList := by
  obtain ⟨depth, rfl⟩ := h
  obtain ⟨depth', rfl⟩ := h'
  have hflows : ∀ mark ∈ ms.flatMap (·.marks names), mark.Flows := List.forall_mem_flatMap.2 hms
  rw [Sheet.squeeze_laid hflows, Sheet.squeeze_laid hflows]

end Writes

theorem SourceUnit.exists_text_eq (u : SourceUnit) (start : Imports) :
    ∃ above depth, u.text start = above ++ (Sheet.laid depth
      (u.members.flatMap (·.marks (u.imports start).display) ++ [.close])).text := by
  let front := Sheet.laid 0 (u.front (u.imports start).display)
  refine ⟨front.finish (u.imports start), front.depth, ?_⟩
  rw [text_eq_join, stretches, List.map_cons, String.join_cons, Passage.join_stretches, later,
    List.flatMap_append, List.flatMap_assoc]
  simp only [Member.marks_passages]
  rfl

end Java

namespace Builder

open Java

variable {s : SupportClasses} {b : Builder} {p : Parameter} {names : Names} {owner : Expr}
  {type : String} {m : Method}

def settersIn (s : SupportClasses) (b : Builder) (type : String) : List Method :=
  b.params.flatMap fun p => fluentSetters s p (fluentSite .this type)

theorem fluentSetters_leadingTo (other : String) :
    fluentSetters s p (fluentSite owner other) =
      (fluentSetters s p (fluentSite owner type)).map (·.leadingTo other) := by
  have hvalue : valueSetter s p (fluentSite owner other) =
      (valueSetter s p (fluentSite owner type)).map (·.leadingTo other) := by
    unfold valueSetter
    split
    · rfl
    · rfl
  have hcollector : collector s p (fluentSite owner other) =
      (collector s p (fluentSite owner type)).map (·.leadingTo other) := by
    unfold collector
    split
    · rfl
    · rfl
  rw [fluentSetters, fluentSetters, hvalue, hcollector, List.map_append, List.map_append]
  rfl

theorem settersIn_leadingTo (other : String) :
    settersIn s b other = (settersIn s b type).map (·.leadingTo other) := by
  rw [settersIn, settersIn, List.map_flatMap]
  exact List.flatMap_congr fun p _ => fluentSetters_leadingTo other

theorem inLine_of_checked {checks : List Stmt} {e value next : Expr} {field : String}
    (hchecks : ∀ st ∈ checks, ∃ checker checked, st = .step (.nullChecks checker checked)) :
    ∀ st ∈ checks ++ [.step (.assign e field value), .step (.ret next)],
      ∀ mark ∈ st.marks names, mark.inLine = mark := by
  rw [List.forall_mem_append]
  constructor
  · intro st hst
    obtain ⟨checker, checked, rfl⟩ := hchecks st hst
    exact List.forall_mem_map.2 fun _ _ => rfl
  · simp [Stmt.marks, Step.marks, Mark.inLine]

theorem fluent_of_mem (hm : m ∈ fluentSetters s p (fluentSite owner type)) :
    m.Fluent names type := by
  rw [fluentSetters, List.mem_append, List.mem_append, List.mem_singleton] at hm
  rcases hm with (hm | hm) | rfl
  · obtain ⟨inner, -, rfl⟩ := eq_of_mem_valueSetter hm
    refine ⟨rfl, rfl, fun t ht => by cases ht; rfl, inLine_of_checked fun st hst => ?_⟩
    split_ifs at hst
    · cases hst
    · exact ⟨_, _, List.mem_singleton.1 hst⟩
  · obtain ⟨c, elements, -, rfl⟩ := eq_of_mem_collector hm
    exact ⟨rfl, rfl, fun t ht => by cases ht; rfl, inLine_of_checked (List.forall_mem_nil _)⟩
  · refine ⟨rfl, rfl, fun t ht => by cases ht; rfl, inLine_of_checked fun st hst => ?_⟩
    rw [Parameter.nullCheck, List.mem_ite_nil_right] at hst
    exact ⟨_, _, List.mem_singleton.1 hst.2⟩

theorem fluent_settersIn : ∀ m ∈ settersIn s b type, m.Fluent names type :=
  List.forall_mem_flatMap.2 fun _ _ _ => fluent_of_mem

theorem offers_settersIn : offers (settersIn s b type) = settersIn s b type :=
  List.filter_eq_self.2 fun m hm => (@fluent_settersIn s b id type m hm).offered

theorem offers_flat (hflat : b.shape = .flat) :
    offers (b.unit s).methods = settersIn s b b.simpleName ++ [b.buildMethod s true] := by
  have hcreators : offers (b.hiddenConstructor :: b.creators) = [] := by
    unfold creators
    split_ifs
    · rfl
    · rfl
  have hcopy : offers (if b.emitsCopy then [b.copyMethod s] else []) = [] := by
    split_ifs
    · rfl
    · rfl
  rw [methods_flat hflat, flatMethods, offers_append, offers_append, offers_append, hcreators,
    hcopy, ← settersIn, offers_settersIn, List.append_nil]
  rfl

theorem offers_copyClass :
    offers (b.copyClass s).methods = settersIn s b copyName ++ [b.buildMethod s true] := by
  have hmethods : (b.copyClass s).methods =
      [b.copyConstructor] ++ settersIn s b copyName ++ [b.buildMethod s true] := rfl
  rw [hmethods, offers_append, offers_append, offers_settersIn]
  rfl

theorem flows_construct (hparams : b.params ≠ []) :
    ∀ mark ∈ (b.construct s).marks names, mark.Flows := by
  have hargs : Expr.texts names (b.params.map (argument s)) ≠ [] := by
    obtain ⟨p, ps, hps⟩ := List.exists_cons_of_ne_nil hparams
    rw [hps]
    exact List.cons_ne_nil _ _
  have hcall {head : String} (hlast : head.toList.getLast? = some '(') :
      (Mark.call head (Expr.texts names (b.params.map (argument s))) ");").Flows :=
    ⟨hlast, hargs, by decide⟩
  have hopen (head : String) : (head ++ "(").toList.getLast? = some '(' := by
    rw [String.toList_append]
    exact List.getLast?_concat
  cases hconstruction : b.construction with
  | direct =>
    simp only [construct, hconstruction, Stmt.marks, Step.marks, List.forall_mem_singleton]
    exact hcall (hopen _)
  | delegate implementation =>
    simp only [construct, hconstruction, Stmt.marks, Step.marks, List.forall_mem_singleton]
    exact hcall (hopen _)
  | reflective =>
    have hfailures (texts : List String) :
        ∀ mark ∈ failureLines Reflection.failure texts, mark.Flows := by
      fun_induction failureLines Reflection.failure texts with
      | case1 => exact fun _ hmark => nomatch hmark
      | case2 c => exact List.forall_mem_singleton.2 trivial
      | case3 c cs hmore ih => exact List.forall_mem_cons.2 ⟨trivial, ih⟩
    simp only [construct, hconstruction, Stmt.marks, List.forall_mem_append, List.forall_mem_cons]
    refine ⟨⟨?_, hfailures _⟩, ?_⟩
    · have hnewInstance :
        ("return " ++ Reflection.handle ++ ".newInstance(").toList.getLast? = some '(' := by decide
      simp only [Mark.Flows, true_and]
      exact ⟨hcall hnewInstance, nofun⟩
    · simp [Mark.Flows]

theorem flows_buildMethod (hparams : b.params ≠ []) :
    ∀ mark ∈ (b.buildMethod s true).marks names, mark.Flows :=
  Method.forall_mem_marks rfl trivial trivial (fun _ => trivial)
    (List.forall_mem_singleton.2 (flows_construct hparams))

theorem exists_marks_eq (hflat : b.shape = .flat) (hcopy : b.emitsCopy = true) (names : Names) :
    ∃ before between after, (b.unit s).members.flatMap (·.marks names) ++ [.close] =
      before ++ ((settersIn s b b.simpleName).flatMap (·.marks names) ++
        ([b.buildMethod s true].flatMap (·.marks names) ++
          (between ++ ((settersIn s b copyName).flatMap (·.marks names) ++
            ([b.buildMethod s true].flatMap (·.marks names) ++ after))))) := by
  refine ⟨(b.hiddenConstructor :: b.creators).flatMap (·.marks names),
    (b.copyMethod s).marks names ++
      .blank :: .line ("public static final class " ++ copyName ++ " \x7b") ::
        fieldMarks names (b.copyClass s).fields ++ b.copyConstructor.marks names,
    [.close, .close], ?_⟩
  have hmembers : (b.unit s).members = (b.flatMethods s).map .method ++
      [.method (b.copyMethod s), .nested (b.copyClass s)] := by
    simp only [unit, shapeMembers, hflat, copyMembers, hcopy, if_true]
  have hmethods (ms : List Method) :
      (ms.map Member.method).flatMap (·.marks names) = ms.flatMap (·.marks names) :=
    List.flatMap_map ..
  rw [hmembers, flatMethods, List.flatMap_append, hmethods]
  simp [Member.marks, NestedClass.marks, settersIn, copyClass]

theorem register_eq_display {u : SourceUnit} {start : Imports} {before later : List String}
    {r : String} (h : u.uses = before ++ r :: later) :
    ((start.noteAll before).register r).1 = (u.imports start).display r := by
  have hused : NameEvent.ofReference r ∈ (before ++ [r]).map NameEvent.ofReference := by simp
  have hsplit : (before ++ r :: later).map NameEvent.ofReference =
      (before ++ [r]).map NameEvent.ofReference ++ later.map NameEvent.ofReference := by simp
  calc
    ((start.noteAll before).register r).1 = (start.noteAll (before ++ [r])).display r := by
      rw [Imports.noteAll, Imports.noteAll, List.foldl_append]
      rfl
    _ = (start.noteAll (before ++ r :: later)).display r := by
      rw [Imports.noteAll_eq, Imports.noteAll_eq, hsplit, Imports.applyAll_append,
        Imports.display_applyAll _ hused]
    _ = (u.imports start).display r := by rw [SourceUnit.imports, h]

theorem exists_written (hflat : b.shape = .flat) (hcopy : b.emitsCopy = true) :
    let u := b.unit s
    let names := (u.imports b.ownNames).display
    ∃ above outer outerBuild between inner innerBuild below,
      u.text b.ownNames =
        above ++ outer ++ outerBuild ++ between ++ inner ++ innerBuild ++ below ∧
      Writes names (settersIn s b b.simpleName) outer ∧
      Writes names [b.buildMethod s true] outerBuild ∧
      Writes names (settersIn s b copyName) inner ∧
      Writes names [b.buildMethod s true] innerBuild := by
  intro u names
  obtain ⟨front, depth, htext⟩ := u.exists_text_eq b.ownNames
  obtain ⟨before, between, after, hmarks⟩ := exists_marks_eq (s := s) hflat hcopy names
  rw [hmarks, Sheet.text_laid_append] at htext
  obtain ⟨outer, _, houter, hbelow⟩ := Writes.exists_above names (settersIn s b b.simpleName) _ _
  rw [hbelow] at htext
  obtain ⟨outerBuild, depth₁, houterBuild, hbelow⟩ :=
    Writes.exists_above names [b.buildMethod s true] _ _
  rw [hbelow, Sheet.text_laid_append] at htext
  obtain ⟨inner, _, hinner, hbelow⟩ := Writes.exists_above names (settersIn s b copyName) _ _
  rw [hbelow] at htext
  obtain ⟨innerBuild, depth₂, hinnerBuild, hbelow⟩ :=
    Writes.exists_above names [b.buildMethod s true] _ _
  rw [hbelow] at htext
  refine ⟨front ++ (Sheet.laid depth before).text, outer, outerBuild,
    (Sheet.laid depth₁ between).text, inner, innerBuild, (Sheet.laid depth₂ after).text, ?_,
    houter, houterBuild, hinner, hinnerBuild⟩
  simp only [htext, String.append_assoc]

/--
The class that starts from an instance offers the setters of the outer class, in their order, and
the same way to build. The lines of its setters are theirs but for the class that is named.
-/
theorem copy_mirrors_outer {text : String} (h : b.source s = .ok text) (hflat : b.shape = .flat)
    (hparams : b.params ≠ []) (hcopy : b.emitsCopy = true) :
    let u := b.unit s
    let names := (u.imports b.ownNames).display
    let build := b.buildMethod s true
    (∀ before r later, u.uses = before ++ r :: later →
      ((b.ownNames.noteAll before).register r).1 = names r) ∧
    ∃ c ∈ u.nestedClasses, c.name = copyName ∧ ∃ setters : List Method,
      offers u.methods = setters ++ [build] ∧
      offers c.methods = setters.map (·.leadingTo copyName) ++ [build] ∧
      setters.map (·.leadingTo b.simpleName) = setters ∧
      ∃ above outer outerBuild between inner innerBuild below,
        text = above ++ outer ++ outerBuild ++ between ++ inner ++ innerBuild ++ below ∧
        Writes names setters outer ∧ Writes names [build] outerBuild ∧
        Writes names (setters.map (·.leadingTo copyName)) inner ∧ Writes names [build] innerBuild ∧
        outdented outer =
          (setters.flatMap (·.lines names)).flatMap (outdented <| ·.text b.simpleName) ++ [[]] ∧
        outdented inner =
          (setters.flatMap (·.lines names)).flatMap (outdented <| ·.text copyName) ++ [[]] ∧
        squeeze outerBuild.toList = squeeze innerBuild.toList := by
  intro u names build
  let setters := settersIn s b b.simpleName
  have hmirror : settersIn s b copyName = setters.map (·.leadingTo copyName) :=
    settersIn_leadingTo copyName
  have hlines : (setters.map (·.leadingTo copyName)).flatMap (·.lines names) =
      setters.flatMap (·.lines names) := by
    rw [List.flatMap_map]
    exact List.flatMap_congr fun m _ => m.lines_leadingTo copyName
  obtain ⟨above, outer, outerBuild, between, inner, innerBuild, below, htext, houter, houterBuild,
    hinner, hinnerBuild⟩ := exists_written (s := s) hflat hcopy
  refine ⟨fun before r later => register_eq_display, _, copyClass_mem hcopy, rfl, setters,
    offers_flat hflat, hmirror ▸ offers_copyClass, (settersIn_leadingTo b.simpleName).symm, above,
    outer, outerBuild, between, inner, innerBuild, below, (of_source_eq_ok h).2.trans htext, houter,
    houterBuild, hmirror ▸ hinner, hinnerBuild, houter.outdented fluent_settersIn, ?_, ?_⟩
  · rw [hinner.outdented fluent_settersIn, hmirror, hlines]
  · apply houterBuild.squeeze_eq hinnerBuild
    exact List.forall_mem_singleton.2 (flows_buildMethod hparams)

def album : Builder where
  target := "me.Album"
  name := "me.builder.AlbumBuilder"
  params := [
    { name := "tracks", type := .parsed (.node "java.util.List" [.leaf "String"])
      acceptsNull := true },
    { name := "title", type := .parsed (.node optionalClass [.leaf "String"]) }]
  construction := .direct

theorem album_mirrored :
    album.source {} = .ok ((album.unit {}).text album.ownNames) ∧ album.shape = .flat ∧
      album.params ≠ [] ∧ album.emitsCopy = true ∧
      ∃ c ∈ (album.unit {}).nestedClasses, c.name = copyName ∧ ∃ setters : List Method,
        setters.map (·.name) = ["tracks", "tracks", "title", "title"] ∧
        offers (album.unit {}).methods = setters ++ [album.buildMethod {} true] ∧
        offers c.methods = setters.map (·.leadingTo copyName) ++ [album.buildMethod {} true] := by
  have hparams : album.params ≠ [] := nofun
  obtain ⟨-, c, hc, hname, setters, houter, hinner, -⟩ :=
    copy_mirrors_outer (s := {}) (b := album) rfl rfl hparams rfl
  have hsetters : setters = settersIn {} album album.simpleName :=
    List.append_cancel_right (houter.symm.trans (offers_flat rfl))
  exact ⟨rfl, rfl, hparams, rfl, c, hc, hname, setters, by rw [hsetters]; rfl, houter, hinner⟩

end Builder

end StagedBuilder
