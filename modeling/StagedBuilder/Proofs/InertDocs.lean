import StagedBuilder.Proofs.CommentLaws
import StagedBuilder.Proofs.OutsideLaws
import StagedBuilder.Proofs.OwnNames

namespace StagedBuilder

open Java Text

def Parameter.bare (p : Parameter) : Parameter := { p with doc := none }

namespace Parameter

theorem checkAfter_bare (seen : List String) (ps : List Parameter) :
    checkAfter seen (ps.map bare) = checkAfter seen ps := by
  induction ps generalizing seen with
  | nil => rfl
  | cons p ps ih =>
    rw [List.map_cons, checkAfter, checkAfter, ih]
    rfl

end Parameter

namespace Builder

def bare (b : Builder) : Builder := { b with params := b.params.map .bare }

section Bare

variable {s : SupportClasses} {b : Builder} {p : Parameter} {site : Site}

@[simp] theorem mandatory_bare (b : Builder) : b.bare.mandatory = b.mandatory.map .bare :=
  List.filter_map

@[simp] theorem optional_bare (b : Builder) : b.bare.optional = b.optional.map .bare :=
  List.filter_map

@[simp] theorem shape_bare (b : Builder) : b.bare.shape = b.shape := by
  unfold shape
  rw [mandatory_bare, optional_bare]
  rcases b.mandatory with _ | ⟨p, _ | ⟨q, ps⟩⟩
  · rfl
  · cases b.optional <;> rfl
  · rfl

theorem stageNames_bare (b : Builder) : b.bare.stageNames = b.stageNames := by
  have hname : (fun p : Parameter => stageName p.bare.name) = fun p => stageName p.name := rfl
  unfold stageNames
  rw [shape_bare, mandatory_bare, optional_bare, List.isEmpty_map, ← List.map_dropLast]
  cases b.shape with
  | flat => rfl
  | factory => rfl
  | staged =>
    dsimp only
    split_ifs
    · rw [List.map_map]
      rfl
    · rw [List.map_map]
      rfl

theorem ownNames_bare (b : Builder) : b.bare.ownNames = b.ownNames := by
  unfold ownNames
  rw [stageNames_bare]
  rfl

theorem construct_bare (b : Builder) : b.bare.construct s = b.construct s := by
  have harguments : (b.params.map .bare).map (argument s) = b.params.map (argument s) :=
    List.map_map
  have herased : (b.params.map .bare).map erasure = b.params.map erasure := List.map_map
  unfold construct bare
  rw [harguments, herased]

theorem collector_bare : collector s p.bare site = collector s p site := rfl

theorem valueSetter_bare :
    (valueSetter s p.bare site).map .bare = (valueSetter s p site).map Method.bare := by
  have hwrapped : p.bare.wrapped? = p.wrapped? := rfl
  have htype : p.bare.type = p.type := rfl
  unfold valueSetter
  rw [hwrapped, htype]
  cases p.type with
  | verbatim => rfl
  | parsed type =>
    cases p.wrapped? with
    | none => rfl
    | some inner => rfl

theorem fluentSetters_bare :
    (fluentSetters s p.bare site).map .bare = (fluentSetters s p site).map Method.bare := by
  simp only [fluentSetters, List.map_append, valueSetter_bare, collector_bare]
  rfl

theorem mandatorySetters_bare :
    (mandatorySetters s p.bare site).map .bare = (mandatorySetters s p site).map Method.bare := by
  simp only [mandatorySetters, List.map_append, collector_bare]
  rfl

theorem flatMap_fluentSetters_bare (ps : List Parameter) (site : Site) :
    ((ps.map .bare).flatMap fun p => fluentSetters s p site).map .bare =
      (ps.flatMap fun p => fluentSetters s p site).map Method.bare := by
  rw [List.flatMap_map, List.map_flatMap, List.map_flatMap]
  exact congrArg (List.flatMap · ps) (funext fun p => fluentSetters_bare)

theorem buildMethod_bare (isPublic : Bool) :
    b.bare.buildMethod s isPublic = b.buildMethod s isPublic := by
  unfold buildMethod
  rw [construct_bare]
  rfl

theorem stage_bare {ms ms' : List Method} (h : ms.map Method.bare = ms'.map .bare) :
    (b.bare.stage p.bare ms).bare = (b.stage p ms').bare := by
  simp only [stage, NestedClass.bare, List.map_cons, h]
  rfl

theorem waitingMethods_bare (current next : Parameter) (isLast : Bool) :
    (waitingMethods s b.bare current.bare next.bare isLast).map .bare =
      (waitingMethods s b current next isLast).map Method.bare := by
  have halways : b.bare.alwaysBuild = b.alwaysBuild := rfl
  unfold waitingMethods
  rw [optional_bare, List.isEmpty_map, halways]
  split_ifs
  · rw [List.map_append, List.map_append, mandatorySetters_bare]
    rfl
  · exact mandatorySetters_bare
  · exact mandatorySetters_bare

theorem optionalMethods_bare (last : Parameter) :
    (optionalMethods s b.bare last.bare).map .bare =
      (optionalMethods s b last).map Method.bare := by
  simp only [optionalMethods, optional_bare, List.map_append, flatMap_fluentSetters_bare]
  rfl

theorem stagesFrom_bare (ps : List Parameter) :
    (b.bare.stagesFrom s (ps.map .bare)).map .bare =
      (b.stagesFrom s ps).map NestedClass.bare := by
  induction ps with
  | nil => rfl
  | cons current ps ih =>
    cases ps with
    | nil =>
      rw [List.map_singleton, stagesFrom, stagesFrom, optional_bare, List.isEmpty_map]
      split_ifs
      · rfl
      · rw [List.map_singleton, List.map_singleton, stage_bare (optionalMethods_bare current)]
    | cons next ps =>
      rw [List.map_cons, List.map_cons, stagesFrom, stagesFrom, List.isEmpty_map, List.map_cons,
        List.map_cons, stage_bare (waitingMethods_bare current next ps.isEmpty)]
      exact congrArg (_ :: ·) ih

theorem flatMethods_bare :
    (b.bare.flatMethods s).map .bare = (b.flatMethods s).map Method.bare := by
  have hparams : b.bare.params = b.params.map .bare := rfl
  simp only [flatMethods, List.map_append, hparams, flatMap_fluentSetters_bare, buildMethod_bare]
  rfl

theorem factoryMethod_bare : b.bare.factoryMethod s p.bare = b.factoryMethod s p := by
  unfold factoryMethod
  rw [construct_bare]
  rfl

theorem stagedMethods_bare :
    (b.bare.stagedMethods s).map .bare = (b.stagedMethods s).map Method.bare := by
  simp only [stagedMethods, List.map_append, mandatory_bare, buildMethod_bare]
  cases b.mandatory with
  | nil => rfl
  | cons first rest =>
    have hfirst : (mandatorySetters s first.bare (nextSite .this first.bare)).map .bare =
        (mandatorySetters s first (nextSite .this first)).map Method.bare := mandatorySetters_bare
    simp only [List.map_cons, List.head?_cons, Option.map_some, Option.getD_some, hfirst]
    rfl

theorem copyClass_bare : (b.bare.copyClass s).bare = (b.copyClass s).bare := by
  have hparams : b.bare.params = b.params.map .bare := rfl
  have hfields : (b.params.map .bare).map (field · false) = b.params.map (field · false) :=
    List.map_map
  have hconstructor : b.bare.copyConstructor = b.copyConstructor := by
    unfold copyConstructor
    rw [hparams, List.map_map]
    rfl
  simp only [copyClass, NestedClass.bare, List.map_append, List.map_cons, hparams, hfields,
    hconstructor, flatMap_fluentSetters_bare, buildMethod_bare]

theorem copyMembers_bare :
    (b.bare.copyMembers s).map .bare = (b.copyMembers s).map Member.bare := by
  have hemits : b.bare.emitsCopy = b.emitsCopy := rfl
  unfold copyMembers
  rw [hemits]
  split_ifs
  · exact congrArg (fun c => [Member.method (b.copyMethod s).bare, .nested c]) copyClass_bare
  · rfl

theorem members_bare {ms ms' : List Method} (h : ms.map Method.bare = ms'.map .bare) :
    (ms.map Member.method ++
        (b.bare.stagesFrom s b.bare.mandatory).map Member.nested).map Member.bare =
      (ms'.map Member.method ++ (b.stagesFrom s b.mandatory).map Member.nested).map .bare := by
  have hmethods (ms : List Method) :
      (ms.map Member.method).map .bare = (ms.map Method.bare).map Member.method := by
    rw [List.map_map, List.map_map]
    rfl
  have hnested (cs : List NestedClass) :
      (cs.map Member.nested).map .bare = (cs.map NestedClass.bare).map Member.nested := by
    rw [List.map_map, List.map_map]
    rfl
  rw [List.map_append, List.map_append, hmethods, hmethods, hnested, hnested, h, mandatory_bare,
    stagesFrom_bare]

theorem shapeMembers_bare :
    (b.bare.shapeMembers s).map .bare = (b.shapeMembers s).map Member.bare := by
  have hshape : b.bare.shape = b.shape := shape_bare b
  cases h : b.shape with
  | flat =>
    rw [shapeMembers_flat h, shapeMembers_flat (hshape.trans h)]
    exact members_bare flatMethods_bare
  | factory =>
    have hfactory : (b.params.map .bare).map (b.bare.factoryMethod s) =
        b.params.map (b.factoryMethod s) := by
      rw [List.map_map]
      exact List.map_congr_left fun p _ => factoryMethod_bare
    rw [shapeMembers_factory h, shapeMembers_factory (hshape.trans h)]
    exact members_bare (congrArg (fun ms => (b.hiddenConstructor :: ms).map Method.bare) hfactory)
  | staged =>
    rw [shapeMembers_staged h, shapeMembers_staged (hshape.trans h)]
    exact members_bare stagedMethods_bare

theorem unit_bare (b : Builder) : (b.bare.unit s).bare = (b.unit s).bare := by
  have hfields : (b.params.map .bare).map (field · true) = b.params.map (field · true) :=
    List.map_map
  have hmembers : (b.bare.shapeMembers s ++ b.bare.copyMembers s).map .bare =
      (b.shapeMembers s ++ b.copyMembers s).map Member.bare := by
    rw [List.map_append, List.map_append, shapeMembers_bare, copyMembers_bare]
  simp only [unit, SourceUnit.bare, shape_bare, hmembers]
  rw [show b.bare.params = b.params.map .bare from rfl, hfields]
  rfl

end Bare

section Quiet

variable {s : SupportClasses} {b : Builder} {p : Parameter} {notice : Notice} {d : Doc}

/-- No word that is said of the parameter ends with an opening brace. -/
def Quiet (p : Parameter) : Prop := ∀ w ∈ said p, w.getLast? ≠ some '\x7b'

instance (p : Parameter) : Decidable (Quiet p) := List.decidableBAll _ _

theorem Quiet.told (h : Quiet p) : ∀ w ∈ told p notice, w.getLast? ≠ some '\x7b' := by
  have hnotice : ∀ w ∈ words notice.text.toList, w.getLast? ≠ some '\x7b' := by
    cases notice <;> decide +kernel
  exact List.forall_mem_append.2 ⟨h, hnotice⟩

theorem exists_last_of_intercalate {ws : List String} (h : ws ≠ []) :
    ∃ before, ∃ w ∈ ws, " ".intercalate ws = before ++ w := by
  induction ws with
  | nil => exact absurd rfl h
  | cons w ws ih =>
    cases ws with
    | nil => exact ⟨"", w, List.mem_singleton_self w, by simp⟩
    | cons v ws =>
      obtain ⟨before, x, hx, heq⟩ := ih (List.cons_ne_nil _ _)
      refine ⟨w ++ " " ++ before, x, List.mem_cons_of_mem _ hx, ?_⟩
      rw [String.intercalate_cons_cons, heq, ← String.append_assoc]

theorem exists_word_of_wrap {width : Nat} {text l : String} (hl : l ∈ wrap width text) :
    ∃ w : String, w.toList ∈ words text.toList ∧
      ∀ lead, Sheet.opened (lead ++ l) = Sheet.opened w := by
  obtain ⟨ws, hne, rfl, hws⟩ := exists_of_mem_wrap hl
  obtain ⟨before, w, hw, heq⟩ := exists_last_of_intercalate hne
  have hvisible : w ≠ "" := mt String.toList_eq_nil_iff.2 (hws w hw).1.1
  refine ⟨w, (hws w hw).2, fun lead => ?_⟩
  rw [heq, ← String.append_assoc, Sheet.opened_append _ hvisible]

theorem Returns.opened {returns : String} (h : Returns b returns) :
    Sheet.opened (" * @return " ++ returns) = 0 := by
  cases h with
  | same => decide
  | next => decide
  | built =>
    rw [← String.append_assoc, Sheet.opened_append _ (by decide)]
    decide

theorem openedBy_eq_zero {lines : List String} (h : ∀ l ∈ lines, Sheet.opened l = 0) :
    Sheet.openedBy lines = 0 := by
  induction lines with
  | nil => rfl
  | cons l lines ih =>
    obtain ⟨hl, hlines⟩ := List.forall_mem_cons.1 h
    rw [Sheet.openedBy, hl, Nat.zero_add]
    exact ih hlines

theorem opened_setterDoc {returns : String} (hreturns : Returns b returns) (hquiet : Quiet p) :
    (setterDoc p notice returns).opened = 0 := by
  have hparam (name : String) :
      Sheet.opened (" * @param " ++ name ++ " the value to set") = 0 := by
    rw [Sheet.opened_append _ (by decide)]
    decide
  have hdescription : ∀ l ∈ (setterDoc p notice returns).description, Sheet.opened l = 0 := by
    intro l hl
    obtain ⟨content, hcontent, rfl⟩ := List.mem_map.1 hl
    obtain ⟨w, hw, hopened⟩ := exists_word_of_wrap hcontent
    rw [words_setterDoc] at hw
    rw [hopened, Sheet.opened, if_neg (hquiet.told _ hw)]
  apply openedBy_eq_zero
  intro l hl
  rw [Doc.inner, List.mem_append, List.mem_cons, List.mem_append, List.mem_cons, Doc.tags,
    List.mem_cons, List.mem_singleton, List.mem_singleton] at hl
  rcases hl with (rfl | hl | rfl | rfl | rfl) | rfl
  · decide
  · exact hdescription l hl
  · decide
  · exact hparam p.name
  · exact hreturns.opened
  · decide

theorem Explains.opened (h : Explains b p notice d) (hquiet : Quiet p) : d.opened = 0 := by
  cases h with
  | value returned => exact opened_setterDoc returned hquiet
  | inside wraps returned => exact opened_setterDoc returned hquiet

theorem opened_of_quiet (hquiet : ∀ p ∈ b.params, Quiet p) (start : Imports) :
    ∀ d ∈ (b.unit s).docs start, d.opened = 0 := by
  intro d hd
  obtain ⟨x, hx, hdoc⟩ := List.mem_filterMap.1 hd
  obtain ⟨⟨m, hm, hmdoc⟩, -⟩ := SourceUnit.of_mem_stretches hx hdoc
  obtain ⟨p, hp, -, notice, hexplains⟩ := explained_of_mem hm d hmdoc
  exact hexplains.opened (hquiet p hp)

end Quiet

section Same

variable {s : SupportClasses} {b b' : Builder}

theorem source_eq_error_iff (b : Builder) (e : GenerationError) :
    b.source s = .error e ↔ Parameter.checkAll b.params = .error e := by
  unfold source
  generalize (b.unit s).text b.ownNames = text
  cases Parameter.checkAll b.params with
  | error e' =>
    exact ⟨fun h => congrArg _ (Except.error.inj h), fun h => congrArg _ (Except.error.inj h)⟩
  | ok => exact iff_of_false nofun nofun

theorem checkAll_of_bare (h : b.bare = b'.bare) :
    Parameter.checkAll b.params = Parameter.checkAll b'.params := by
  have hparams : b.params.map .bare = b'.params.map Parameter.bare := congrArg params h
  rw [Parameter.checkAll, ← Parameter.checkAfter_bare, hparams, Parameter.checkAfter_bare,
    Parameter.checkAll]

theorem units_of_bare (h : b.bare = b'.bare) :
    (b.unit s).bare = (b'.unit s).bare ∧ b.ownNames = b'.ownNames := by
  rw [← unit_bare b, ← unit_bare b', ← ownNames_bare b, ← ownNames_bare b', h]
  exact ⟨rfl, rfl⟩

/--
Of two builders that differ in what is said of their parameters either both have a file or neither
has, for the same reason. The files are made up of the same text outside of their comments exactly
if each comment opens as many blocks in the one as in the other, as none does that is without words
that end with opening braces.
-/
theorem documentation_inert_iff (h : b.bare = b'.bare) :
    (∀ e, b.source s = .error e ↔ b'.source s = .error e) ∧
    ∀ text text', b.source s = .ok text → b'.source s = .ok text' →
      text = .join (((b.unit s).stretches b.ownNames).map (·.text)) ∧
      text' = .join (((b'.unit s).stretches b'.ownNames).map (·.text)) ∧
      ((b.unit s).outside b.ownNames = (b'.unit s).outside b'.ownNames ↔
        ((b.unit s).docs b.ownNames).map (·.opened) =
          ((b'.unit s).docs b'.ownNames).map (·.opened)) ∧
      ((∀ p ∈ b.params, Quiet p) → (∀ p ∈ b'.params, Quiet p) →
        (b.unit s).outside b.ownNames = (b'.unit s).outside b'.ownNames) := by
  obtain ⟨hunits, hnames⟩ := units_of_bare (s := s) h
  have herrors (e : GenerationError) : b.source s = .error e ↔ b'.source s = .error e := by
    rw [source_eq_error_iff, source_eq_error_iff, checkAll_of_bare h]
  refine ⟨herrors, fun text text' hsource hsource' => ?_⟩
  have htext := (of_source_eq_ok hsource).2.trans (SourceUnit.text_eq_join _ _)
  have htext' := (of_source_eq_ok hsource').2.trans (SourceUnit.text_eq_join _ _)
  refine ⟨htext, htext', ?_, fun hquiet hquiet' => ?_⟩
  · rw [← hnames]
    exact SourceUnit.outside_eq_iff hunits b.ownNames
  · rw [← hnames]
    exact SourceUnit.outside_eq_of_closed hunits b.ownNames (opened_of_quiet hquiet _)
      (opened_of_quiet hquiet' _)

end Same

def rack : Builder where
  target := "me.Rack"
  name := "me.builder.RackBuilder"
  params := [
    { name := "width", type := .parsed (.leaf "int")
      doc := some "In units, \x7b@code 1\x7d or more." },
    { name := "label", type := .parsed (.leaf "String") }]
  construction := .direct

theorem rack_inert :
    rack.source {} = .ok ((rack.unit {}).text rack.ownNames) ∧
      rack.bare.source {} = .ok ((rack.bare.unit {}).text rack.bare.ownNames) ∧
      (rack.unit {}).outside rack.ownNames = (rack.bare.unit {}).outside rack.bare.ownNames := by
  have hbare : rack.bare = rack.bare.bare := rfl
  have hsource : rack.source {} = .ok ((rack.unit {}).text rack.ownNames) := rfl
  have hsource' : rack.bare.source {} =
      .ok ((rack.bare.unit {}).text rack.bare.ownNames) := rfl
  obtain ⟨-, hinert⟩ := documentation_inert_iff (s := {}) hbare
  obtain ⟨-, -, -, hquiet⟩ := hinert _ _ hsource hsource'
  exact ⟨hsource, hsource', hquiet (by decide +kernel) (by decide +kernel)⟩

def bookshelf : Builder where
  target := "me.Shelf"
  name := "me.builder.ShelfBuilder"
  params := [
    { name := "size", type := .parsed (.leaf "int")
      doc := some "The number of entries, at most what fits between the braces \x7b" },
    { name := "label", type := .parsed (.leaf "String") }]
  construction := .direct
  copy := false

theorem bookshelf_shifted :
    (¬ ∀ (s : SupportClasses) (b b' : Builder) (text text' : String), b.bare = b'.bare →
      b.source s = .ok text → b'.source s = .ok text' →
        (b.unit s).outside b.ownNames = (b'.unit s).outside b'.ownNames) ∧
    bookshelf.source {} = .ok ((bookshelf.unit {}).text bookshelf.ownNames) ∧
    bookshelf.bare.source {} = .ok ((bookshelf.bare.unit {}).text bookshelf.bare.ownNames) ∧
    ((bookshelf.unit {}).docs bookshelf.ownNames).map (·.opened) = [1, 0] ∧
    ((bookshelf.bare.unit {}).docs bookshelf.bare.ownNames).map (·.opened) = [0, 0] := by
  have hbare : bookshelf.bare = bookshelf.bare.bare := rfl
  have hsource : bookshelf.source {} = .ok ((bookshelf.unit {}).text bookshelf.ownNames) := rfl
  have hsource' : bookshelf.bare.source {} =
      .ok ((bookshelf.bare.unit {}).text bookshelf.bare.ownNames) := rfl
  have hopened : ((bookshelf.unit {}).docs bookshelf.ownNames).map (·.opened) = [1, 0] := by
    decide +kernel
  have hnone : ((bookshelf.bare.unit {}).docs bookshelf.bare.ownNames).map (·.opened) = [0, 0] := by
    decide +kernel
  refine ⟨fun h => ?_, hsource, hsource', hopened, hnone⟩
  obtain ⟨hunits, hnames⟩ := units_of_bare (s := {}) hbare
  have houtside := h {} bookshelf bookshelf.bare _ _ hbare hsource hsource'
  rw [← hnames] at houtside hnone
  have hsame := (SourceUnit.outside_eq_iff hunits bookshelf.ownNames).1 houtside
  rw [hopened, hnone] at hsame
  exact absurd hsame (by decide)

end Builder

end StagedBuilder
