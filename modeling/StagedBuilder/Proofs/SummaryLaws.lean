import StagedBuilder.Plan.Summary
import StagedBuilder.Proofs.MethodLaws
import StagedBuilder.Proofs.PlanLaws

namespace StagedBuilder

open Java

namespace Java

def collectors (methods : List Method) : List String :=
  ((moves methods).filter fun m => m.viaCollector && m.formals.isEmpty).map (·.name)

theorem collectors_append (ms ms' : List Method) :
    collectors (ms ++ ms') = collectors ms ++ collectors ms' := by
  simp [collectors, moves]

def NestedClass.keeps (c : NestedClass) (type : String) : Bool :=
  c.fields.any fun f => f.isFinal && f.type = .written type

namespace SourceUnit

def collectors (u : SourceUnit) : List String :=
  Java.collectors (u.methods ++ u.nestedClasses.flatMap (·.methods))

def stages (u : SourceUnit) : List String :=
  (u.nestedClasses.filter (·.keeps u.name)).map (·.name)

end SourceUnit

end Java

namespace Builder

def collected (ps : List Parameter) : List String :=
  (ps.filter (·.type.collection?.isSome)).map (·.name)

section Collectors

variable {s : SupportClasses} {b : Builder} {p : Parameter} {site : Site}

theorem collected_append (ps ps' : List Parameter) :
    collected (ps ++ ps') = collected ps ++ collected ps' := by
  simp [collected]

theorem collectors_fluentSetters (hreached : site.next.type.reached = site.next.type)
    (hdirect : site.next.type.isCollector = false) (ps : List Parameter) :
    collectors (ps.flatMap fun p => fluentSetters s p site) = collected ps := by
  induction ps with
  | nil => rfl
  | cons p ps ih =>
    rw [List.flatMap_cons, collectors_append, ih, ← List.singleton_append, collected_append]
    congr 1
    rw [collectors, moves_fluentSetters hreached hdirect]
    cases hc : p.type.collection? <;> simp [fluentMoves, settingMoves, collected, hc]

theorem collectors_mandatorySetters (hreached : site.next.type.reached = site.next.type)
    (hdirect : site.next.type.isCollector = false) :
    collectors (mandatorySetters s p site) = collected [p] := by
  rw [collectors, moves_mandatorySetters hreached hdirect]
  cases hc : p.type.collection? <;> simp [settingMoves, collected, hc]

theorem collectors_stage (p : Parameter) (methods : List Method) :
    collectors (b.stage p methods).methods = collectors methods := rfl

theorem collectors_copyMethod :
    collectors (if b.emitsCopy then [b.copyMethod s] else []) = [] := by
  split_ifs <;> rfl

theorem collectors_copyClass : collectors (b.copyClass s).methods = collected b.params := by
  have hbuild : collectors [b.buildMethod s true] = [] := rfl
  have hconstructor (ms : List Method) : collectors (b.copyConstructor :: ms) = collectors ms := rfl
  rw [copyClass, List.cons_append, hconstructor, collectors_append, hbuild, List.append_nil,
    collectors_fluentSetters rfl rfl]

theorem collectors_waitingMethods (current next : Parameter) (isLast : Bool) :
    collectors (waitingMethods s b current next isLast) = collected [next] := by
  have hbuild : collectors [b.delegatedBuild] = [] := rfl
  unfold waitingMethods
  split_ifs
  · rw [collectors_append, hbuild, List.append_nil, collectors_mandatorySetters rfl rfl]
  · rw [collectors_mandatorySetters rfl rfl]
  · rw [collectors_mandatorySetters rfl rfl]

theorem collectors_optionalMethods (last : Parameter) :
    collectors (optionalMethods s b last) = collected b.optional := by
  have hbuild : collectors [b.delegatedBuild] = [] := rfl
  rw [optionalMethods, collectors_append, hbuild, List.append_nil,
    collectors_fluentSetters rfl rfl]

theorem collectors_stagesFrom (current : Parameter) (rest : List Parameter) :
    collectors ((b.stagesFrom s (current :: rest)).flatMap (·.methods)) =
      collected (rest ++ b.optional) := by
  induction rest generalizing current with
  | nil =>
    rw [stagesFrom, List.nil_append]
    split_ifs with ho
    · rw [List.isEmpty_iff.1 ho]
      rfl
    · rw [List.flatMap_singleton, collectors_stage, collectors_optionalMethods]
  | cons next rest ih =>
    rw [stagesFrom, List.flatMap_cons, collectors_append, collectors_stage,
      collectors_waitingMethods, ih, ← collected_append]
    rfl

def settable (b : Builder) : List Parameter :=
  match b.shape with
  | .flat => b.params
  | .factory => []
  | .staged => b.mandatory ++ b.optional

theorem collectors_entering : collectors (b.hiddenConstructor :: b.creators) = [] := by
  unfold creators
  split_ifs <;> rfl

theorem collectors_flat : collectors (b.flatMethods s) = collected b.params := by
  have hbuild : collectors [b.buildMethod s true] = [] := rfl
  rw [flatMethods, collectors_append, collectors_append, hbuild, collectors_entering,
    collectors_fluentSetters rfl rfl, List.nil_append, List.append_nil]

theorem collectors_factory (ps : List Parameter) :
    collectors (b.hiddenConstructor :: ps.map (b.factoryMethod s)) = [] := by
  induction ps with
  | nil => rfl
  | cons p ps ih => exact ih

theorem collectors_staged (hshape : b.shape = .staged) :
    collectors (b.stagedMethods s) ++
        collectors ((b.stagesFrom s b.mandatory).flatMap (·.methods)) =
      collected (b.mandatory ++ b.optional) := by
  have hbuild : collectors [b.buildMethod s false] = [] := rfl
  obtain ⟨first, rest, hmandatory, -⟩ := mandatory_of_staged hshape
  have houter : collectors (b.stagedMethods s) = collected [first] := by
    rw [stagedMethods, hmandatory, collectors_append, collectors_append, hbuild,
      collectors_entering, List.nil_append, List.append_nil]
    exact collectors_mandatorySetters rfl rfl
  rw [houter, hmandatory, collectors_stagesFrom, ← collected_append]
  rfl

theorem collectors_unit :
    (b.unit s).collectors =
      collected b.settable ++ if b.emitsCopy then collected b.params else [] := by
  have hcopies : collectors ((if b.emitsCopy then [b.copyClass s] else []).flatMap (·.methods)) =
      if b.emitsCopy then collected b.params else [] := by
    split_ifs
    · rw [List.flatMap_singleton, collectors_copyClass]
    · rfl
  have hstages (hshape : b.shape ≠ .staged) :
      collectors ((b.stagesFrom s b.mandatory).flatMap (·.methods)) = [] := by
    rw [stagesFrom_of_not_staged hshape]
    rfl
  rw [SourceUnit.collectors, nestedClasses_unit, List.flatMap_append, collectors_append,
    collectors_append, hcopies, ← List.append_assoc]
  congr 1
  unfold settable
  cases hshape : b.shape with
  | flat =>
    rw [methods_flat hshape, collectors_append, collectors_copyMethod, collectors_flat,
      hstages (by simp [hshape]), List.append_nil, List.append_nil]
  | factory =>
    rw [methods_factory hshape, collectors_append, collectors_copyMethod, collectors_factory,
      hstages (by simp [hshape])]
    rfl
  | staged =>
    rw [methods_staged hshape, collectors_append, collectors_copyMethod, List.append_nil,
      collectors_staged hshape]

theorem mem_collected {x : String} {ps : List Parameter} :
    x ∈ collected ps ↔ ∃ p ∈ ps, p.type.collection?.isSome = true ∧ p.name = x := by
  simp [collected, and_assoc]

theorem mem_mandatory_append_optional : p ∈ b.mandatory ++ b.optional ↔ p ∈ b.params := by
  rw [mandatory, optional, List.mem_append, List.mem_filter, List.mem_filter, ← and_or_left]
  cases p.isMandatory <;> simp

theorem mem_collected_settable {x : String} :
    x ∈ collected b.settable ↔ b.shape ≠ .factory ∧ x ∈ collected b.params := by
  unfold settable
  cases b.shape with
  | flat => simp
  | factory => simp [collected]
  | staged =>
    simp only [mem_collected, mem_mandatory_append_optional]
    simp

theorem mem_collectors_unit {x : String} :
    x ∈ (b.unit s).collectors ↔
      ¬(b.shape = .factory ∧ b.emitsCopy = false) ∧ x ∈ collected b.params := by
  rw [collectors_unit, List.mem_append, mem_collected_settable, List.mem_ite_nil_right,
    ← or_and_right, not_and_or, Bool.not_eq_false]

theorem filter_name_collected (hb : b.WellNamed) :
    (b.params.map (·.name)).filter (· ∈ collected b.params) = collected b.params := by
  have hcollected : ∀ p ∈ b.params,
      decide (p.name ∈ collected b.params) = p.type.collection?.isSome := by
    intro p hp
    rw [Bool.eq_iff_iff, decide_eq_true_iff, mem_collected]
    constructor
    · intro ⟨q, hq, hc, hname⟩
      rw [← hb.eq hq hp hname]
      exact hc
    · intro hc
      exact ⟨p, hp, hc, rfl⟩
  rw [List.filter_map]
  exact congrArg (List.map (·.name)) (List.filter_congr hcollected)

theorem filter_name_collectors (hb : b.WellNamed) :
    (b.params.map (·.name)).filter (· ∈ (b.unit s).collectors) =
      if b.shape = .factory ∧ b.emitsCopy = false then [] else collected b.params := by
  simp only [mem_collectors_unit]
  split_ifs with hnone
  · simp [hnone]
  · simp only [hnone, not_false_eq_true, true_and]
    exact filter_name_collected hb

end Collectors

section Stages

variable {s : SupportClasses} {b : Builder}

theorem stages_unit : (b.unit s).stages = b.stageNames := by
  have hstages : (b.stagesFrom s b.mandatory).filter (·.keeps b.simpleName) =
      b.stagesFrom s b.mandatory := by
    rw [List.filter_eq_self]
    intro c hc
    obtain ⟨p, methods, rfl, -⟩ := eq_stage_of_mem (List.nil_append _).symm hc
    simp [NestedClass.keeps, stage]
  have hcopies : (if b.emitsCopy then [b.copyClass s] else []).filter
      (·.keeps b.simpleName) = [] := by
    rw [List.filter_eq_nil_iff]
    intro c hc
    rw [List.mem_ite_nil_right, List.mem_singleton] at hc
    rw [hc.2]
    simp [NestedClass.keeps, copyClass, field]
  have hname : (b.unit s).name = b.simpleName := rfl
  rw [SourceUnit.stages, hname, nestedClasses_unit, List.filter_append, hstages, hcopies,
    List.append_nil, map_name_stagesFrom, stageNames_eq]

theorem copyName_mem_nestedClasses :
    copyName ∈ (b.unit s).nestedClasses.map (·.name) ↔ b.emitsCopy = true := by
  rw [map_name_nestedClasses, List.mem_append, List.mem_ite_nil_right, List.mem_singleton]
  simp [copyName_not_mem_stageNames]

end Stages

end Builder

/-- What the summary says of the classes and of the collections is so in the file. -/
structure PlanSummary.Describes (summary : PlanSummary) (params : List Parameter)
    (u : SourceUnit) : Prop where
  stages : summary.stages = u.stages
  copy : summary.copy = true ↔ Builder.copyName ∈ u.nestedClasses.map (·.name)
  subBuilders : summary.subBuilders = (params.map (·.name)).filter (· ∈ u.collectors)

namespace Plan

theorem of_files_eq_ok {s : SupportClasses} {p : Plan} {files : List SourceFile}
    (h : p.files s = .ok files) :
    p.builder.WellNamed ∧
      files.head? = some ⟨p.builder.name, (p.builder.unit s).text p.builder.ownNames⟩ := by
  rw [files_eq] at h
  obtain ⟨_, hcheck, rfl⟩ := map_eq_ok_iff.1 h
  have hsource : p.builder.source s = .ok ((p.builder.unit s).text p.builder.ownNames) := by
    rw [Builder.source, hcheck]
    rfl
  exact ⟨Builder.wellNamed_of_source hsource, rfl⟩

/--
The summary has the stages of the builder in their order and tells whether there is a class for
copies. The collections of the summary have methods that lead to them unless the builder is a
factory without copies. It has none then, and the summary is right if there are no collections.
-/
theorem describes_iff {s : SupportClasses} {p : Plan} {files : List SourceFile}
    (h : p.files s = .ok files) :
    files.head? = some ⟨p.builder.name, (p.builder.unit s).text p.builder.ownNames⟩ ∧
    (p.builder.unit s).stages = p.summary.stages ∧
    (p.builder.unit s).nestedClasses.map (·.name) =
      p.summary.stages ++ (if p.summary.copy then [Builder.copyName] else []) ∧
    (Builder.copyName ∈ (p.builder.unit s).nestedClasses.map (·.name) ↔ p.summary.copy = true) ∧
    (p.builder.params.map (·.name)).filter (· ∈ (p.builder.unit s).collectors) =
      (if p.summary.shape = .factory ∧ p.summary.copy = false then []
        else p.summary.subBuilders) ∧
    (p.summary.Describes p.builder.params (p.builder.unit s) ↔
      (p.summary.shape = .factory → p.summary.copy = false → p.summary.subBuilders = [])) := by
  obtain ⟨hb, hfiles⟩ := of_files_eq_ok h
  have hcopy : Builder.copyName ∈ (p.builder.unit s).nestedClasses.map (·.name) ↔
      p.summary.copy = true := Builder.copyName_mem_nestedClasses
  have hsubBuilders : (p.builder.params.map (·.name)).filter
      (· ∈ (p.builder.unit s).collectors) =
        if p.summary.shape = .factory ∧ p.summary.copy = false then []
        else p.summary.subBuilders := Builder.filter_name_collectors hb
  refine ⟨hfiles, Builder.stages_unit, Builder.map_name_nestedClasses, hcopy, hsubBuilders, ?_⟩
  constructor
  · intro hdescribes hshape hnone
    rw [hdescribes.subBuilders, hsubBuilders, if_pos ⟨hshape, hnone⟩]
  · intro hright
    refine ⟨Builder.stages_unit.symm, hcopy.symm, ?_⟩
    rw [hsubBuilders]
    split_ifs with hnowhere
    · exact hright hnowhere.1 hnowhere.2
    · rfl

def shelf : Plan where
  kind := .record
  builder := {
    target := "me.Shelf"
    name := "me.builder.ShelfBuilder"
    params := [
      { name := "place", type := .parsed (.leaf "int") },
      { name := "labels", type := .parsed (.node "java.util.List" [.leaf "String"]) }]
    construction := .direct
    copy := false }

theorem shelf_described :
    shelf.files {} =
        .ok [⟨"me.builder.ShelfBuilder", (shelf.builder.unit {}).text shelf.builder.ownNames⟩] ∧
      shelf.summary.stages = ["BuilderWithPlace"] ∧
      shelf.summary.subBuilders = ["labels"] ∧
      shelf.summary.Describes shelf.builder.params (shelf.builder.unit {}) := by
  have hfiles : shelf.files {} =
      .ok [⟨"me.builder.ShelfBuilder", (shelf.builder.unit {}).text shelf.builder.ownNames⟩] := rfl
  obtain ⟨-, -, -, -, -, hdescribes⟩ := describes_iff hfiles
  refine ⟨hfiles, by decide +kernel, by decide +kernel, hdescribes.2 ?_⟩
  intro hfactory
  exact absurd hfactory (by decide)

def tags : TypeDecl where
  kind := .record
  params := [{ name := "tags", type := "List<String>" }]
  copy := some false

def tagsPlan : Plan where
  kind := .record
  builder := {
    target := "me.Tags"
    name := "me.builder.TagsBuilder"
    params := [{ name := "tags", type := .parsed (.node "java.util.List" [.leaf "String"]) }]
    construction := .direct
    copy := false }

theorem tags_undescribed :
    ofDecl {} "me.Tags" tags = .ok tagsPlan ∧
      tagsPlan.files {} = .ok [⟨"me.builder.TagsBuilder",
        (tagsPlan.builder.unit {}).text tagsPlan.builder.ownNames⟩] ∧
      tagsPlan.summary.subBuilders = ["tags"] ∧ (tagsPlan.builder.unit {}).collectors = [] ∧
      ¬tagsPlan.summary.Describes tagsPlan.builder.params (tagsPlan.builder.unit {}) := by
  have hlisted : tagsPlan.summary.subBuilders = ["tags"] := by decide +kernel
  have hnone : (tagsPlan.builder.unit {}).collectors = [] := by decide +kernel
  refine ⟨by decide +kernel, rfl, hlisted, hnone, ?_⟩
  intro hdescribes
  have htags := hdescribes.subBuilders
  rw [hlisted, hnone] at htags
  cases htags

end Plan

end StagedBuilder
