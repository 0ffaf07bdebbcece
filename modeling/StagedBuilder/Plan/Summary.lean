import StagedBuilder.JsonValue
import StagedBuilder.Plan.Basic
import StagedBuilder.Report

namespace StagedBuilder

structure PlanSummary where
  type : String
  kind : TypeKind
  builder : String
  implementation : Option String
  construction : Construction
  shape : Shape
  mandatory : List String
  optional : List String
  stages : List String
  subBuilders : List String
  copy : Bool
  alwaysBuild : Bool
  deriving DecidableEq, Repr

namespace Plan

def summary (p : Plan) : PlanSummary where
  type := p.type
  kind := p.kind
  builder := p.builder.name
  implementation := p.implementation?.map (·.name)
  construction := p.builder.construction
  shape := p.builder.shape
  mandatory := p.builder.mandatory.map (·.name)
  optional := p.builder.optional.map (·.name)
  stages := p.builder.stageNames
  subBuilders := (p.builder.params.filter (·.type.collection?.isSome)).map (·.name)
  copy := p.builder.emitsCopy
  alwaysBuild := p.builder.alwaysBuild

end Plan

namespace PlanSummary

def listed (names : List String) : String :=
  if names.isEmpty then "(none)" else ", ".intercalate names

def yesNo (b : Bool) : String := if b then "yes" else "no"

def stageLines (stages : List String) : List ReportLine :=
  if stages.isEmpty then []
  else .section "  Stages" :: stages.zipIdx.map fun (stage, i) => .numbered (i + 1) stage

def lines (p : PlanSummary) : List ReportLine :=
  [.blank, .divider p.type, .subentry "kind" p.kind.name, .subentry "builder" p.builder] ++
    (p.implementation.map (.subentry "implementation")).toList ++
    [.subentry "construction" p.construction.label, .subentry "shape" p.shape.name,
      .subentry "mandatory" (listed p.mandatory),
      .subentry "optional or nullable" (listed p.optional)] ++
    (if p.subBuilders.isEmpty then [] else [.subentry "sub-builders" (listed p.subBuilders)]) ++
    [.subentry "copy builder" (yesNo p.copy),
      .subentry "separate build()" (yesNo p.alwaysBuild)] ++
    stageLines p.stages

def toJson (p : PlanSummary) : JsonValue :=
  let texts (names : List String) : JsonValue := .array (names.map .text)
  .object (
    [("type", .text p.type), ("kind", .text p.kind.name), ("builder", .text p.builder)] ++
    (p.implementation.map fun i => ("implementation", JsonValue.text i)).toList ++
    [("strategy", .text p.construction.label), ("shape", .text p.shape.name),
      ("mandatory", texts p.mandatory), ("optional", texts p.optional),
      ("stages", texts p.stages), ("sub_builders", texts p.subBuilders),
      ("copy", .boolean p.copy), ("always_include_build_method", .boolean p.alwaysBuild)])

end PlanSummary

structure UndeclaredType where
  type : String
  config : String
  deriving DecidableEq, Repr

namespace UndeclaredType

def message (u : UndeclaredType) : String := s!"type '{u.type}' is not declared in {u.config}"

end UndeclaredType

def explain (config : String) (plans : List Plan) :
    Option String → Except UndeclaredType (List PlanSummary)
  | none => .ok (plans.map (·.summary))
  | some only =>
    match plans.filter (·.type = only) with
    | [] => .error ⟨only, config⟩
    | selected => .ok (selected.map (·.summary))

def explainReport (config : String) (summaries : List PlanSummary) : List ReportLine :=
  .entry "Input" config :: summaries.flatMap (·.lines)

end StagedBuilder
