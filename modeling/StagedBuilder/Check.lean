import StagedBuilder.Plan.Claims
import StagedBuilder.Report

namespace StagedBuilder

structure CheckedType where
  name : String
  result : Except GenerationError Plan

namespace CheckedType

def line? (t : CheckedType) : Option ReportLine :=
  match t.result with
  | .ok p => some (.item s!"{t.name} ({p.kind.name}, {p.builder.construction.label})")
  | .error _ => none

def error? (t : CheckedType) : Option ReportLine :=
  match t.result with
  | .ok _ => none
  | .error e => some (.error (t.name ++ ": " ++ e.message))

end CheckedType

namespace Manifest

/-- Checks the types after those that made `claims`. A type at fault keeps what it claimed. -/
def checkAfter (s : SupportClasses) (defaults : Defaults) :
    Claims → List (String × TypeDecl) → List CheckedType
  | _, [] => []
  | claims, (name, d) :: rest =>
    match Plan.ofDecl defaults name d with
    | .error e => ⟨name, .error e⟩ :: checkAfter s defaults claims rest
    | .ok plan =>
      match claims.claim name plan.classNames with
      | (claims, some e) => ⟨name, .error e⟩ :: checkAfter s defaults claims rest
      | (claims, none) =>
        ⟨name, (plan.files s).map fun _ => plan⟩ :: checkAfter s defaults claims rest

def check (s : SupportClasses) (m : Manifest) : List CheckedType :=
  checkAfter s m.defaults [] m.types

end Manifest

def isValid (types : List CheckedType) : Bool := types.all fun t => t.result.isOk

def checkReport (config : String) (types : List CheckedType) : List ReportLine :=
  if isValid types then
    .preformatted s!"✓ {config} is valid" :: .blank ::
      .section ("  " ++ counted types.length "type") :: types.filterMap (·.line?)
  else types.filterMap (·.error?)

end StagedBuilder
