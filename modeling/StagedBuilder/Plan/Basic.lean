import StagedBuilder.Builder.Source
import StagedBuilder.Implementation
import StagedBuilder.SourceFile

namespace StagedBuilder

/-- The constructor to build with: the one that is designated or else, if none is, the one with the
most parameters. -/
def selectConstructor (type : String) (cs : List ConstructorDecl) :
    Except GenerationError ConstructorDecl :=
  match cs.filter (·.designated) with
  | [c] => .ok c
  | [] =>
    match cs.filter fun c => cs.all (·.params.length ≤ c.params.length) with
    | [] => .error (.missingConstructor type)
    | [c] => .ok c
    | c :: _ => .error (.ambiguousConstructor type (.sameArity c.params.length))
  | designated => .error (.ambiguousConstructor type (.designated designated.length))

namespace Visibility

def admits (v : Visibility) (package user : String) : Bool :=
  match v with
  | .publicAccess => true
  | .protectedAccess => package = user
  | .packageAccess => package = user
  | .privateAccess => false

end Visibility

structure Plan where
  kind : TypeKind
  builder : Builder
  check : Option String := none
  deriving DecidableEq, Repr

namespace Plan

def type (p : Plan) : String := p.builder.target

def implementation? (p : Plan) : Option Implementation :=
  match p.builder.construction with
  | .delegate name => some ⟨p.type, name, p.builder.params, p.check⟩
  | _ => none

def classNames (p : Plan) : List String :=
  p.builder.name :: (p.implementation?.map (·.name)).toList

def files (s : SupportClasses) (p : Plan) : Except GenerationError (List SourceFile) := do
  let builder := ⟨p.builder.name, ← p.builder.source s⟩
  match p.implementation? with
  | none => return [builder]
  | some i => return [builder, ⟨i.name, ← i.source s⟩]

def signature (name : String) (d : TypeDecl) :
    Except GenerationError (Visibility × List ParameterDecl) :=
  match d.kind with
  | .plainClass => (selectConstructor name d.constructors).map fun c => (c.visibility, c.params)
  | _ => .ok (d.visibility, d.params)

def resolve (template name : String) (d : TypeDecl) : String :=
  NameTemplate.resolve ⟨template⟩ (d.packageOf name) (ClassName.simple name)

def builderName (defaults : Defaults) (name : String) (d : TypeDecl) : String :=
  resolve (d.builder.getD defaults.builder) name d

def construction (defaults : Defaults) (name : String) (d : TypeDecl) (v : Visibility) :
    Construction :=
  if d.kind = .interface then
    .delegate (resolve (d.implementation.getD defaults.implementation) name d)
  else if v.admits (d.packageOf name) (ClassName.package (builderName defaults name d)) then .direct
  else .reflective

def ofDecl (defaults : Defaults) (name : String) (d : TypeDecl) : Except GenerationError Plan := do
  let (visibility, declared) ← signature name d
  let params ← (declared.mapM Parameter.ofDecl).mapError .malformedType
  return {
    kind := d.kind
    check := d.check
    builder := {
      target := name
      name := builderName defaults name d
      params := params
      construction := construction defaults name d visibility
      alwaysBuild := d.alwaysBuild.getD defaults.alwaysBuild
      copy := d.copy.getD defaults.copy } }

end Plan

end StagedBuilder
