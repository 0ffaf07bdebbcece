import StagedBuilder.GenerationError
import StagedBuilder.SupportClasses
import StagedBuilder.Text.Case

namespace StagedBuilder

open Text

inductive Construction
  | direct
  | reflective
  | delegate (implementation : String)
  deriving DecidableEq, Repr

namespace Construction

def label : Construction → String
  | .direct => "direct"
  | .reflective => "reflective"
  | .delegate _ => "implementation-delegate"

def isDelegate : Construction → Bool
  | .delegate _ => true
  | _ => false

end Construction

inductive Shape
  | flat
  | factory
  | staged
  deriving DecidableEq, Repr

namespace Shape

def name : Shape → String
  | .flat => "flat"
  | .factory => "factory"
  | .staged => "staged"

end Shape

structure Builder where
  target : String
  name : String
  params : List Parameter
  construction : Construction
  /-- Whether the last mandatory setter leaves building to a method of its own. -/
  alwaysBuild : Bool := false
  copy : Bool := true
  deriving DecidableEq, Repr

namespace Builder

def stageName (param : String) : String :=
  "BuilderWith" ++ .ofList (upperFirst param.toList)

def copyName : String := "CopyBuilder"

def mandatory (b : Builder) : List Parameter := b.params.filter (·.isMandatory)

def optional (b : Builder) : List Parameter := b.params.filter (!·.isMandatory)

def shape (b : Builder) : Shape :=
  match b.mandatory, b.optional with
  | [], _ => .flat
  | [_], [] => .factory
  | _, _ => .staged

/-- Without optional parameters the last mandatory setter needs no stage after it. -/
def stageNames (b : Builder) : List String :=
  match b.shape with
  | .staged =>
    let staged := if b.optional.isEmpty then b.mandatory.dropLast else b.mandatory
    staged.map fun p => stageName p.name
  | _ => []

def emitsCopy (b : Builder) : Bool := b.copy && !b.construction.isDelegate

def simpleName (b : Builder) : String := ClassName.simple b.name

end Builder

end StagedBuilder
