import StagedBuilder.Parameter

namespace StagedBuilder

inductive ParameterFault
  | reserved
  | repeated
  deriving DecidableEq

namespace ParameterFault

def message : ParameterFault → String
  | .reserved => "the name is reserved for generated code"
  | .repeated => "declared more than once"

end ParameterFault

inductive Ambiguity
  | designated (count : Nat)
  | sameArity (arity : Nat)
  deriving DecidableEq

namespace Ambiguity

def message : Ambiguity → String
  | .designated count => s!"{count} constructors are designated"
  | .sameArity arity => s!"more than one constructor has {arity} parameters"

end Ambiguity

inductive GenerationError
  | malformedType (cause : MalformedType)
  | ambiguousConstructor (type : String) (cause : Ambiguity)
  | missingConstructor (type : String)
  | duplicateClass (name first second : String)
  | invalidParameter (name : String) (cause : ParameterFault)
  deriving DecidableEq

namespace GenerationError

def message : GenerationError → String
  | .malformedType cause => s!"malformed type '{cause.text}': {cause.fault.message}"
  | .ambiguousConstructor type cause => s!"ambiguous constructor for '{type}': {cause.message}"
  | .missingConstructor type => s!"no constructor declared for '{type}'"
  | .duplicateClass name first second =>
    s!"'{name}' would be generated for both '{first}' and '{second}'"
  | .invalidParameter name cause => s!"invalid parameter '{name}': {cause.message}"

def code : GenerationError → String
  | .malformedType _ => "chained::malformed_type"
  | .ambiguousConstructor _ _ => "chained::ambiguous_constructor"
  | .missingConstructor _ => "chained::missing_constructor"
  | .duplicateClass _ _ _ => "chained::duplicate_class"
  | .invalidParameter _ _ => "chained::invalid_parameter"

def help : GenerationError → Option String
  | .malformedType _ =>
    some "generic arguments must be balanced and the closing '>' must end the type"
  | .ambiguousConstructor _ _ => some "mark exactly one constructor with `designated = true`"
  | .missingConstructor type =>
    some s!"declare at least one constructor under [[types.\"{type}\".constructors]]"
  | .duplicateClass _ _ _ =>
    some "give one of the types its own `builder` or `implementation` template"
  | .invalidParameter _ _ => none

end GenerationError

namespace Parameter

def checkAfter (seen : List String) : List Parameter → Except GenerationError Unit
  | [] => .ok ()
  | p :: ps =>
    if reservedNames.contains p.name then .error (.invalidParameter p.name .reserved)
    else if seen.contains p.name then .error (.invalidParameter p.name .repeated)
    else checkAfter (p.name :: seen) ps

def checkAll (params : List Parameter) : Except GenerationError Unit := checkAfter [] params

end Parameter

end StagedBuilder
