import StagedBuilder.Identifier
import StagedBuilder.Manifest.Basic
import StagedBuilder.Text.Search

namespace StagedBuilder

open Text

inductive Violation
  | keyword (name context : String)
  | identifier (name context : String) (cause : IdentifierFault)
  | template (text context : String)
  | foreignPackage (package type : String)
  | paramsOfClass (type : String)
  | constructorsOf (kind : TypeKind) (type : String)
  | checkOf (kind : TypeKind) (type : String)
  | emptyType (param type : String)
  | duplicateParameter (name type : String)
  deriving DecidableEq

namespace Violation

def message : Violation → String
  | .keyword name _ => s!"'{name}' is a Java reserved keyword"
  | .identifier name context _ => s!"invalid {context} name '{name}'"
  | .template text context => s!"{context} '{text}' does not resolve to a qualified class name"
  | .foreignPackage package type => s!"package '{package}' is not a prefix of type '{type}'"
  | .paramsOfClass type =>
    s!"class '{type}' declares parameters through 'constructors', not 'params'"
  | .constructorsOf kind type =>
    s!"{kind.name} '{type}' declares its components through 'params', not 'constructors'"
  | .checkOf kind type => s!"'check' is only supported on interfaces, '{type}' is a {kind.name}"
  | .emptyType param type => s!"parameter '{param}' of '{type}' has an empty type"
  | .duplicateParameter name type => s!"duplicate parameter '{name}' in '{type}'"

def code : Violation → String
  | .keyword _ _ => "chained::reserved_keyword"
  | .identifier _ _ _ => "chained::invalid_identifier"
  | .duplicateParameter _ _ => "chained::duplicate_parameter"
  | _ => "chained::validation_error"

def help : Violation → Option String
  | .keyword _ context => some s!"Java identifiers cannot be keywords; rename the {context}"
  | .identifier _ _ cause =>
    some (cause.message ++
      ". Use only letters, digits, '_' and '$', not starting with a digit.")
  | .duplicateParameter _ _ =>
    some "each parameter becomes a builder field and setter, so names must be unique"
  | _ => none

end Violation

structure Fault where
  violation : Violation
  sought : Option String
  deriving DecidableEq

structure Span where
  offset : Nat
  length : Nat
  deriving DecidableEq, Repr

def byteLength : List Char → Nat
  | [] => 0
  | c :: cs => c.utf8Size + byteLength cs

def enclosures : List (List Char × List Char) :=
  [("name = \"", "\""), ("name=\"", "\""), ("\"", "\""), ("'", "'")].map fun (before, after) =>
    (before.toList, after.toList)

/-- The first place where the name stands between quotes, as the value of a key `name` if there is
such a place. -/
def locate (text name : List Char) : Option Span :=
  enclosures.findSome? fun (lead, tail) =>
    (cut? (lead ++ name ++ tail) text).map fun (before, _) =>
      ⟨byteLength before + byteLength lead, byteLength name⟩

namespace Fault

def span? (f : Fault) (text : String) : Option Span :=
  f.sought.bind fun name => locate text.toList name.toList

end Fault

end StagedBuilder
