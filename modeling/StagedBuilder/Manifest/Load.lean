import StagedBuilder.Files
import StagedBuilder.Manifest.Schema
import StagedBuilder.Manifest.WellFormed
import StagedBuilder.Toml.Document

namespace StagedBuilder

inductive ManifestError
  | unreadable (path : String) (cause : FileFault)
  | unparsable (file : String) (cause : Option SchemaError)
  | invalid (file : String) (fault : Fault) (span : Option Span)
  deriving DecidableEq

namespace ManifestError

def message : ManifestError → String
  | .unreadable path _ => s!"failed to read '{path}'"
  | .unparsable _ _ => "failed to parse manifest"
  | .invalid _ fault _ => fault.violation.message

def code : ManifestError → Option String
  | .unreadable _ _ => none
  | .unparsable _ _ => some "chained::parse_error"
  | .invalid _ fault _ => some fault.violation.code

def help : ManifestError → Option String
  | .unreadable _ _ => some "pass the manifest location with --config"
  | .unparsable _ _ => none
  | .invalid _ fault _ => fault.violation.help

end ManifestError

namespace Manifest

/-- Reads a manifest without judging it. A text with an unreadable number is no document, unless the
manifest can do without the number. -/
def ofTextBy (read : Toml.Reading) (text : String) : Except (Option SchemaError) Manifest :=
  match read text with
  | none => .error none
  | some entries =>
    let document : Toml.Value := .table entries
    (manifestSchema.decode document).mapError fun e =>
      if document.isReadable then some e else none

def ofText : String → Except (Option SchemaError) Manifest := ofTextBy Toml.read

def validate (file text : String) (m : Manifest) : Except ManifestError Unit :=
  match m.fault? with
  | none => .ok ()
  | some fault => .error (.invalid file fault (fault.span? text))

def parseBy (read : Toml.Reading) (file text : String) : Except ManifestError Manifest := do
  let m ← (ofTextBy read text).mapError (.unparsable file)
  m.validate file text
  return m

def parse : String → String → Except ManifestError Manifest := parseBy Toml.read

def load {m : Type → Type} [Monad m] (access : FileAccess m) (path : String) :
    m (Except ManifestError Manifest) := do
  match ← access.read path with
  | .ok text => return parse path text
  | .error e => return .error (.unreadable path e)

def declare (name : String) (d : TypeDecl) : List (String × TypeDecl) → List (String × TypeDecl)
  | [] => [(name, d)]
  | (n, old) :: types => if n = name then (n, d) :: types else (n, old) :: declare name d types

end Manifest

end StagedBuilder
