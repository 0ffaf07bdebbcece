import StagedBuilder.Manifest.Basic
import StagedBuilder.Text.Quoted
import StagedBuilder.Toml.Value

/-!
The schema of manifests: which TOML values stand for the parts of a manifest. A record is read from
a table by its keys, in the order in which they are written, or from an array by position.
-/

namespace StagedBuilder

open Toml (Value)

inductive Found
  | string (text : String)
  | integer (value : Int)
  | float (text : String)
  | number
  | boolean (value : Bool)
  | sequence
  | map
  deriving DecidableEq

namespace Found

def signed (negative : Bool) (text : List Char) : String :=
  .ofList (if negative then '-' :: text else text)

def ofValue : Value → Found
  | .string text => .string text
  | .integer value => .integer value
  | .float (.finite negative magnitude) => .float (signed negative magnitude.text)
  | .float (.infinite negative) => .float (signed negative "inf".toList)
  | .float .nan => .float "NaN"
  | .unreadable => .number
  | .boolean value => .boolean value
  | .moment _ => .map
  | .array _ => .sequence
  | .table _ => .map

def message : Found → String
  | .string text => "string " ++ .ofList (Text.quoted text.toList)
  | .integer value => s!"integer `{value}`"
  | .float text => s!"floating point `{text}`"
  | .number => "number"
  | .boolean value => s!"boolean `{value}`"
  | .sequence => "sequence"
  | .map => "map"

end Found

inductive SchemaError
  | unknownField (name : String) (expected : List String)
  | missingField (name : String)
  | unknownVariant (name : String) (expected : List String)
  | invalidType (found : Found) (expected : String)
  | invalidLength (found : Nat) (record : String) (fields : Nat)
  | noChoice
  | emptyChoice
  | severalChoices
  | choiceContent (expected : String)
  deriving DecidableEq

namespace SchemaError

def alternatives (names : List String) : String :=
  ", ".intercalate (names.map fun name => s!"`{name}`")

def message : SchemaError → String
  | .unknownField name expected =>
    s!"unknown field `{name}`, expected one of " ++ alternatives expected
  | .missingField name => s!"missing field `{name}`"
  | .unknownVariant name expected =>
    s!"unknown variant `{name}`, expected one of " ++ alternatives expected
  | .invalidType found expected => s!"invalid type: {found.message}, expected {expected}"
  | .invalidLength found record fields =>
    s!"invalid length {found}, expected struct {record} with {fields} elements"
  | .noChoice => "wanted string or table"
  | .emptyChoice => "wanted exactly 1 element, found 0 elements"
  | .severalChoices => "wanted exactly 1 element, more than 1 element"
  | .choiceContent expected => "expected " ++ expected

def mismatch (v : Value) (expected : String) : SchemaError :=
  .invalidType (Found.ofValue v) expected

end SchemaError

abbrev Decoder (α : Type) := Value → Except SchemaError α

/-- A date or a time is handed over as a map with the text under this key. -/
def momentKey : String := "$__toml_private_datetime"

namespace Decoder

def string : Decoder String
  | .string text => .ok text
  | v => .error (.mismatch v "a string")

def boolean : Decoder Bool
  | .boolean value => .ok value
  | v => .error (.mismatch v "a boolean")

def list (item : Decoder α) : Decoder (List α)
  | .array vs => vs.mapM item
  | v => .error (.mismatch v "a sequence")

def entries (item : Decoder α) : Decoder (List (String × α))
  | .table vs => vs.mapM fun (key, v) => (item v).map (key, ·)
  | .moment text => (item (.string text)).map fun a => [(momentKey, a)]
  | v => .error (.mismatch v "a map")

def nothing : Decoder Unit
  | .array [] => .ok ()
  | .array _ => .error (.choiceContent "empty array")
  | .table [] => .ok ()
  | .table _ => .error (.choiceContent "empty table")
  | .string _ => .error (.choiceContent "table, found string")
  | .integer _ => .error (.choiceContent "table, found integer")
  | .float _ => .error (.choiceContent "table, found float")
  | .unreadable => .error (.choiceContent "table, found number")
  | .boolean _ => .error (.choiceContent "table, found boolean")
  | .moment _ => .error (.choiceContent "table, found datetime")

def choice (all : List α) (name : α → String) : Decoder α := fun v => do
  let named (text : String) : Except SchemaError α :=
    match all.find? (name · = text) with
    | some a => .ok a
    | none => .error (.unknownVariant text (all.map name))
  match v with
  | .string text => named text
  | .table [] => .error .emptyChoice
  | .table [(text, content)] =>
    let a ← named text
    nothing content
    return a
  | .table _ => .error .severalChoices
  | _ => .error .noChoice

end Decoder

inductive Presence
  | required
  /-- A table may leave it out, an array may not. -/
  | keyed
  | optional
  deriving DecidableEq

structure RecordField (α : Type) where
  key : String
  presence : Presence
  set : Value → α → Except SchemaError α

namespace RecordField

def of (presence : Presence) (key : String) (decoder : Decoder β) (put : α → β → α) :
    RecordField α :=
  ⟨key, presence, fun v a => (decoder v).map (put a)⟩

end RecordField

structure Schema (α : Type) where
  name : String
  initial : α
  fields : List (RecordField α)

namespace Schema

def setEntries (s : Schema α) : List (String × Value) → α → Except SchemaError α
  | [], a => .ok a
  | (key, v) :: rest, a =>
    match s.fields.find? (·.key = key) with
    | some f => do s.setEntries rest (← f.set v a)
    | none => .error (.unknownField key (s.fields.map (·.key)))

def missing? (s : Schema α) (given : List (String × Value)) : Option (RecordField α) :=
  s.fields.find? fun f => f.presence = .required && !given.any (·.1 = f.key)

def setElements (s : Schema α) :
    Nat → List (RecordField α) → List Value → α → Except SchemaError α
  | _, [], _, a => .ok a
  | i, f :: fields, v :: vs, a => do s.setElements (i + 1) fields vs (← f.set v a)
  | i, f :: fields, [], a =>
    if f.presence = .optional then s.setElements (i + 1) fields [] a
    else .error (.invalidLength i s.name s.fields.length)

def decode (s : Schema α) : Decoder α
  | .table given => do
    let a ← s.setEntries given s.initial
    match s.missing? given with
    | some f => .error (.missingField f.key)
    | none => .ok a
  | .array vs => s.setElements 0 s.fields vs s.initial
  | .moment _ => .error (.unknownField momentKey (s.fields.map (·.key)))
  | v => .error (.mismatch v ("struct " ++ s.name))

end Schema

open Decoder

def parameterSchema : Schema ParameterDecl where
  name := "ParamDecl"
  initial := { name := "", type := "" }
  fields := [
    .of .required "name" string fun p x => { p with name := x },
    .of .required "type" string fun p x => { p with type := x },
    .of .optional "nullable" boolean fun p x => { p with nullable := x },
    .of .keyed "doc" string fun p x => { p with doc := some x },
    .of .optional "prerendered" boolean fun p x => { p with verbatim := x },
    .of .keyed "accessor" string fun p x => { p with accessor := some x }]

def Visibility.decode : Decoder Visibility := choice Visibility.all Visibility.name

def TypeKind.decode : Decoder TypeKind := choice TypeKind.all TypeKind.name

def constructorSchema : Schema ConstructorDecl where
  name := "ConstructorDecl"
  initial := {}
  fields := [
    .of .optional "visibility" Visibility.decode fun c x => { c with visibility := x },
    .of .optional "designated" boolean fun c x => { c with designated := x },
    .of .optional "params" (list parameterSchema.decode) fun c x => { c with params := x }]

def typeSchema : Schema TypeDecl where
  name := "TypeDecl"
  initial := {}
  fields := [
    .of .optional "kind" TypeKind.decode fun d x => { d with kind := x },
    .of .optional "visibility" Visibility.decode fun d x => { d with visibility := x },
    .of .keyed "package" string fun d x => { d with package := some x },
    .of .keyed "builder" string fun d x => { d with builder := some x },
    .of .keyed "implementation" string fun d x => { d with implementation := some x },
    .of .keyed "always_include_build_method" boolean fun d x => { d with alwaysBuild := some x },
    .of .keyed "copy" boolean fun d x => { d with copy := some x },
    .of .keyed "check" string fun d x => { d with check := some x },
    .of .optional "params" (list parameterSchema.decode) fun d x => { d with params := x },
    .of .optional "constructors" (list constructorSchema.decode) fun d x =>
      { d with constructors := x }]

def defaultsSchema : Schema Defaults where
  name := "Defaults"
  initial := {}
  fields := [
    .of .optional "builder" string fun d x => { d with builder := x },
    .of .optional "implementation" string fun d x => { d with implementation := x },
    .of .optional "always_include_build_method" boolean fun d x => { d with alwaysBuild := x },
    .of .optional "copy" boolean fun d x => { d with copy := x }]

def supportSchema : Schema SupportOverrides where
  name := "RuntimeConfig"
  initial := {}
  fields := [
    .of .keyed "preconditions" string fun s x => { s with preconditions := some x },
    .of .keyed "helpers" string fun s x => { s with helpers := some x },
    .of .keyed "list_builder" string fun s x => { s with listBuilder := some x },
    .of .keyed "set_builder" string fun s x => { s with setBuilder := some x },
    .of .keyed "map_builder" string fun s x => { s with mapBuilder := some x },
    .of .keyed "generated" string fun s x => { s with generated := some x },
    .of .keyed "nonnull" string fun s x => { s with nonnull := some x },
    .of .keyed "nullable" string fun s x => { s with nullable := some x },
    .of .keyed "generator" string fun s x => { s with generator := some x }]

def manifestSchema : Schema Manifest where
  name := "Manifest"
  initial := {}
  fields := [
    .of .optional "defaults" defaultsSchema.decode fun m x => { m with defaults := x },
    .of .optional "runtime" supportSchema.decode fun m x => { m with support := x },
    .of .optional "types" (entries typeSchema.decode) fun m x => { m with types := x }]

end StagedBuilder
