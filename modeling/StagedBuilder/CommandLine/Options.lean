namespace StagedBuilder.CommandLine

inductive OptionKind
  | switch
  | counter
  | text
  | path
  | help
  | version
  deriving DecidableEq, Repr

namespace OptionKind

def isValued : OptionKind → Bool
  | .text => true
  | .path => true
  | _ => false

end OptionKind

structure OptionSpec where
  name : String
  short : Option Char := none
  kind : OptionKind := .switch

inductive Stop
  | help
  | version
  | misuse
  deriving DecidableEq, Repr

abbrev Given := List (String × String)

namespace OptionSpec

def apply (o : OptionSpec) (value : String) (given : Given) : Except Stop Given :=
  match o.kind with
  | .help => .error .help
  | .version => .error .version
  | .counter => .ok ((o.name, "") :: given)
  | kind =>
    if (given.lookup o.name).isSome ∨ (kind = .path ∧ value = "") then .error .misuse
    else .ok ((o.name, value) :: given)

end OptionSpec

structure Split where
  given : Given
  operand? : Option String
  rest : List String
  ended : Bool := false

variable (specs : List OptionSpec)

def readShort : List Char → Given → Except Stop (Given × Option OptionSpec)
  | [], given => .ok (given, none)
  | c :: cs, given =>
    match specs.find? (·.short = some c) with
    | none => .error .misuse
    | some o =>
      if !o.kind.isValued then do readShort cs (← o.apply "" given)
      else
        match cs with
        | [] => .ok (given, some o)
        | '=' :: value => do return (← o.apply (.ofList value) given, none)
        | value => do return (← o.apply (.ofList value) given, none)

def readLong (text : List Char) (given : Given) : Except Stop (Given × Option OptionSpec) :=
  match specs.find? (·.name = .ofList (text.takeWhile (· ≠ '='))) with
  | none => .error .misuse
  | some o =>
    match text.dropWhile (· ≠ '='), o.kind.isValued with
    | [], true => .ok (given, some o)
    | [], false => do return (← o.apply "" given, none)
    | _ :: value, true => do return (← o.apply (.ofList value) given, none)
    | _ :: _, false => .error .misuse

def readOption (arg : List Char) (given : Given) : Except Stop (Given × Option OptionSpec) :=
  match arg with
  | '-' :: '-' :: text => readLong specs text given
  | _ => readShort specs (arg.drop 1) given

def isOption (arg : String) : Bool := arg.toList.head? = some '-' && arg ≠ "-"

def readOptions : List String → Given → Except Stop Split
  | [], given => .ok ⟨given, none, [], false⟩
  | arg :: rest, given =>
    if arg = "--" then .ok ⟨given, rest.head?, rest.drop 1, true⟩
    else if isOption arg then do
      match ← readOption specs arg.toList given with
      | (given, none) => readOptions rest given
      | (given, some o) =>
        match rest with
        | [] => .error .misuse
        | value :: rest =>
          if isOption value then .error .misuse
          else readOptions rest (← o.apply value given)
    else .ok ⟨given, some arg, rest, false⟩

end StagedBuilder.CommandLine
