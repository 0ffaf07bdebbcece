import StagedBuilder.CommandLine.Options

namespace StagedBuilder.CommandLine

inductive Shell
  | bash
  | elvish
  | fish
  | powershell
  | zsh
  deriving DecidableEq, Repr

namespace Shell

def name : Shell → String
  | .bash => "bash"
  | .elvish => "elvish"
  | .fish => "fish"
  | .powershell => "powershell"
  | .zsh => "zsh"

def all : List Shell := [.bash, .elvish, .fish, .powershell, .zsh]

end Shell

inductive Command
  | generate (config output : String) (dryRun : Bool)
  | check (config : String)
  | explain (config : String) (only : Option String) (json : Bool)
  | completions (shell : Shell)
  deriving DecidableEq, Repr

def commandNames : List String := ["generate", "check", "explain", "completions"]

def commonOptions : List OptionSpec :=
  [⟨"verbose", some 'v', .counter⟩, ⟨"help", some 'h', .help⟩]

def leadingOptions : List OptionSpec := ⟨"version", some 'V', .version⟩ :: commonOptions

def configOption : OptionSpec := ⟨"config", some 'c', .path⟩

def commandOptions (name : String) : List OptionSpec :=
  match name with
  | "generate" =>
    configOption :: ⟨"output", some 'o', .path⟩ :: ⟨"dry-run", none, .switch⟩ :: commonOptions
  | "check" => configOption :: commonOptions
  | "explain" =>
    configOption :: ⟨"type", some 't', .text⟩ :: ⟨"json", none, .switch⟩ :: commonOptions
  | _ => commonOptions

def configOf (given : Given) : String := (given.lookup "config").getD "chained.toml"

def readPlain (name : String) (args : List String) : Except Stop Given := do
  let split ← readOptions (commandOptions name) args []
  if split.operand?.isSome then .error .misuse
  return split.given

def readShell (args : List String) : Except Stop Shell := do
  let split ← readOptions commonOptions args []
  let some shell := Shell.all.find? fun s => split.operand? = some s.name | .error .misuse
  let rest ←
    if split.ended then pure split.rest.head?
    else (·.operand?) <$> readOptions commonOptions split.rest split.given
  if rest.isSome then .error .misuse
  return shell

def readCommand (name : String) (args : List String) : Except Stop Command :=
  match name with
  | "generate" => do
    let given ← readPlain name args
    return .generate (configOf given) ((given.lookup "output").getD ".")
      (given.lookup "dry-run").isSome
  | "check" => do return .check (configOf (← readPlain name args))
  | "explain" => do
    let given ← readPlain name args
    return .explain (configOf given) (given.lookup "type") (given.lookup "json").isSome
  | "completions" => .completions <$> readShell args
  | "help" =>
    match args with
    | [] => .error .help
    | [topic] => .error (if ("help" :: commandNames).contains topic then .help else .misuse)
    | _ => .error .misuse
  | _ => .error .misuse

def read (args : List String) : Except Stop Command := do
  let split ← readOptions leadingOptions args []
  match split.operand?, split.ended with
  | some name, false => readCommand name split.rest
  | _, _ => .error .misuse

end StagedBuilder.CommandLine
