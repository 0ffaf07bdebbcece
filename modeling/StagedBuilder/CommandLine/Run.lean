import StagedBuilder.Check
import StagedBuilder.CommandLine.Command
import StagedBuilder.Generate
import StagedBuilder.Manifest.Load
import StagedBuilder.Plan.Summary

namespace StagedBuilder.CommandLine

structure Outcome where
  exitCode : UInt32 := 0
  output : String := ""
  errors : String := ""
  deriving DecidableEq, Repr

namespace Outcome

def textOf (lines : List ReportLine) : String := "".intercalate (lines.map (·.text ++ "\n"))

def report (lines : List ReportLine) : Outcome := { output := textOf lines }

def failure (message : String) (help : Option String := none) : Outcome where
  exitCode := 1
  errors :=
    "failed:\n  " ++ message.replace "\n" "\n  " ++
      (help.elim "\n" fun help => "\n  help: " ++ help.replace "\n" "\n  " ++ "\n")

def ofManifestError (e : ManifestError) : Outcome := failure e.message e.help

def ofGenerationError (e : GenerationError) : Outcome := failure e.message e.help

end Outcome

def version : String := "chained 0.3.0\n"

def usage : String :=
  "usage: chained [-v] generate [-c FILE] [-o DIRECTORY] [--dry-run]\n" ++
  "       chained [-v] check [-c FILE]\n" ++
  "       chained [-v] explain [-c FILE] [-t NAME] [--json]\n" ++
  "       chained [-v] completions SHELL\n"

def completionScript (shell : Shell) : String :=
  let words := " ".intercalate commandNames
  match shell with
  | .bash => "complete -W '" ++ words ++ "' chained\n"
  | .elvish =>
    "set edit:completion:arg-completer[chained] = \x7b|@args| put " ++ words ++ " \x7d\n"
  | .fish => "complete -c chained -f -a '" ++ words ++ "'\n"
  | .powershell =>
    "Register-ArgumentCompleter -Native -CommandName chained -ScriptBlock \x7b -split '" ++
      words ++ "' \x7d\n"
  | .zsh => "compctl -k '(" ++ words ++ ")' chained\n"

variable {m : Type → Type} [Monad m] (access : FileAccess m)

def runGenerate (config output : String) (dryRun : Bool) : m Outcome := do
  match ← Manifest.load access config with
  | .error e => return .ofManifestError e
  | .ok manifest =>
    match manifest.plans with
    | .error e => return .ofGenerationError e
    | .ok plans =>
      match ← generate access (SupportClasses.ofManifest manifest) plans output dryRun with
      | .error e => return .failure e.message
      | .ok generated => return .report (generated.lines plans.length)

def runCheck (config : String) : m Outcome := do
  match ← Manifest.load access config with
  | .error e => return .ofManifestError e
  | .ok manifest =>
    let types := manifest.check (SupportClasses.ofManifest manifest)
    let lines := checkReport config types
    if isValid types then return .report lines
    else return { exitCode := 1, errors := Outcome.textOf lines }

def runExplain (config : String) (only : Option String) (json : Bool) : m Outcome := do
  match ← Manifest.load access config with
  | .error e => return .ofManifestError e
  | .ok manifest =>
    match manifest.plans with
    | .error e => return .ofGenerationError e
    | .ok plans =>
      match explain config plans only with
      | .error e => return .failure e.message
      | .ok summaries =>
        if json then
          return { output := (JsonValue.array (summaries.map (·.toJson))).pretty 0 ++ "\n" }
        else return .report (explainReport config summaries)

def runCommand : Command → m Outcome
  | .generate config output dryRun => runGenerate access config output dryRun
  | .check config => runCheck access config
  | .explain config only json => runExplain access config only json
  | .completions shell => return { output := completionScript shell }

def run (args : List String) : m Outcome :=
  match read args with
  | .ok command => runCommand access command
  | .error .help => return { output := usage }
  | .error .version => return { output := version }
  | .error .misuse => return { exitCode := 2, errors := usage }

end StagedBuilder.CommandLine
