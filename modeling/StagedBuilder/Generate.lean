import StagedBuilder.Files
import StagedBuilder.Plan.Basic
import StagedBuilder.Report

namespace StagedBuilder

inductive GenerateError
  | synthesis (type : String) (cause : GenerationError)
  | writing (path : String) (cause : FileFault)
  deriving DecidableEq

namespace GenerateError

def message : GenerateError → String
  | .synthesis type cause => s!"Failed to generate builder for {type}: {cause.message}"
  | .writing path _ => s!"Failed to write {path}"

end GenerateError

def synthesize (s : SupportClasses) : List Plan → Except GenerateError (List SourceFile)
  | [] => .ok []
  | p :: ps => do
    let files ← (p.files s).mapError (.synthesis p.type)
    return files ++ (← synthesize s ps)

inductive Generated
  | preview (files : List SourceFile)
  | onDisk (base : String) (results : List (SourceFile × WriteResult))
  deriving DecidableEq

section

variable {m : Type → Type} [Monad m]

def writeAll (access : FileAccess m) (base : String) :
    List SourceFile → m (Except GenerateError (List (SourceFile × WriteResult)))
  | [] => return .ok []
  | f :: fs => do
    match ← f.write access base with
    | .error e => return .error (.writing f.path e)
    | .ok result => return (← writeAll access base fs).map ((f, result) :: ·)

def generate (access : FileAccess m) (s : SupportClasses) (plans : List Plan) (base : String)
    (dryRun : Bool) : m (Except GenerateError Generated) := do
  match synthesize s plans with
  | .error e => return .error e
  | .ok files =>
    if dryRun then return .ok (.preview files)
    else return (← writeAll access base files).map (.onDisk base)

end

namespace Generated

def previewLines (files : List SourceFile) : List ReportLine :=
  files.flatMap (fun f => [.divider f.path, .preformatted f.content]) ++
    [.divider "Summary", .preformatted s!"{files.length} files would be generated"]

def updateLines : List SourceFile → List ReportLine
  | [] => []
  | files => .blank :: .section "Updated" :: files.map fun f => .added f.path

def unchangedLines (count : Nat) : List ReportLine :=
  if count = 0 then [] else [.blank, .preformatted (counted count "file" ++ " unchanged")]

def lines (types : Nat) : Generated → List ReportLine
  | .preview files => previewLines files
  | .onDisk base results =>
    let written := (results.filter (·.2 = .written)).map (·.1)
    .entry "Generated"
        (counted results.length "file" ++ " for " ++ counted types "type" ++ " in " ++ base) ::
      updateLines written ++ unchangedLines (results.length - written.length)

end Generated

end StagedBuilder
