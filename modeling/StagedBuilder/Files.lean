import StagedBuilder.SourceFile

namespace StagedBuilder

inductive FileFault
  | notFound
  | isADirectory
  | notADirectory
  | alreadyExists
  | invalidData
  | other (details : String)
  deriving DecidableEq, Repr

structure FileAccess (m : Type → Type) where
  read : String → m (Except FileFault String)
  write : String → String → m (Except FileFault Unit)

inductive WriteResult
  | written
  | unchanged
  deriving DecidableEq, Repr

namespace SourceFile

variable {m : Type → Type} [Monad m]

def write (access : FileAccess m) (base : String) (f : SourceFile) :
    m (Except FileFault WriteResult) := do
  let path := ClassName.step base f.path
  match ← access.read path with
  | .ok content =>
    if content = f.content then return .ok .unchanged
    else return (← access.write path f.content).map fun _ => .written
  | .error _ => return (← access.write path f.content).map fun _ => .written

end SourceFile

end StagedBuilder
