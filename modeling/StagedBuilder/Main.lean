import StagedBuilder.CommandLine.Run

open StagedBuilder

def faultOf : IO.Error → FileFault
  | .noFileOrDirectory .. => .notFound
  | .inappropriateType _ 21 _ => .isADirectory
  | .inappropriateType .. => .notADirectory
  | .alreadyExists .. => .alreadyExists
  | e => .other (toString e)

def guarded (action : IO (Except FileFault α)) : IO (Except FileFault α) :=
  action.catchExceptions fun e => return .error (faultOf e)

def systemFiles : FileAccess IO where
  read path := guarded do
    match String.fromUTF8? (← IO.FS.readBinFile path) with
    | some text => return .ok text
    | none => return .error .invalidData
  write path content := guarded do
    let directory := String.ofList (path.toList.reverse.dropWhile (· ≠ '/')).reverse
    if directory ≠ "" then IO.FS.createDirAll directory
    IO.FS.writeFile path content
    return .ok ()

def main (args : List String) : IO UInt32 := do
  let outcome ← CommandLine.run systemFiles args
  (← IO.getStdout).putStr outcome.output
  (← IO.getStderr).putStr outcome.errors
  return outcome.exitCode
