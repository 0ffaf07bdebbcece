import StagedBuilder.Files
import StagedBuilder.Text.Blank

namespace StagedBuilder

inductive FileEntry
  | directory
  | file (content : ByteArray)

/-- Everything below the working directory, by the names on the way to it. -/
structure FileTree where
  entries : List (List String × FileEntry) := []

namespace FileTree

def entry? (t : FileTree) (location : List String) : Option FileEntry :=
  if location = [] then some .directory else t.entries.lookup location

def set (location : List String) (e : FileEntry) :
    List (List String × FileEntry) → List (List String × FileEntry)
  | [] => [(location, e)]
  | (l, old) :: entries =>
    if l = location then (l, e) :: entries else (l, old) :: set location e entries

def put (t : FileTree) (location : List String) (e : FileEntry) : FileTree :=
  ⟨set location e t.entries⟩

def components (path : String) : List String :=
  (Text.pieces (· = '/') path.toList).map .ofList

/-- Follows the components from a location. All but the last have to be directories, and above the
working directory there is nothing. -/
def follow (t : FileTree) : List String → List String → Except FileFault (List String)
  | location, [] => .ok location
  | location, c :: cs =>
    match t.entry? location with
    | none => .error .notFound
    | some (.file _) => .error .notADirectory
    | some .directory =>
      if c = "" ∨ c = "." then t.follow location cs
      else if c = ".." then t.follow location.dropLast cs
      else t.follow (location ++ [c]) cs

def read (t : FileTree) (path : String) : Except FileFault String := do
  if path = "" then .error .notFound
  let location ← t.follow [] (components path)
  match t.entry? location with
  | none => .error .notFound
  | some .directory => .error .isADirectory
  | some (.file content) =>
    match String.fromUTF8? content with
    | some text => .ok text
    | none => .error .invalidData

def makeDirectory (t : FileTree) (path : List String) : Except FileFault FileTree := do
  let location ← t.follow [] path
  match t.entry? location with
  | none => .ok (t.put location .directory)
  | some .directory => .ok t
  | some (.file _) => .error .alreadyExists

def makeDirectories (t : FileTree) : List String → FileTree × Except FileFault Unit
  | [] => (t, .ok ())
  | c :: above =>
    match t.makeDirectory (c :: above).reverse with
    | .ok t => (t, .ok ())
    | .error .notFound =>
      match t.makeDirectories above with
      | (t, .ok ()) =>
        match t.makeDirectory (c :: above).reverse with
        | .ok t => (t, .ok ())
        | .error e => (t, .error e)
      | failed => failed
    | .error e => (t, .error e)

def store (t : FileTree) (path : String) (content : ByteArray) : Except FileFault FileTree := do
  let location ← t.follow [] (components path)
  match t.entry? location with
  | some .directory => .error .isADirectory
  | _ => .ok (t.put location (.file content))

def directories (path : String) : List String :=
  ((components path).dropLast).filter fun c => c ≠ "" ∧ c ≠ "."

def write (t : FileTree) (path : String) (content : ByteArray) :
    FileTree × Except FileFault Unit :=
  match t.makeDirectories (directories path).reverse with
  | (t, .ok ()) =>
    match t.store path content with
    | .ok t => (t, .ok ())
    | .error e => (t, .error e)
  | failed => failed

def access : FileAccess (StateM FileTree) where
  read path := fun t => (t.read path, t)
  write path content := fun t =>
    let (t, result) := t.write path content.toUTF8
    (result, t)

def files (t : FileTree) : List (List String × ByteArray) :=
  t.entries.filterMap fun (location, e) =>
    match e with
    | .file content => some (location, content)
    | .directory => none

end FileTree

end StagedBuilder
