import StagedBuilder.Toml.Value

/-!
Tables under construction. A key may be given once, a header may open a table once, and neither may
change what the other has made.
-/

namespace StagedBuilder.Toml

inductive Origin
  | passed
  | dotted
  | opened
  deriving DecidableEq

inductive Node
  | value (v : Value)
  | table (origin : Origin) (entries : List (String × Node))
  /-- The tables that headers in double brackets opened, the latest first. -/
  | tables (latest : List (String × Node)) (earlier : List (List (String × Node)))

abbrev Entries := List (String × Node)

namespace Node

mutual

def toValue : Node → Value
  | .value v => v
  | .table _ entries => .table (entriesValue entries)
  | .tables latest earlier => .array (elements earlier [.table (entriesValue latest)])

def entriesValue : List (String × Node) → List (String × Value)
  | [] => []
  | (key, node) :: entries => (key, node.toValue) :: entriesValue entries

def elements : List (List (String × Node)) → List Value → List Value
  | [], vs => vs
  | entries :: earlier, vs => elements earlier (.table (entriesValue entries) :: vs)

end

end Node

namespace Entries

def update (key : String) (f : Option Node → Option Node) : Entries → Option Entries
  | [] => (f none).map fun node => [(key, node)]
  | (k, node) :: entries =>
    if k = key then (f (some node)).map fun node => (k, node) :: entries
    else (update key f entries).map ((k, node) :: ·)

/-- Changes the table that a header names. The path leads through tables of any origin and through
the latest of the tables under a key. -/
def within (f : Entries → Option Entries) : List String → Entries → Option Entries
  | [], entries => f entries
  | key :: path, entries =>
    entries.update key fun
      | none => (within f path []).map (.table .passed)
      | some (.table origin inner) => (within f path inner).map (.table origin)
      | some (.tables latest earlier) => (within f path latest).map (.tables · earlier)
      | some (.value _) => none

/-- Adds a key with its dotted path. The path leads through tables that no header opened, and the
key itself goes into a table that only dotted keys have made. -/
def add (key : String) (value : Value) : List String → Entries → Option Entries
  | [], entries =>
    entries.update key fun
      | none => some (.value value)
      | some _ => none
  | k :: path, entries =>
    entries.update k fun
      | none => (add key value path []).map (.table .dotted)
      | some (.table .dotted inner) => (add key value path inner).map (.table .dotted)
      | some (.table .passed inner) =>
        if path.isEmpty then none else (add key value path inner).map (.table .passed)
      | some (.tables latest earlier) =>
        if path.isEmpty then none else (add key value path latest).map (.tables · earlier)
      | some _ => none

def putLast (key : String) (node : Node) (entries : Entries) : Entries :=
  entries.filter (·.1 ≠ key) ++ [(key, node)]

/-- Opens the table that a header names; until then it may only have been passed. It takes its place
now, behind the tables that were opened before it. -/
def openTable (key : String) (path : List String) (entries : Entries) : Option Entries :=
  entries.within (fun siblings =>
    match siblings.lookup key with
    | none => some (siblings.putLast key (.table .opened []))
    | some (.table .passed inner) => some (siblings.putLast key (.table .opened inner))
    | some _ => none) path

def openElement (key : String) (path : List String) (entries : Entries) : Option Entries :=
  entries.within (update key fun
    | none => some (.tables [] [])
    | some (.tables latest earlier) => some (.tables [] (latest :: earlier))
    | some _ => none) path

end Entries

structure Key where
  path : List String
  last : String

namespace Key

def all (k : Key) : List String := k.path ++ [k.last]

end Key

inductive Statement
  | header (key : Key)
  | elementHeader (key : Key)
  | pair (key : Key) (value : Value)

def assembleFrom : List String → Entries → List Statement → Option Entries
  | _, entries, [] => some entries
  | current, entries, s :: rest =>
    match s with
    | .header key => do assembleFrom key.all (← entries.openTable key.last key.path) rest
    | .elementHeader key => do assembleFrom key.all (← entries.openElement key.last key.path) rest
    | .pair key value => do
      assembleFrom current (← entries.within (·.add key.last value key.path) current) rest

def assemble (statements : List Statement) : Option (List (String × Value)) :=
  (assembleFrom [] [] statements).map Node.entriesValue

end StagedBuilder.Toml
