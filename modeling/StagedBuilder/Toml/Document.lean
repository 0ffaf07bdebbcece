import StagedBuilder.Toml.Scalar
import StagedBuilder.Toml.Table

/-!
TOML documents. A reader takes its text from the front of the characters and leaves the others.
Where readers call each other, a number bounds the depth of the calls; twice the length of the text
is enough, because one of any two nested calls takes a character.
-/

namespace StagedBuilder.Toml

abbrev Reader := StateT (List Char) Option

namespace Reader

def exactly (c : Char) : Reader Unit
  | [] => none
  | d :: cs => if d = c then some ((), cs) else none

def accept (c : Char) : Reader Bool
  | [] => some (false, [])
  | d :: cs => some (if d = c then (true, cs) else (false, d :: cs))

def gap : Reader Unit := fun cs => some ((), cs.dropWhile isGap)

def afterLines : Bool → List Char → List Char
  | _, [] => []
  | _, '\x0D' :: '\n' :: cs => afterLines false cs
  | _, '\n' :: cs => afterLines false cs
  | true, c :: cs => if isPlain c then afterLines true cs else c :: cs
  | false, c :: cs =>
    if c = '#' then afterLines true cs
    else if isGap c then afterLines false cs
    else c :: cs

def lines : Reader Unit := fun cs => some ((), afterLines false cs)

def afterComment : List Char → List Char
  | '#' :: cs => cs.dropWhile isPlain
  | cs => cs

def lineEnd : Reader Unit := fun cs =>
  match afterComment (cs.dropWhile isGap) with
  | [] => some ((), [])
  | '\n' :: cs => some ((), cs)
  | '\x0D' :: '\n' :: cs => some ((), cs)
  | _ => none

def isBareChar (c : Char) : Bool := c.isAlphanum || c = '_' || c = '-'

def simpleKey : Reader String
  | '"' :: cs => (keyString? '"' cs).map fun (s, rest) => (.ofList s, rest)
  | '\'' :: cs => (keyString? '\'' cs).map fun (s, rest) => (.ofList s, rest)
  | cs =>
    if (cs.takeWhile isBareChar).isEmpty then none
    else some (.ofList (cs.takeWhile isBareChar), cs.dropWhile isBareChar)

def keyParts : Nat → Reader Key
  | 0 => failure
  | n + 1 => do
    let first ← simpleKey
    gap
    if ← accept '.' then
      gap
      let rest ← keyParts n
      return ⟨first :: rest.path, rest.last⟩
    else return ⟨[], first⟩

def maxDepth : Nat := 80

def key : Reader Key := keyParts maxDepth

mutual

def value : Nat → Nat → Reader Value
  | _, 0 => failure
  | levels, n + 1 => fun
    | '"' :: cs => (valueString? '"' cs).map fun (s, rest) => (.string (.ofList s), rest)
    | '\'' :: cs => (valueString? '\'' cs).map fun (s, rest) => (.string (.ofList s), rest)
    | '[' :: cs => (elements levels n cs).map fun (vs, rest) => (.array vs, rest)
    | '\x7b' :: cs => do
      let (pairs, rest) ← inlinePairs levels n cs
      return (.table (← assemble pairs), rest)
    | cs =>
      let text := scalarText false cs
      (scalar? text).map fun v => (v, cs.drop text.length)
termination_by structural _ n => n

def elements : Nat → Nat → Reader (List Value)
  | 0, _ => failure
  | _, 0 => failure
  | levels + 1, n + 1 => do
    lines
    if ← accept ']' then return []
    let v ← value levels n
    lines
    if ← accept ',' then return v :: (← elements (levels + 1) n)
    exactly ']'
    return [v]
termination_by structural _ n => n

def inlinePairs : Nat → Nat → Reader (List Statement)
  | 0, _ => failure
  | _, 0 => failure
  | levels + 1, n + 1 => do
    gap
    if ← accept '\x7d' then return []
    pairs levels n
termination_by structural _ n => n

def pairs : Nat → Nat → Reader (List Statement)
  | _, 0 => failure
  | levels, n + 1 => do
    gap
    let s ← pair levels n
    gap
    if ← accept ',' then return s :: (← pairs levels n)
    exactly '\x7d'
    return [s]
termination_by structural _ n => n

def pair : Nat → Nat → Reader Statement
  | _, 0 => failure
  | levels, n + 1 => do
    let k ← key
    exactly '='
    gap
    return .pair k (← value levels n)
termination_by structural _ n => n

end

def header : Reader Key := do
  gap
  let k ← key
  exactly ']'
  return k

def statement (n : Nat) : Reader Statement
  | '[' :: '[' :: cs => do
    let (k, cs) ← header cs
    let (_, cs) ← exactly ']' cs
    return (.elementHeader k, cs)
  | '[' :: cs => (header cs).map fun (k, cs) => (.header k, cs)
  | cs => pair maxDepth n cs

def statements : Nat → Reader (List Statement)
  | 0 => failure
  | n + 1 => do
    lines
    if (← get).isEmpty then return []
    let s ← statement n
    lineEnd
    return s :: (← statements n)

end Reader

def read (text : String) : Option (List (String × Value)) := do
  let cs := if text.toList.head? = some '\uFEFF' then text.toList.drop 1 else text.toList
  let (statements, _) ← Reader.statements (2 * cs.length + 4) cs
  assemble statements

end StagedBuilder.Toml
