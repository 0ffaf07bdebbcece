namespace StagedBuilder.Toml

def isGap (c : Char) : Bool := c = ' ' || c = '\t'

def isPlain (c : Char) : Bool := c = '\t' || (0x20 ≤ c.toNat && c.toNat ≠ 0x7F)

def escapes : List (Char × Char) := [
  ('b', '\x08'), ('t', '\t'), ('n', '\n'), ('f', '\x0C'), ('r', '\x0D'), ('"', '"'),
  ('\\', '\\')]

def hexDigit? (c : Char) : Option Nat :=
  if '0' ≤ c ∧ c ≤ '9' then some (c.toNat - '0'.toNat)
  else if 'a' ≤ c ∧ c ≤ 'f' then some (c.toNat - 'a'.toNat + 10)
  else if 'A' ≤ c ∧ c ≤ 'F' then some (c.toNat - 'A'.toNat + 10)
  else none

def char? (code : Nat) : Option Char :=
  if code.isValidChar then some (Char.ofNat code) else none

inductive Place
  | text
  | backslash
  | code (left value : Nat)
  | lineEnd
  | margin
  deriving DecidableEq

structure Quotes where
  mark : Char
  multiline : Bool

namespace Quotes

def endsLine (c : Char) (next : Option Char) : Bool :=
  c = '\n' || (c = '\x0D' && next = some '\n')

def plainStep (q : Quotes) (c : Char) (next : Option Char) : Option (Place × List Char) :=
  if c = '\\' ∧ q.mark = '"' then some (.backslash, [])
  else if isPlain c ∨ (q.multiline ∧ endsLine c next) then some (.text, [c])
  else none

def lineEndStep (c : Char) (next : Option Char) : Option (Place × List Char) :=
  if c = '\n' then some (.margin, [])
  else if isGap c ∨ endsLine c next then some (.lineEnd, [])
  else none

def step (q : Quotes) : Place → Char → Option Char → Option (Place × List Char)
  | .text, c, next => q.plainStep c next
  | .backslash, c, next =>
    if c = 'u' then some (.code 4 0, [])
    else if c = 'U' then some (.code 8 0, [])
    else
      match escapes.lookup c with
      | some e => some (.text, [e])
      | none => if q.multiline then lineEndStep c next else none
  | .code left value, c, _ => do
    let value := 16 * value + (← hexDigit? c)
    if left = 1 then return (.text, [← char? value]) else return (.code (left - 1) value, [])
  | .lineEnd, c, next => lineEndStep c next
  | .margin, c, next =>
    if isGap c ∨ endsLine c next then some (.margin, [])
    else q.plainStep c next

/-- The marks that still belong to the string and what follows it, if a mark before `cs` closes it.
A string of several lines is closed by three marks, and up to two may precede them. -/
def closing? (q : Quotes) (cs : List Char) : Option (List Char × List Char) :=
  if q.multiline then
    if [q.mark, q.mark].isPrefixOf cs then
      let inside := ((cs.drop 2).take 2).takeWhile (· = q.mark)
      some (inside, (cs.drop 2).drop inside.length)
    else none
  else some ([], cs)

def content? (q : Quotes) : Place → List Char → Option (List Char × List Char)
  | _, [] => none
  | place, c :: cs =>
    if c = q.mark ∧ (place = .text ∨ place = .margin) then
      match q.closing? cs with
      | some closed => some closed
      | none => (q.content? .text cs).map fun (s, rest) => (c :: s, rest)
    else do
      let (place, out) ← q.step place c cs.head?
      let (s, rest) ← q.content? place cs
      return (out ++ s, rest)

end Quotes

def keyString? (mark : Char) (cs : List Char) : Option (List Char × List Char) :=
  Quotes.content? ⟨mark, false⟩ .text cs

/-- The string behind the opening quote of a value. Three quotes open several lines, and the end of
the line they stand on does not count. -/
def valueString? (mark : Char) (cs : List Char) : Option (List Char × List Char) :=
  if [mark, mark].isPrefixOf cs then
    match cs.drop 2 with
    | '\n' :: cs => Quotes.content? ⟨mark, true⟩ .text cs
    | '\x0D' :: '\n' :: cs => Quotes.content? ⟨mark, true⟩ .text cs
    | cs => Quotes.content? ⟨mark, true⟩ .text cs
  else keyString? mark cs

end StagedBuilder.Toml
