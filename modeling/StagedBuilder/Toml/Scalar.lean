import StagedBuilder.Text.Blank
import StagedBuilder.Toml.Quoted
import StagedBuilder.Toml.Value

namespace StagedBuilder.Toml

open Text

def isScalarChar (c : Char) : Bool := !" \t\n\x0D#=,[]\x7b\x7d".toList.contains c

def isQuote (c : Char) : Bool := c = '"' || c = '\''

/-- The scalar at the front of the characters. Tabs are part of it where it goes on behind them, but
a quote behind a tab starts something else. -/
def scalarText (afterTab : Bool) : List Char → List Char
  | [] => []
  | c :: cs =>
    if c = '\t' then
      match scalarText true cs with
      | [] => []
      | more => c :: more
    else if isScalarChar c && !(afterTab && isQuote c) then c :: scalarText false cs
    else []

def isHexDigit (c : Char) : Bool := (hexDigit? c).isSome

def joined? (isDigit : Char → Bool) (s : List Char) : Option (List Char) :=
  let groups := pieces (· = '_') s
  let ends (group : List Char) := group.getLast?.any isDigit
  let starts (group : List Char) := group.head?.any isDigit
  if groups.dropLast.all ends && groups.tail.all starts then some groups.flatten else none

def digits? (base : Nat) (s : List Char) : Option Nat :=
  if s.isEmpty then none
  else s.foldlM (fun n c => do
    let d ← hexDigit? c
    if d < base then some (base * n + d) else none) 0

def unsign : List Char → Bool × List Char
  | '-' :: cs => (true, cs)
  | '+' :: cs => (false, cs)
  | cs => (false, cs)

def signed (negative : Bool) (n : Nat) : Int := if negative then -n else n

def signedDigits? (s : List Char) : Option Int :=
  (digits? 10 (unsign s).2).map (signed (unsign s).1)

def hasLeadingZero (s : List Char) : Bool :=
  match (unsign s).2 with
  | '0' :: c :: _ => c.isDigit || c = '_'
  | _ => false

def integerLimit : Nat := Nat.pow 2 63

def fits (n : Int) : Bool := -(integerLimit : Int) ≤ n && n < integerLimit

def integer : Option Int → Value
  | some n => if fits n then .integer n else .unreadable
  | none => .unreadable

def based? (base : Nat) (s : List Char) : Option Value :=
  if s.all fun c => c = '_' || (hexDigit? c).any (· < base) then
    (joined? isHexDigit s).map fun digits => integer ((digits? base digits).map Int.ofNat)
  else none

/-- A decimal integer. Behind its first underscore only the neighbours of underscores are judged; if
anything but decimal digits stands there, it has no value. -/
def decimal? (s : List Char) : Option Value :=
  let rest := (unsign s).2.dropWhile Char.isDigit
  if (unsign s).2.isEmpty || hasLeadingZero s then none
  else if rest.isEmpty || rest.head? = some '_' then
    (joined? isHexDigit s).map fun digits => integer (signedDigits? digits)
  else none

def isExponentMark (c : Char) : Bool := c = 'e' || c = 'E'

def fraction? : List Char → Option (Nat × Nat)
  | [] => some (0, 0)
  | _ :: s => (digits? 10 s).map (·, s.length)

def exponent? : List Char → Option Int
  | [] => some 0
  | _ :: s => signedDigits? s

def finite? (s : List Char) : Option Value := do
  let (negative, digits) := unsign (← joined? Char.isDigit s)
  let (mantissa, exponent) := digits.span (!isExponentMark ·)
  let (whole, fraction) := mantissa.span (· ≠ '.')
  if hasLeadingZero s then none
  else
    let (n, places) ← fraction? fraction
    let coefficient := Nat.pow 10 places * (← digits? 10 whole) + n
    match Decimal.nearest? coefficient ((← exponent? exponent) - places) with
    | some magnitude => return .float (.finite negative magnitude)
    | none => return .unreadable

def number? (s : List Char) : Option Value :=
  match s with
  | '0' :: 'x' :: cs => based? 16 cs
  | '0' :: 'o' :: cs => based? 8 cs
  | '0' :: 'b' :: cs => based? 2 cs
  | s =>
    match unsign s with
    | (negative, ['i', 'n', 'f']) => some (.float (.infinite negative))
    | (_, ['n', 'a', 'n']) => some (.float .nan)
    | _ => if s.any fun c => c = '.' || isExponentMark c then finite? s else decimal? s

def scalar? (s : List Char) : Option Value :=
  if s = "true".toList then some (.boolean true)
  else if s = "false".toList then some (.boolean false)
  else number? s

end StagedBuilder.Toml
