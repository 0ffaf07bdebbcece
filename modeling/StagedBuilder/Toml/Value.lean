import StagedBuilder.Text.Decimal

namespace StagedBuilder.Toml

open Text.Decimal (Binary)

inductive FloatValue
  | finite (negative : Bool) (magnitude : Binary)
  | infinite (negative : Bool)
  | nan
  deriving DecidableEq, Repr

inductive Value
  | string (text : String)
  | integer (value : Int)
  | float (value : FloatValue)
  /-- A number that has no value, because it is out of range or because digits are missing or of
  another base. A document may hold it, but nobody can read it. -/
  | unreadable
  | boolean (value : Bool)
  /-- A date, a time or both, as it is written. -/
  | moment (text : String)
  | array (elements : List Value)
  | table (entries : List (String × Value))
  deriving Inhabited, Repr

namespace Value

mutual

def isReadable : Value → Bool
  | .unreadable => false
  | .array vs => areReadable vs
  | .table entries => hasReadable entries
  | _ => true

def areReadable : List Value → Bool
  | [] => true
  | v :: vs => v.isReadable && areReadable vs

def hasReadable : List (String × Value) → Bool
  | [] => true
  | (_, v) :: entries => v.isReadable && hasReadable entries

end

end Value

abbrev Reading := String → Option (List (String × Value))

end StagedBuilder.Toml
