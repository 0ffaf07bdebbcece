/-!
The shortest decimal text of a binary number of double precision: the fewest digits from which the
number is read back, and of those the nearest to it, or the greater of two that are equally near.
Numbers are quotients of naturals throughout.
-/

namespace StagedBuilder.Text.Decimal

structure Ratio where
  num : Nat
  den : Nat
  deriving DecidableEq

namespace Ratio

def scale (base : Nat) (r : Ratio) : Int → Ratio
  | .ofNat k => ⟨r.num * Nat.pow base k, r.den⟩
  | .negSucc k => ⟨r.num, r.den * Nat.pow base (k + 1)⟩

def floor (r : Ratio) : Nat := r.num / r.den

def round (r : Ratio) : Nat :=
  let q := r.floor
  match compare (2 * (r.num % r.den)) r.den with
  | .lt => q
  | .eq => q + q % 2
  | .gt => q + 1

def roundUp (r : Ratio) : Nat := (2 * r.num + r.den) / (2 * r.den)

def le (r s : Ratio) : Bool := r.num * s.den ≤ s.num * r.den

def lt (r s : Ratio) : Bool := r.num * s.den < s.num * r.den

def exponentNear (base : Nat) (r : Ratio) (guess : Int) : Int :=
  if (r.scale base (-guess)).floor = 0 then guess - 1 else guess

def binaryExponent (r : Ratio) : Int :=
  r.exponentNear 2 ((r.num.log2 : Int) - r.den.log2)

def digitCount (n : Nat) : Nat := (Nat.toDigits 10 n).length

def decimalExponent (r : Ratio) : Int :=
  r.exponentNear 10 ((digitCount r.num : Int) - digitCount r.den)

end Ratio

structure Binary where
  mantissa : Nat
  exponent : Int
  deriving DecidableEq, Repr

namespace Binary

def leastExponent : Int := -1074

def greatestExponent : Int := 971

def mantissaLimit : Nat := Nat.pow 2 53

def nearest? (r : Ratio) : Option Binary :=
  let e := max (r.binaryExponent - 52) leastExponent
  let m := (r.scale 2 (-e)).round
  let b : Binary := if m = mantissaLimit then ⟨m / 2, e + 1⟩ else ⟨m, e⟩
  if greatestExponent < b.exponent then none else some b

def ratio (b : Binary) : Ratio := Ratio.scale 2 ⟨b.mantissa, 1⟩ b.exponent

/-- Whether the quotient is read as this number. The gap below a power of two is half as wide as
the one above it, and a quotient halfway is read as the even neighbour. -/
def isReadFrom (b : Binary) (r : Ratio) : Bool :=
  let quarters (n : Nat) := Ratio.scale 2 ⟨n, 1⟩ (b.exponent - 2)
  let narrow := b.mantissa = mantissaLimit / 2 && leastExponent < b.exponent
  let low := quarters (4 * b.mantissa - if narrow then 1 else 2)
  let high := quarters (4 * b.mantissa + 2)
  if b.mantissa % 2 = 0 then low.le r && r.le high else low.lt r && r.lt high

def scaleFor (b : Binary) (count : Nat) : Int := b.ratio.decimalExponent + 1 - count

def digits? (b : Binary) (count : Nat) : Option (Nat × Int) :=
  let e := b.scaleFor count
  let scaled := b.ratio.scale 10 (-e)
  let low := scaled.floor
  let reads (n : Nat) := b.isReadFrom (Ratio.scale 10 ⟨n, 1⟩ e)
  match reads low, reads (low + 1) with
  | true, true => some (scaled.roundUp, e)
  | true, false => some (low, e)
  | false, true => some (low + 1, e)
  | false, false => none

/-- An integer of the fewest digits and the exponent of ten that scales it to be read as `b`; any
number is read back from the nearest one of seventeen digits. A nine that is rounded up is a one. -/
def shortest (b : Binary) : Nat × Int :=
  match (List.range 16).findSome? fun n => b.digits? (n + 1) with
  | some (n, e) => if n = 10 then (1, e + 1) else (n, e)
  | none => ((b.ratio.scale 10 (-b.scaleFor 17)).roundUp, b.scaleFor 17)

end Binary

def positional (n : Nat) (exponent : Int) : List Char :=
  let digits := Nat.toDigits 10 n
  match exponent with
  | .ofNat k => digits ++ .replicate k '0' ++ ['.', '0']
  | .negSucc k =>
    let digits := .replicate (k + 2 - digits.length) '0' ++ digits
    digits.take (digits.length - (k + 1)) ++ '.' :: digits.drop (digits.length - (k + 1))

def Binary.text (b : Binary) : List Char :=
  if b.mantissa = 0 then positional 0 0 else positional b.shortest.1 b.shortest.2

def nearest? (coefficient : Nat) (exponent : Int) : Option Binary :=
  let magnitude := exponent + Ratio.digitCount coefficient
  if coefficient = 0 ∨ magnitude < -330 then some ⟨0, 0⟩
  else if 310 < magnitude then none
  else Binary.nearest? (Ratio.scale 10 ⟨coefficient, 1⟩ exponent)

end StagedBuilder.Text.Decimal
