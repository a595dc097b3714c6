import Relational.Number.Binary64

/-!
# The shortest decimal of a floating-point number

Every magnitude, and every midpoint between two neighbours, is a whole number of steps of
`10 ^ (-1075)`, so decimals are counted in these steps and all comparisons are exact. A decimal reads
back as magnitude number `k` if it lies between the midpoints around it, the midpoints themselves
included when `k` is even. The shortest decimal is on the coarsest grid of powers of ten that has such
a decimal, and nearest to the magnitude there; of two equally near ones it is the larger.
-/
namespace Relational.Binary64

/-- The number of decimal places counted. -/
def places : Nat := 1075

/-- Magnitude number `k` in steps of `10 ^ (-places)`. -/
def steps (k : Nat) : Nat := 2 * units k * Nat.pow 5 places

/-- The midpoint between magnitude number `k` and the one before it. -/
def lowerMidpoint (k : Nat) : Nat := (units (k - 1) + units k) * Nat.pow 5 places

def upperMidpoint (k : Nat) : Nat := (units k + units (k + 1)) * Nat.pow 5 places

/-- Whether a decimal reads back as magnitude number `k`. -/
def readsBack (k decimal : Nat) : Bool :=
  if k % 2 = 0 then lowerMidpoint k ≤ decimal && decimal ≤ upperMidpoint k
  else lowerMidpoint k < decimal && decimal < upperMidpoint k

/-- The multiple of `10 ^ j` that stands for magnitude number `k`, if one reads back as it. -/
def onGrid? (k j : Nat) : Option Nat :=
  let below := steps k / Nat.pow 10 j * Nat.pow 10 j
  let above := below + Nat.pow 10 j
  if readsBack k below && (!readsBack k above || 2 * (steps k - below) < Nat.pow 10 j) then some below
  else if readsBack k above then some above
  else none

/-- The decimal on the coarsest grid from `10 ^ j` downwards. The finest grid holds the magnitude
itself. -/
def coarsest (k : Nat) : Nat → Nat
  | 0 => steps k
  | j + 1 => (onGrid? k (j + 1)).getD (coarsest k j)

/-- The shortest decimal that reads back as magnitude number `k`, in steps of `10 ^ (-places)`. -/
def shortest (k : Nat) : Nat :=
  if k = 0 then 0 else coarsest k (Nat.log2 (upperMidpoint k) / 3 + 1)

/-- The digits after the point, without zeros at the end. -/
def fractionDigits (decimal : Nat) : List Char :=
  let digits := Nat.toDigits 10 (decimal % Nat.pow 10 places)
  let padded := List.replicate (places - digits.length) '0' ++ digits
  (padded.reverse.dropWhile (· == '0')).reverse

/-- A decimal written out without an exponent. -/
def decimalDigits (decimal : Nat) : List Char :=
  let whole := Nat.toDigits 10 (decimal / Nat.pow 10 places)
  match fractionDigits decimal with
  | [] => whole
  | fraction => whole ++ '.' :: fraction

def signDigits (negative : Bool) : List Char := if negative then ['-'] else []

/-- The texts of the numbers that have no digits. -/
def infinityText (negative : Bool) : String := if negative then "-inf" else "inf"

def nanText : String := "NaN"

/-- The number written with the fewest digits that read back as it, without an exponent. -/
def text : Binary64 → String
  | .finite negative rank => String.ofList (signDigits negative ++ decimalDigits (shortest rank))
  | .infinite negative => infinityText negative
  | .nan => nanText

end Relational.Binary64
