/-!
# Binary floating point with 53 significant bits

The finite magnitudes are numbered in ascending order, zero being number 0. Magnitude number `k` is
`significand k * 2 ^ scale k` units, where the unit is the least positive magnitude `2 ^ (-1074)`. So
the numbering is also the bit pattern without its sign, and comparing magnitudes is comparing numbers.
Reading a quotient takes the nearest magnitude; halfway between two it takes the even one.
-/
namespace Relational

/-- How many finite magnitudes there are. -/
def Binary64.finiteCount : Nat := 2047 * Nat.pow 2 52

/-- A floating-point number. Both zeros are kept, and so are the infinities. -/
inductive Binary64 where
  | finite (negative : Bool) (rank : Fin Binary64.finiteCount)
  | infinite (negative : Bool)
  | nan
deriving DecidableEq

namespace Binary64

/-- How many times the unit is doubled. Below the second power of two it is not doubled at all. -/
def scale (k : Nat) : Nat := k / Nat.pow 2 52 - 1

def significand (k : Nat) : Nat := k - scale k * Nat.pow 2 52

/-- Magnitude number `k`, counted in units of `2 ^ (-1074)`. -/
def units (k : Nat) : Nat := significand k * Nat.pow 2 (scale k)

/-- How many units make one. -/
def unitsPerOne : Nat := Nat.pow 2 1074

@[simp] theorem units_zero : units 0 = 0 := by simp [units, significand]

/-- The integer nearest to a quotient, the even one of two. -/
def roundQuotient (num den : Nat) : Nat :=
  let quotient := num / den
  let twice := 2 * (num % den)
  if twice < den then quotient
  else if den < twice then quotient + 1
  else quotient + quotient % 2

/-- The number of the magnitude nearest to `num / den` units, were there no largest one. -/
def nearestRank (num den : Nat) : Nat :=
  let doublings := Nat.log2 (num / den) - 52
  roundQuotient num (den * Nat.pow 2 doublings) + doublings * Nat.pow 2 52

def ofRank (negative : Bool) (rank : Nat) : Binary64 :=
  if h : rank < finiteCount then .finite negative ⟨rank, h⟩ else .infinite negative

def ofQuotient (negative : Bool) (num den : Nat) : Binary64 :=
  ofRank negative (nearestRank num den)

def zero (negative : Bool) : Binary64 := .finite negative ⟨0, by decide⟩

def ofInt (k : Int) : Binary64 := ofQuotient (k < 0) (k.natAbs * unitsPerOne) 1

/-- The number nearest to `digits * 10 ^ exponent`. Beyond `10 ^ 310` and below `10 ^ (-400)` the
size of `digits` alone decides. -/
def ofDecimal (negative : Bool) (digits : Nat) (exponent : Int) : Binary64 :=
  let magnitude := (Nat.toDigits 10 digits).length + exponent
  if digits = 0 ∨ magnitude < -400 then zero negative
  else if 310 < magnitude then .infinite negative
  else if 0 ≤ exponent then
    ofQuotient negative (digits * Nat.pow 10 exponent.toNat * unitsPerOne) 1
  else ofQuotient negative (digits * unitsPerOne) (Nat.pow 10 (-exponent).toNat)

def isFinite : Binary64 → Bool
  | .finite _ _ => true
  | _ => false

def signedUnits (negative : Bool) (rank : Nat) : Int :=
  if negative then -(units rank : Int) else units rank

/-- The integer that the number is, if it is one of at most `2 ^ 63` in magnitude. -/
def whole? : Binary64 → Option Int
  | .finite negative rank =>
    let quotient := units rank / unitsPerOne
    if units rank % unitsPerOne = 0 ∧ quotient ≤ Nat.pow 2 63 then
      some (if negative then -(quotient : Int) else quotient)
    else none
  | _ => none

/-- The place of a number in the order of all numbers. Both zeros have one place; a number that is
not a number has none. -/
def place? : Binary64 → Option Int
  | .finite negative rank => some (if negative then -(rank.val : Int) else rank.val)
  | .infinite negative => some (if negative then -(finiteCount : Int) else finiteCount)
  | .nan => none

def compare? (x y : Binary64) : Option Ordering :=
  match x.place?, y.place? with
  | some i, some j => some (compare i j)
  | _, _ => none

/-- The interchange encoding: sign, exponent and fraction in 64 bits. -/
def toBits : Binary64 → Nat
  | .finite negative rank => (if negative then Nat.pow 2 63 else 0) + rank
  | .infinite negative => (if negative then Nat.pow 2 63 else 0) + finiteCount
  | .nan => finiteCount + Nat.pow 2 51

def ofBits (bits : Nat) : Binary64 :=
  let negative : Bool := bits / Nat.pow 2 63 % 2 = 1
  let rank := bits % Nat.pow 2 63
  if finiteCount < rank then .nan else ofRank negative rank

end Binary64
end Relational
