import Relational.Number.Binary64
import Relational.Number.Integer

/-!
# Reading numbers

An integer is an optional sign and digits. A decimal may have a point among its digits and an exponent
after them; infinity and the number that is not a number are read by name.
-/
namespace Relational

/-- A leading sign, as whether it is a minus, and what follows it. -/
def splitSign : List Char → Bool × List Char
  | '-' :: cs => (true, cs)
  | '+' :: cs => (false, cs)
  | cs => (false, cs)

def isDigits (cs : List Char) : Bool := !cs.isEmpty && cs.all Char.isDigit

def digitsValue (cs : List Char) : Nat := Nat.ofDigitChars 10 cs 0

def signed (negative : Bool) (n : Nat) : Int := if negative then -(n : Int) else n

def Integer.read? (s : String) : Option Integer :=
  let (negative, digits) := splitSign s.toList
  if isDigits digits then ofInt? (signed negative (digitsValue digits)) else none

/-- The exponent at the end of a decimal; no exponent counts as zero. -/
def readExponent? : List Char → Option Int
  | [] => some 0
  | c :: cs =>
    let (negative, digits) := splitSign cs
    if (c = 'e' ∨ c = 'E') ∧ isDigits digits then some (signed negative (digitsValue digits))
    else none

/-- The digits after a point, if there is one, and what follows them. -/
def splitFraction : List Char → List Char × List Char
  | '.' :: cs => (cs.takeWhile Char.isDigit, cs.dropWhile Char.isDigit)
  | cs => ([], cs)

/-- A decimal without its sign, as its digits and the power of ten that scales them. -/
def readDecimal? (cs : List Char) : Option (Nat × Int) :=
  let whole := cs.takeWhile Char.isDigit
  let (fraction, rest) := splitFraction (cs.dropWhile Char.isDigit)
  if whole.isEmpty && fraction.isEmpty then none
  else (readExponent? rest).map fun exponent =>
    (digitsValue (whole ++ fraction), exponent - fraction.length)

/-- The numbers that are read by name, in any letter case. -/
def Binary64.ofName? (negative : Bool) (cs : List Char) : Option Binary64 :=
  let name := cs.map Char.toLower
  if name = ['n', 'a', 'n'] then some .nan
  else if name = ['i', 'n', 'f'] ∨ name = ['i', 'n', 'f', 'i', 'n', 'i', 't', 'y'] then
    some (.infinite negative)
  else none

def Binary64.read? (s : String) : Option Binary64 :=
  let (negative, cs) := splitSign s.toList
  match readDecimal? cs with
  | some (digits, exponent) => some (ofDecimal negative digits exponent)
  | none => ofName? negative cs

end Relational
