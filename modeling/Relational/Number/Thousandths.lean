import Relational.Number.Shortest

/-!
# Three decimal places

Floating-point numbers are stored with three decimal places. It is the shortest decimal of the number
that is rounded, and a half goes away from zero.
-/
namespace Relational.Binary64

/-- A decimal in steps of `10 ^ (-places)`, rounded to thousandths. -/
def thousandths (decimal : Nat) : Nat :=
  (decimal + 5 * Nat.pow 10 (places - 4)) / Nat.pow 10 (places - 3)

/-- A number of thousandths, with all of its three decimal places. -/
def thousandthsDigits (n : Nat) : List Char :=
  Nat.toDigits 10 (n / 1000) ++
    ['.', Nat.digitChar (n / 100 % 10), Nat.digitChar (n / 10 % 10), Nat.digitChar (n % 10)]

def storedText : Binary64 → String
  | .finite negative rank =>
    String.ofList (signDigits negative ++ thousandthsDigits (thousandths (shortest rank)))
  | .infinite negative => infinityText negative
  | .nan => nanText

end Relational.Binary64
