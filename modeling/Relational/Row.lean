import Relational.Error

/-!
# Rows

A row is a list of values, one for each column of its table.
-/
namespace Relational

structure Row where
  values : List Value
deriving DecidableEq

namespace Row

def length (r : Row) : Nat := r.values.length

def get? (r : Row) (i : Nat) : Option Value := r.values[i]?

/-- The value at a position that has to be there. -/
def read (r : Row) (i : Nat) : Except Error Value :=
  match r.get? i with
  | some v => .ok v
  | none => .error (.outOfRange i)

def extended (r : Row) (tail : List Value) : Row := ⟨r.values ++ tail⟩

def concat (r s : Row) : Row := r.extended s.values

def text (r : Row) : String := String.intercalate "," (r.values.map Value.text)

@[simp] theorem values_extended (r : Row) (tail : List Value) :
    (r.extended tail).values = r.values ++ tail := rfl

@[simp] theorem values_concat (r s : Row) : (r.concat s).values = r.values ++ s.values := rfl

theorem read_of_lt {r : Row} {i : Nat} (h : i < r.length) :
    r.read i = .ok (r.values.get ⟨i, h⟩) := by
  have found : r.values[i]? = some (r.values.get ⟨i, h⟩) := List.getElem?_eq_getElem h
  simp [read, get?, found]

end Row
end Relational
