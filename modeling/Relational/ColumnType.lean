import Relational.Number.Numeral
import Relational.Text.Blank

/-!
# Column types

The type of a column says how the literals stored in it are read. A stored literal shows its type by
its shape: a quote makes it a string, a point a float, and everything else has to be an integer. An
operand in a query is read more freely, see `ofOperand`.
-/
namespace Relational

inductive ColumnType where
  | string
  | int
  | float
deriving DecidableEq

namespace ColumnType

def name : ColumnType → String
  | .string => "string"
  | .int => "int"
  | .float => "float"

def ofName? (s : String) : Option ColumnType :=
  if s = "string" then some .string
  else if s = "int" then some .int
  else if s = "float" then some .float
  else none

theorem ofName?_name (type : ColumnType) : ofName? type.name = some type := by
  cases type <;> rfl

/-- The type that a stored literal belongs to, if it reads as the number its shape announces. -/
def ofLiteral? (s : String) : Option ColumnType :=
  if '\'' ∈ s.toList then some .string
  else if '.' ∈ s.toList then (Binary64.read? s).map fun _ => .float
  else (Integer.read? s).map fun _ => .int

/-- The type of a literal operand. Whole numbers are integers however they are written, other numbers
are floats, and what does not read as a number is a string. -/
def ofOperand (s : String) : ColumnType :=
  match Binary64.read? (Text.trim s) with
  | some x => if x.whole?.isSome then .int else .float
  | none => .string

end ColumnType
end Relational
