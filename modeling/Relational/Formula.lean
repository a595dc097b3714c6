import Relational.Row
import Relational.Scalar
import Relational.Schema

/-!
# Formulas

A formula is an expression whose columns have been found in a schema and whose types have been found
to go together. It is evaluated on one row at a time.
-/
namespace Relational

inductive Formula where
  | column (position : Nat) (type : ColumnType)
  | literal (scalar : Scalar)
  | binary (left : Formula) (operation : Operation) (right : Formula) (type : ColumnType)
deriving DecidableEq

namespace Formula

/-- The type of a literal operand, which a missing value does not have. -/
def operandType? (v : Value) : Option ColumnType := v.literal?.map ColumnType.ofOperand

/-- The type of a binary formula. A side without a type takes the type of the other side. -/
def binaryType? (operation : Operation) :
    Option ColumnType → Option ColumnType → Except Error (Option ColumnType)
  | some l, some r => (operation.resultType l r).map some
  | some l, none => (operation.resultType l l).map some
  | none, some r => (operation.resultType r r).map some
  | none, none => .ok none

/-- The formula of an expression with its type. Only an expression that is made of missing values
alone has no type. -/
def ofExpr (schema : Schema) : Expr → Except Error (Formula × Option ColumnType)
  | .column name => do
    let (position, type) ← schema.resolve name
    return (.column position type, some type)
  | .literal v => .ok (.literal (Scalar.ofOperand v), operandType? v)
  | .binary left operation right => do
    let (l, leftType?) ← ofExpr schema left
    let (r, rightType?) ← ofExpr schema right
    let type? ← binaryType? operation leftType? rightType?
    return (.binary l operation r (type?.getD .int), type?)

def eval (row : Row) : Formula → Except Error Scalar
  | .column position type => do Scalar.ofStored type (← row.read position)
  | .literal scalar => .ok scalar
  | .binary left operation right type => do
    let l ← left.eval row
    let r ← right.eval row
    operation.apply type l r

end Formula
end Relational
