import Relational.Column
import Relational.Formula

/-!
# Projections

Every entry of a select list makes one column or more of the rows of a table. The columns are then put
side by side into rows.
-/
namespace Relational.Table

/-- The column of the values that `value` finds in the rows. -/
def gather (rows : List Row) (value : Row → Except Error Value) (c : Column) : Except Error Column :=
  rows.foldlM (fun c row => do c.push (← value row)) c

def copyColumn (t : Table) (i : Nat) (a : Attribute) : Except Error Column :=
  gather t.rows (fun row => row.read i) (Column.empty a.name a.type)

/-- The column of the values of an expression. -/
def compute (t : Table) (e : Expr) (name : String) : Except Error Column := do
  let (formula, type?) ← Formula.ofExpr t.schema e
  match type? with
  | none => throw (.typeConflict (.untyped e))
  | some type =>
    gather t.rows (fun row => (formula.eval row).map Scalar.value) (Column.empty name type)

def projectOne (t : Table) : Projection → Except Error (List Column)
  | .star => t.schema.attributes.zipIdx.mapM fun (a, i) => t.copyColumn i a
  | .expr (.column name) alias? => do
    let (i, type) ← t.schema.resolve name
    return [← t.copyColumn i ⟨alias?.getD name, type⟩]
  | .expr e (some name) => do return [← t.compute e name]
  | .expr e none => throw (.malformed (.aliasRequired e))

/-- Row number `i` of columns that stand side by side. -/
def rowAcross (columns : List Column) (i : Nat) : Except Error Row :=
  (columns.mapM (Column.read · i)).map Row.mk

def project (t : Table) (ps : List Projection) : Except Error Table := do
  let columns := (← ps.mapM t.projectOne).flatten
  let rows ← (List.range t.rowCount).mapM (rowAcross columns)
  return ⟨⟨columns.map Column.toAttribute⟩, rows⟩

end Relational.Table
