import Relational.Table.Basic

/-!
# Filters

A condition is first checked against the schema, and what it finds there is then tested on each row.
Strings are ordered by code points, numbers as floating-point numbers, and a comparison with a missing
value does not hold.
-/
namespace Relational

inductive Test.Operand where
  | column (position : Nat)
  | literal (value : Value)
deriving DecidableEq

/-- A condition whose columns have been found and whose types go together. -/
structure Test where
  left : Nat
  comparison : Comparison
  right : Test.Operand
  /-- Whether strings are compared. -/
  textual : Bool
deriving DecidableEq

namespace Test

def Operand.resolve (schema : Schema) : Expr → Except Error (Operand × Option ColumnType)
  | .column name => do
    let (position, type) ← schema.resolve name
    return (.column position, some type)
  | .literal value => .ok (.literal value, value.literal?.map ColumnType.ofOperand)
  | e@(.binary _ _ _) => .error (.malformed (.compoundOperand e))

def resolve (schema : Schema) (c : Condition) : Except Error Test := do
  let (left, leftType) ← schema.resolve c.column
  let (right, rightType?) ← Operand.resolve schema c.right
  let textual : Bool := leftType = .string
  if rightType?.all fun type => decide (type = .string) == textual then
    return ⟨left, c.comparison, right, textual⟩
  else throw (.typeConflict .comparedKinds)

def Operand.value (row : Row) : Operand → Except Error Value
  | .column position => row.read position
  | .literal value => .ok value

def number (s : String) : Except Error Binary64 :=
  match Binary64.read? (Text.trim s) with
  | some x => .ok x
  | none => .error (.typeConflict (.notANumber s))

def compares (t : Test) : Value → Value → Except Error Bool
  | .literal l, .literal r =>
    if t.textual then .ok (t.comparison.holds (some (compare l r)))
    else do return t.comparison.holds ((← number l).compare? (← number r))
  | _, _ => .ok false

def passes (t : Test) (row : Row) : Except Error Bool := do
  t.compares (← row.read t.left) (← t.right.value row)

end Test

namespace Table

def selection (t : Table) (c : Condition) : Except Error (List Bool) := do
  let test ← Test.resolve t.schema c
  t.rows.mapM test.passes

/-- The rows that satisfy the condition, if there is one. -/
def filter (t : Table) : Option Condition → Except Error Table
  | none => .ok t
  | some c => do
    let selected ← t.selection c
    return ⟨t.schema, ((t.rows.zip selected).filter Prod.snd).map Prod.fst⟩

end Table
end Relational
