import Relational.Row
import Relational.Schema

/-!
# Tables

A table is a schema with rows in the order in which they came. Inserting a row checks every value
against the type of its column and stores it in the form of that type.
-/
namespace Relational

/-- The type of a value, which a missing value does not have. A literal that reads as nothing of any
type fits nowhere. -/
def Value.columnType : Value → Except Error (Option ColumnType)
  | .noValue => .ok none
  | .literal s =>
    match ColumnType.ofLiteral? s with
    | some type => .ok (some type)
    | none => .error .schemaViolation

def Attribute.accept (a : Attribute) (v : Value) : Except Error Value :=
  match v.columnType with
  | .error e => .error e
  | .ok none => .ok (v.normalized a.type)
  | .ok (some type) => if type = a.type then .ok (v.normalized a.type) else .error .schemaViolation

namespace Schema

def acceptAll : List Attribute → List Value → Except Error (List Value)
  | a :: as, v :: vs => do return (← a.accept v) :: (← acceptAll as vs)
  | _, _ => .ok []

/-- The row of the given values, if there is one for every column and each fits its column. -/
def accept (s : Schema) (values : List Value) : Except Error Row :=
  if values.length = s.length then (acceptAll s.attributes values).map Row.mk
  else .error .schemaViolation

end Schema

structure Table where
  schema : Schema
  rows : List Row
deriving DecidableEq

namespace Table

def empty (schema : Schema) : Table := ⟨schema, []⟩

def rowCount (t : Table) : Nat := t.rows.length

def row? (t : Table) (i : Nat) : Option Row := t.rows[i]?

def insert (t : Table) (values : List Value) : Except Error Table :=
  (t.schema.accept values).map fun r => ⟨t.schema, t.rows ++ [r]⟩

def insertAll (t : Table) : List (List Value) → Except Error Table
  | [] => .ok t
  | values :: rest => do insertAll (← t.insert values) rest

def lines (t : Table) : List String := t.schema.text :: t.rows.map Row.text

def text (t : Table) : String := String.intercalate "\n" t.lines

@[simp] theorem schema_empty (s : Schema) : (empty s).schema = s := rfl

@[simp] theorem rows_empty (s : Schema) : (empty s).rows = [] := rfl

theorem insert_eq_ok {t u : Table} {values : List Value} (h : t.insert values = .ok u) :
    ∃ r, t.schema.accept values = .ok r ∧ u = ⟨t.schema, t.rows ++ [r]⟩ := by
  unfold insert at h
  cases hr : t.schema.accept values with
  | error e => rw [hr] at h; cases h
  | ok r => rw [hr] at h; cases h; exact ⟨r, rfl, rfl⟩

end Table
end Relational
