import Relational.Table.Basic

/-!
# Columns

A column is built from the top to the bottom. It keeps the texts of its literals, and in a bitmap which
of its values are missing; a missing value has an empty text in its place.
-/
namespace Relational

structure Column where
  name : String
  type : ColumnType
  texts : Array String
  /-- Whether each value is missing. -/
  missing : Array Bool
deriving DecidableEq

namespace Column

def empty (name : String) (type : ColumnType) : Column := ⟨name, type, #[], #[]⟩

def size (c : Column) : Nat := c.missing.size

/-- The column with one more value, which has to be missing or of the column's type. -/
def push (c : Column) : Value → Except Error Column
  | .noValue => .ok { c with texts := c.texts.push "", missing := c.missing.push true }
  | .literal s =>
    if ColumnType.ofLiteral? s = some c.type then
      .ok { c with texts := c.texts.push s, missing := c.missing.push false }
    else .error (.typeConflict (.misfit s c.name c.type))

/-- The value at a position that has to be there. -/
def read (c : Column) (i : Nat) : Except Error Value :=
  match c.missing[i]?, c.texts[i]? with
  | some true, _ => .ok .noValue
  | some false, some s => .ok (.literal s)
  | _, _ => .error (.outOfRange i)

def entry (missing : Bool) (s : String) : Value := if missing then .noValue else .literal s

def toList (c : Column) : List Value := List.zipWith entry c.missing.toList c.texts.toList

def get? (c : Column) (i : Nat) : Option Value := (c.read i).toOption

def toAttribute (c : Column) : Attribute := ⟨c.name, c.type⟩

@[simp] theorem size_empty (name : String) (type : ColumnType) : (empty name type).size = 0 := rfl

@[simp] theorem toList_empty (name : String) (type : ColumnType) :
    (empty name type).toList = [] := rfl

end Column
end Relational
