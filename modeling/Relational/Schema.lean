import Relational.Error

/-!
# Schemas

A schema is a list of named and typed columns. Names may repeat; a name then means the first column of
that name.
-/
namespace Relational

structure Attribute where
  name : String
  type : ColumnType
deriving DecidableEq

def Attribute.text (a : Attribute) : String := a.name ++ " " ++ a.type.name

structure Schema where
  attributes : List Attribute
deriving DecidableEq

namespace Schema

def length (s : Schema) : Nat := s.attributes.length

def names (s : Schema) : List String := s.attributes.map Attribute.name

/-- The position of the first column of a name. -/
def position? (s : Schema) (name : String) : Option Nat :=
  s.attributes.findIdx? fun a => a.name == name

/-- The position and the type of the first column of a name. -/
def resolve (s : Schema) (name : String) : Except Error (Nat × ColumnType) :=
  match s.position? name with
  | none => .error (.columnNotFound name)
  | some i =>
    match s.attributes[i]? with
    | none => .error (.outOfRange i)
    | some a => .ok (i, a.type)

def text (s : Schema) : String := String.intercalate "," (s.attributes.map Attribute.text)

theorem position?_lt {s : Schema} {name : String} {i : Nat} (h : s.position? name = some i) :
    i < s.length := by
  rw [position?, List.findIdx?_eq_some_iff_getElem] at h
  exact h.1

end Schema
end Relational
