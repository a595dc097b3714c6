import Relational.Table.Basic

/-!
# Joins

Two tables are joined on the columns whose names they share: two rows go together if they have the
same literals in all of these, and the second table's copies are left out. Tables that share no name
are joined row by row with all rows of the other.

The join is written down twice. `merge` says what it is. `mergeByPosition` is how a database computes
it: by the positions of the shared columns, and with marks on the columns of the second table that are
left out. It reads every position with a check, and there is no failure other than a position that is
not there.
-/
namespace Relational

namespace Schema

/-- What belongs to the columns of `t` that `s` has no column of the same name for. -/
def unshared (s t : Schema) (xs : List α) : List α :=
  ((t.attributes.zip xs).filter fun x => !s.names.contains x.1.name).map Prod.snd

/-- Whether two rows of values agree in all columns that have the same name. -/
def agree (s t : Schema) (xs ys : List Value) : Bool :=
  (s.attributes.zip xs).all fun x =>
    (t.attributes.zip ys).all fun y => x.1.name != y.1.name || x.2 == y.2

/-- The positions of any two columns of the same name, in the order of `s`, then of `t`. -/
def sharedPositions (s t : Schema) : List (Nat × Nat) :=
  s.attributes.zipIdx.flatMap fun x =>
    (t.attributes.zipIdx.filter fun y => x.1.name == y.1.name).map fun y => (x.2, y.2)

end Schema

/-- Sets the marks at the second positions of the pairs. -/
def markPositions (marks : List Bool) : List (Nat × Nat) → Except Error (List Bool)
  | [] => .ok marks
  | (_, j) :: rest =>
    if j < marks.length then markPositions (marks.set j true) rest else .error (.outOfRange j)

/-- The items without a mark, where `j` is the position of the first one. -/
def unmarked (marks : List Bool) (j : Nat) : List α → Except Error (List α)
  | [] => .ok []
  | x :: xs =>
    match marks[j]? with
    | none => .error (.outOfRange j)
    | some marked => do
      let rest ← unmarked marks (j + 1) xs
      return if marked then rest else x :: rest

/-- Whether two rows have the same values at all pairs of positions. What comes after the first
difference is not read. -/
def Row.agreesAt (r q : Row) : List (Nat × Nat) → Except Error Bool
  | [] => .ok true
  | (i, j) :: rest => do
    if (← r.read i) = (← q.read j) then r.agreesAt q rest else return false

def Row.joinedWith (r : Row) (shared : List (Nat × Nat)) (marks : List Bool) :
    List Row → Except Error (List Row)
  | [] => .ok []
  | q :: qs => do
    if ← r.agreesAt q shared then
      let joined := r.extended (← unmarked marks 0 q.values)
      return joined :: (← r.joinedWith shared marks qs)
    else r.joinedWith shared marks qs

namespace Table

/-- The natural join. Its rows are in the order of the first table, then of the second. -/
def merge (t u : Table) : Table where
  schema := ⟨t.schema.attributes ++ t.schema.unshared u.schema u.schema.attributes⟩
  rows := t.rows.flatMap fun r =>
    (u.rows.filter fun q => t.schema.agree u.schema r.values q.values).map fun q =>
      r.extended (t.schema.unshared u.schema q.values)

/-- Joins tables from left to right. There is nothing to join without a table. -/
def mergeAll? : List Table → Option Table
  | [] => none
  | t :: ts => some (ts.foldl merge t)

/-- The natural join, computed by position. -/
def mergeByPosition (t u : Table) : Except Error Table := do
  let shared := t.schema.sharedPositions u.schema
  let marks ← markPositions (List.replicate u.schema.length false) shared
  let attributes ← unmarked marks 0 u.schema.attributes
  let rows ← t.rows.mapM fun r => r.joinedWith shared marks u.rows
  return ⟨⟨t.schema.attributes ++ attributes⟩, rows.flatten⟩

def mergeAllByPosition? : List Table → Except Error (Option Table)
  | [] => .ok none
  | t :: ts => (ts.foldlM mergeByPosition t).map some

end Table
end Relational
