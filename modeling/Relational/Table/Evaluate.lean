import Relational.Table.Filter
import Relational.Table.Project

/-!
# Queries on one table

Each condition filters and projects what the one before it has left, so it sees only the columns that
were selected.
-/
namespace Relational.Table

def select (t : Table) (ps : List Projection) (c? : Option Condition) : Except Error Table := do
  (← t.filter c?).project ps

/-- Selects once for each condition, or once if there is none. -/
def evaluate (t : Table) (ps : List Projection) : List Condition → Except Error Table
  | [] => t.select ps none
  | c :: cs => do
    cs.foldlM (fun u d => u.select ps (some d)) (← t.select ps (some c))

end Relational.Table
