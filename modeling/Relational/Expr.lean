import Relational.Value

/-!
# Expressions and the clauses of a query

Expressions compute with columns and literals. A select list is made of projections, and a condition
compares a column with a column or a literal.
-/
namespace Relational

inductive Operation where
  | add
  | sub
  | mul
  | div
deriving DecidableEq

def Operation.text : Operation → String
  | .add => "+"
  | .sub => "-"
  | .mul => "*"
  | .div => "/"

inductive Expr where
  | column (name : String)
  | literal (value : Value)
  | binary (left : Expr) (operation : Operation) (right : Expr)
deriving DecidableEq

/-- An expression in writing, with all of its parentheses. -/
def Expr.text : Expr → String
  | .column name => name
  | .literal value => value.text
  | .binary left operation right =>
    "(" ++ left.text ++ " " ++ operation.text ++ " " ++ right.text ++ ")"

inductive Comparison where
  | eq
  | ne
  | le
  | ge
  | lt
  | gt
deriving DecidableEq

namespace Comparison

def text : Comparison → String
  | .eq => "=="
  | .ne => "!="
  | .le => "<="
  | .ge => ">="
  | .lt => "<"
  | .gt => ">"

/-- Whether a comparison holds of two things in the given order. Things without an order differ, and
nothing else holds of them. -/
def holds : Comparison → Option Ordering → Bool
  | .eq, order => order == some .eq
  | .ne, order => order != some .eq
  | .le, order => order == some .lt || order == some .eq
  | .ge, order => order == some .gt || order == some .eq
  | .lt, order => order == some .lt
  | .gt, order => order == some .gt

end Comparison

/-- A clause that every selected row satisfies. -/
structure Condition where
  column : String
  comparison : Comparison
  right : Expr
deriving DecidableEq

inductive Projection where
  /-- Every column of the input. -/
  | star
  | expr (expr : Expr) (alias? : Option String)
deriving DecidableEq

/-- What to compute, from the join of which tables, under which conditions. -/
structure Select where
  projections : List Projection
  tables : List String
  conditions : List Condition
deriving DecidableEq

end Relational
