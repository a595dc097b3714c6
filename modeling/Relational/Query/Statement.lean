import Relational.Query.Clause

/-!
# Statements

A statement is one command with an optional semicolon after it.
-/
namespace Relational.Query

open Rule

inductive Statement where
  | createTable (name : String) (attributes : List Attribute)
  | createTableAs (name : String) (select : Select)
  | load (name : String)
  | store (name : String)
  | dropTable (name : String)
  | insert (table : String) (values : List Value)
  | print (name : String)
  | select (select : Select)
deriving DecidableEq

def selection : Rule Select := do
  expect (.keyword .select)
  let projections ← projections
  expect (.keyword .fromTables)
  let tables ← commaSeparated identifier
  let conditions ← if ← accept (.keyword .whereRows) then conditions else pure []
  return ⟨projections, tables, conditions⟩

/-- What follows `create table`. -/
def creation : Rule Statement := do
  let name ← identifier
  match ← peek with
  | .symbol .leftParen =>
    advance
    let columns ← columnDefinitions
    expect (.symbol .rightParen)
    return .createTable name columns
  | .keyword .asName =>
    advance
    return .createTableAs name (← selection)
  | _ => unexpected .parenthesisOrAs

/-- What follows `insert into`. The parentheses around the values may be left out. -/
def insertion : Rule Statement := do
  let table ← identifier
  expect (.keyword .values)
  if ← accept (.symbol .leftParen) then
    let values ← literals
    expect (.symbol .rightParen)
    return .insert table values
  else return .insert table (← literals)

def command : Rule Statement := do
  match ← peek with
  | .keyword .create =>
    advance
    expect (.keyword .table)
    creation
  | .keyword .load =>
    advance
    return .load (← identifier)
  | .keyword .store =>
    advance
    return .store (← identifier)
  | .keyword .drop =>
    advance
    expect (.keyword .table)
    return .dropTable (← identifier)
  | .keyword .insert =>
    advance
    expect (.keyword .into)
    insertion
  | .keyword .print =>
    advance
    return .print (← identifier)
  | .keyword .select => return .select (← selection)
  | _ => unexpected .command

def statement : Rule Statement := do
  let s ← command
  let _ ← accept (.symbol .semicolon)
  return s

/-- Reads one statement. -/
def Statement.ofText (s : String) : Except Malformation Statement := statement.runOn s

/-- Reads a select list such as `a, b * 2 as c`. -/
def readProjections (s : String) : Except Malformation (List Projection) := projections.runOn s

/-- Reads conditions with `and` between them. A blank text has none. -/
def readConditions (s : String) : Except Malformation (List Condition) :=
  if Text.isBlankText s then .ok [] else conditions.runOn s

/-- Reads column definitions such as `id int, name string`. -/
def readAttributes (s : String) : Except Malformation (List Attribute) := columnDefinitions.runOn s

/-- Reads literals such as `1, 'a', NOVALUE`. -/
def readLiterals (s : String) : Except Malformation (List Value) := literals.runOn s

end Relational.Query
