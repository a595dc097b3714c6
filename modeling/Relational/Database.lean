import Relational.Catalog
import Relational.Storage.DataDirectory
import Relational.Storage.FileStore
import Relational.Storage.TableText
import Relational.Table.Evaluate
import Relational.Table.Join

/-!
# The database

A database is a catalog of tables and a directory to store them in. Executing a statement takes one
step, which reads or writes one file at most; what comes of the step is an answer and the database
after it.
-/
namespace Relational

open Query (Statement)

structure Database where
  catalog : Catalog := .empty
  directory : DataDirectory := {}

/-- What a statement answers: a text, which may be empty, or an error. -/
abbrev Answer := Except Error String

/-- The way to the outcome of a statement. -/
inductive Step where
  | done (answer : Answer) (db : Database)
  | reading (path : String) (next : Except FileFault Bytes → Answer × Database)
  | writing (path : String) (content : Bytes) (next : Except FileFault Unit → Answer × Database)

/-- Takes a step in a store of files. -/
def Step.run (store : FileStore σ) (files : σ) : Step → Answer × Database × σ
  | .done answer db => (answer, db, files)
  | .reading path next =>
    let (answer, db) := next (store.read files path)
    (answer, db, files)
  | .writing path content next =>
    match store.write files path content with
    | .ok files =>
      let (answer, db) := next (.ok ())
      (answer, db, files)
    | .error why =>
      let (answer, db) := next (.error why)
      (answer, db, files)

namespace Database

def table (db : Database) (name : String) : Except Error Table :=
  match db.catalog.get? name with
  | some t => .ok t
  | none => .error (.tableNotFound name)

/-- Binds a table to a name, whatever was bound to it before. -/
def register (db : Database) (name : String) (t : Table) : Database :=
  { db with catalog := db.catalog.insert name t }

/-- Binds a table without rows to a name. -/
def declare (db : Database) (name : String) (attributes : List Attribute) : Database :=
  db.register name (Table.empty ⟨attributes⟩)

/-- The table of a name, and the database without it. -/
def drop (db : Database) (name : String) : Except Error (Table × Database) := do
  let t ← db.table name
  return (t, { db with catalog := db.catalog.erase name })

def insert (db : Database) (name : String) (values : List Value) : Except Error Database := do
  return db.register name (← (← db.table name).insert values)

/-- The join of the named tables, in the order of the names. -/
def merge (db : Database) (names : List String) : Except Error Table := do
  match ← Table.mergeAllByPosition? (← names.mapM db.table) with
  | some t => return t
  | none => throw (.malformed .noSourceTable)

def select (db : Database) (s : Select) : Except Error Table := do
  (← db.merge s.tables).evaluate s.projections s.conditions

/-- The outcome of a computation that may change the database and answers nothing. -/
def changed (db : Database) : Except Error Database → Answer × Database
  | .ok after => (.ok "", after)
  | .error e => (.error e, db)

/-- Reads the file of a table and binds the table to its name. -/
def load (db : Database) (name : String) : Step :=
  let path := db.directory.tablePath name
  .reading path fun found => db.changed do
    let content ← found.mapError (.file path)
    let t ← (Table.ofBytes content).mapError (.inFile path)
    return db.register name t

def store (db : Database) (name : String) : Step :=
  let path := db.directory.tablePath name
  match db.table name with
  | .error e => .done (.error e) db
  | .ok t => .writing path t.toBytes fun written => db.changed do
    written.mapError (.file path)
    return db

/-- A step that touches no file and leaves the database as it is. -/
def answers (db : Database) (answer : Answer) : Step := .done answer db

/-- A step that touches no file and answers nothing. -/
def changes (db : Database) (after : Except Error Database) : Step :=
  .done (db.changed after).1 (db.changed after).2

def perform (db : Database) : Statement → Step
  | .createTable name attributes => db.changes (.ok (db.declare name attributes))
  | .createTableAs name s => db.changes ((db.select s).map (db.register name))
  | .load name => db.load name
  | .store name => db.store name
  | .dropTable name => db.changes ((db.drop name).map Prod.snd)
  | .insert name values => db.changes (db.insert name values)
  | .print name => db.answers ((db.table name).map Table.text)
  | .select s => db.answers ((db.select s).map Table.text)

def execute (db : Database) (s : String) : Step :=
  match Statement.ofText s with
  | .ok statement => db.perform statement
  | .error why => db.answers (.error (.malformed why))

end Database

/-- An answer as text, with errors marked as such. -/
def Answer.text : Answer → String
  | .ok s => s
  | .error e => "ERROR: " ++ e.message

end Relational
