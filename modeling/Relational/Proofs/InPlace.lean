import Relational.Proofs.Columns
import Relational.Proofs.Runs

/-!
# Updates in place

Columns, tables and databases can also be updated in place. What such an update has changed before
it fails stays changed, so it leaves no trace of a failure only if everything that can fail comes
before the first change, or if the change was none. In this order, each update in place has the
outcome of the computation that returns the value after it, and a statement the outcome of its step.
-/
namespace Relational

open Query (Statement)

variable {σ α β : Type}

/-- A computation that updates a value in place. A failure does not undo what it has done so far. -/
abbrev Update (σ α : Type) := EStateM Error σ α

namespace Update

/-- What an update comes to, and the value that it leaves. -/
def outcome (u : Update σ α) (s : σ) : Except Error α × σ :=
  match u s with
  | .ok a after => (.ok a, after)
  | .error e after => (.error e, after)

/-- Fails as a computation has failed, or goes on with its result. -/
def checked : Except Error α → Update σ α
  | .ok a => pure a
  | .error e => throw e

/-- Goes on with what is computed from the value as it stands. -/
def asked (f : σ → Except Error α) : Update σ α := do
  checked (f (← get))

/-- The outcome if the value after the update is computed as a whole. -/
def computed (s : σ) : Except Error (α × σ) → Except Error α × σ
  | .ok (a, after) => (.ok a, after)
  | .error e => (.error e, s)

@[simp] theorem outcome_pure (a : α) (s : σ) : outcome (pure a) s = (.ok a, s) := rfl

@[simp] theorem outcome_throw (e : Error) (s : σ) :
    outcome (throw e : Update σ α) s = (.error e, s) := rfl

@[simp] theorem outcome_get (s : σ) : outcome get s = (.ok s, s) := rfl

@[simp] theorem outcome_modify (f : σ → σ) (s : σ) : outcome (modify f) s = (.ok (), f s) := rfl

@[simp] theorem outcome_checked (x : Except Error α) (s : σ) : outcome (checked x) s = (x, s) := by
  cases x <;> rfl

@[simp] theorem outcome_bind (u : Update σ α) (f : α → Update σ β) (s : σ) :
    outcome (u >>= f) s = match u.outcome s with
      | (.ok a, after) => (f a).outcome after
      | (.error e, after) => (.error e, after) := by
  show (match EStateM.bind u f s with | .ok .. => _ | .error .. => _) = _
  unfold EStateM.bind outcome
  cases u s <;> rfl

@[simp] theorem outcome_asked (f : σ → Except Error α) (s : σ) :
    outcome (asked f) s = (f s, s) := by
  simp [asked]

end Update

namespace Column

/-- Marks the value as missing or not, and then puts its text beside the mark. -/
def pushInPlace : Value → Update Column Unit
  | .noValue => do
    modify fun c => { c with missing := c.missing.push true }
    modify fun c => { c with texts := c.texts.push "" }
  | .literal s => do
    let c ← get
    if ColumnType.ofLiteral? s ≠ some c.type then
      throw (.typeConflict (.misfit s c.name c.type))
    modify fun c => { c with missing := c.missing.push false }
    modify fun c => { c with texts := c.texts.push s }

theorem outcome_pushInPlace (c : Column) (v : Value) :
    (pushInPlace v).outcome c = Update.computed c ((c.push v).map ((), ·)) := by
  cases v with
  | noValue => rfl
  | literal s =>
    by_cases fits : ColumnType.ofLiteral? s = some c.type <;>
      simp [pushInPlace, Update.computed, push, Except.map, fits]

/-- Values that are pushed in place, refused ones among them, leave the column that has been
offered them. -/
theorem foldl_pushInPlace (c : Column) (vs : List Value) :
    vs.foldl (fun c v => ((pushInPlace v).outcome c).2) c = (c.offer vs).1 := by
  induction vs generalizing c with
  | nil => rfl
  | cons v vs ih =>
    rw [List.foldl_cons, outcome_pushInPlace, ih, offer]
    cases c.push v <;> rfl

end Column

namespace Table

/-- Accepts all the values first, and then appends one row. -/
def insertInPlace (values : List Value) : Update Table Unit := do
  let r ← Update.asked fun t => t.schema.accept values
  modify fun t => { t with rows := t.rows ++ [r] }

theorem outcome_insertInPlace (t : Table) (values : List Value) :
    (insertInPlace values).outcome t = Update.computed t ((t.insert values).map ((), ·)) := by
  simp only [insertInPlace, insert, Update.outcome_bind, Update.outcome_asked]
  cases t.schema.accept values <;> rfl

end Table

namespace Database

/-- Updates the table of a name where it is bound. What the update leaves of it is bound even if the
update has failed. -/
def updateTable (name : String) (u : Update Table α) : Update Database α := do
  let t ← Update.asked fun db => db.table name
  let (answer, after) := u.outcome t
  modify fun db => db.register name after
  Update.checked answer

/-- Takes the binding of a name away, and then asks whether there was one. -/
def dropInPlace (name : String) : Update Database Table := do
  let db ← get
  modify fun db => { db with catalog := db.catalog.erase name }
  Update.checked (db.table name)

/-- Performs a statement, where the files answer `found` and `written`. -/
def performInPlace (found : Except FileFault Bytes) (written : Except FileFault Unit) :
    Statement → Update Database String
  | .createTable name attributes => do
    modify fun db => db.declare name attributes
    return ""
  | .createTableAs name s => do
    let t ← Update.asked fun db => db.select s
    modify fun db => db.register name t
    return ""
  | .load name => do
    let path := (← get).directory.tablePath name
    let content ← Update.checked (found.mapError (.file path))
    let t ← Update.checked ((Table.ofBytes content).mapError (.inFile path))
    modify fun db => db.register name t
    return ""
  | .store name => do
    let path := (← get).directory.tablePath name
    let _ ← Update.asked fun db => db.table name
    Update.checked (written.mapError (.file path))
    return ""
  | .dropTable name => do
    let _ ← dropInPlace name
    return ""
  | .insert name values => do
    updateTable name (Table.insertInPlace values)
    return ""
  | .print name => do
    let t ← Update.asked fun db => db.table name
    return t.text
  | .select s => do
    let t ← Update.asked fun db => db.select s
    return t.text

theorem outcome_insertInPlace (db : Database) (name : String) (values : List Value) :
    (updateTable name (Table.insertInPlace values)).outcome db =
      Update.computed db ((db.insert name values).map ((), ·)) := by
  have computed : db.insert name values =
      db.table name >>= fun t => (t.insert values).map (db.register name) := rfl
  simp only [updateTable, computed, Update.outcome_bind, Update.outcome_asked]
  cases ht : db.table name with
  | error e => rfl
  | ok t =>
    simp only [Update.outcome_modify, Update.outcome_checked, Table.outcome_insertInPlace, bind,
      Except.bind]
    cases t.insert values with
    | error e =>
      -- The table is bound again as it was.
      have same : db.register name t = db := register_of_bound (table_eq_ok.1 ht)
      exact congrArg (Except.error e, ·) same
    | ok u => rfl

theorem outcome_dropInPlace (db : Database) (name : String) :
    (dropInPlace name).outcome db = Update.computed db (db.drop name) := by
  simp only [dropInPlace, drop, Update.outcome_bind, Update.outcome_get, Update.outcome_modify,
    Update.outcome_checked]
  cases ht : db.table name with
  | error e =>
    have free : db.catalog.get? name = none := by
      cases bound : db.catalog.get? name with
      | none => rfl
      | some t => cases ht.symm.trans (table_eq_ok.2 bound)
    rw [Catalog.erase_of_free free]
    rfl
  | ok t => rfl

/-- Statements that are performed in place have the outcomes of their steps. -/
theorem outcome_performInPlace (db : Database) (statement : Statement)
    (found : Except FileFault Bytes) (written : Except FileFault Unit) :
    (performInPlace found written statement).outcome db =
      (db.perform statement).settle found written := by
  cases statement with
  | createTable name attributes => rfl
  | createTableAs name s =>
    simp only [performInPlace, perform, Update.outcome_bind, Update.outcome_asked]
    cases db.select s <;> rfl
  | load name =>
    simp only [performInPlace, perform, load, Update.outcome_bind, Update.outcome_get,
      Update.outcome_checked]
    cases found with
    | error why => rfl
    | ok content =>
      simp only [Step.settle, Except.mapError, bind, Except.bind]
      cases Table.ofBytes content <;> rfl
  | store name =>
    simp only [performInPlace, perform, store, Update.outcome_bind, Update.outcome_get,
      Update.outcome_asked, Update.outcome_checked]
    cases db.table name with
    | error e => rfl
    | ok t => cases written <;> rfl
  | dropTable name =>
    simp only [performInPlace, perform, Update.outcome_bind, outcome_dropInPlace]
    cases db.drop name <;> rfl
  | insert name values =>
    simp only [performInPlace, perform, Update.outcome_bind, outcome_insertInPlace]
    cases db.insert name values <;> rfl
  | print name =>
    simp only [performInPlace, perform, Update.outcome_bind, Update.outcome_asked]
    cases db.table name <;> rfl
  | select s =>
    simp only [performInPlace, perform, Update.outcome_bind, Update.outcome_asked]
    cases db.select s <;> rfl

def executeInPlace (e : Event) : Update Database String := do
  let statement ← Update.checked ((Statement.ofText e.text).mapError .malformed)
  performInPlace e.found e.written statement

theorem outcome_executeInPlace (db : Database) (e : Event) :
    (executeInPlace e).outcome db = db.respond e := by
  simp only [executeInPlace, respond, execute, Update.outcome_bind, Update.outcome_checked]
  cases Statement.ofText e.text with
  | error why => rfl
  | ok statement => exact db.outcome_performInPlace statement e.found e.written

/-- A text that fails has changed nothing in place, wherever it fails. -/
theorem outcome_executeInPlace_of_error {db : Database} {e : Event} {why : Error}
    (failed : ((executeInPlace e).outcome db).1 = .error why) :
    ((executeInPlace e).outcome db).2 = db := by
  rw [outcome_executeInPlace] at failed ⊢
  rcases db.respond_cases e with ⟨_, left⟩ | ⟨_, _, _, _, done, _⟩
  · rw [left]
  · rw [done] at failed
    cases failed

theorem run_eq_foldl_inPlace (db : Database) (es : List Event) :
    db.run es = es.foldl (fun db e => ((executeInPlace e).outcome db).2) db := by
  simp only [outcome_executeInPlace]
  rfl

end Database
end Relational
