import Relational.Database
import Relational.Proofs.Results

/-!
# What statements do, and runs of statements

Executing a text either fails, and then the database is what it was, or it performs one statement.
`Effect` lists what the statements do when they succeed; the lemma about it is the only one that
looks into their execution. A run executes any texts one after the other, while the files answer
anything.
-/
namespace Relational

open Query (Statement)

/-- What comes of a step if the file that it reads answers `found`, and the file that it writes
answers `written`. -/
def Step.settle (found : Except FileFault Bytes) (written : Except FileFault Unit) :
    Step → Answer × Database
  | .done answer db => (answer, db)
  | .reading _ next => next found
  | .writing _ _ next => next written

namespace Database

theorem table_eq_ok {db : Database} {name : String} {t : Table} :
    db.table name = .ok t ↔ db.catalog.get? name = some t := by
  unfold table
  cases db.catalog.get? name <;> simp

theorem get?_register (db : Database) (name n : String) (t : Table) :
    (db.register name t).catalog.get? n = if n = name then some t else db.catalog.get? n :=
  Catalog.get?_insert ..

theorem register_of_bound {db : Database} {name : String} {t : Table}
    (bound : db.catalog.get? name = some t) : db.register name t = db := by
  rw [register, Catalog.insert_of_bound bound]

/-- What a statement does when it succeeds: its output, and the database after it. -/
inductive Effect (db : Database) (found : Except FileFault Bytes) :
    Statement → String → Database → Prop
  | createTable (name : String) (attributes : List Attribute) :
    Effect db found (.createTable name attributes) ""
      (db.register name (Table.empty ⟨attributes⟩))
  | createTableAs {name : String} {s : Select} {t : Table} : db.select s = .ok t →
    Effect db found (.createTableAs name s) "" (db.register name t)
  | load {name : String} {content : Bytes} {t : Table} : found = .ok content →
    Table.ofBytes content = .ok t → Effect db found (.load name) "" (db.register name t)
  | store {name : String} {t : Table} : db.catalog.get? name = some t →
    Effect db found (.store name) "" db
  | dropTable {name : String} {t : Table} : db.catalog.get? name = some t →
    Effect db found (.dropTable name) "" { db with catalog := db.catalog.erase name }
  | insert {name : String} {values : List Value} {t u : Table} : db.catalog.get? name = some t →
    t.insert values = .ok u → Effect db found (.insert name values) "" (db.register name u)
  | print {name : String} {t : Table} : db.catalog.get? name = some t →
    Effect db found (.print name) t.text db
  | select {s : Select} {t : Table} : db.select s = .ok t →
    Effect db found (.select s) t.text db

theorem changed_cases (db : Database) (after : Except Error Database) :
    (∃ e, after = .error e ∧ db.changed after = (.error e, db)) ∨
      ∃ d, after = .ok d ∧ db.changed after = (.ok "", d) := by
  cases after with
  | error e => exact .inl ⟨e, rfl, rfl⟩
  | ok d => exact .inr ⟨d, rfl, rfl⟩

theorem perform_cases (db : Database) (statement : Statement) (found : Except FileFault Bytes)
    (written : Except FileFault Unit) :
    (∃ e, (db.perform statement).settle found written = (.error e, db)) ∨
      ∃ output after, (db.perform statement).settle found written = (.ok output, after) ∧
        db.Effect found statement output after := by
  cases statement with
  | createTable name attributes => exact .inr ⟨_, _, rfl, .createTable name attributes⟩
  | createTableAs name s =>
    rcases db.changed_cases ((db.select s).map (db.register name)) with ⟨e, -, h⟩ | ⟨d, hd, h⟩
    · exact .inl ⟨e, h⟩
    · obtain ⟨t, ht, rfl⟩ := map_eq_ok.1 hd
      exact .inr ⟨_, _, h, .createTableAs ht⟩
  | load name =>
    have step := db.changed_cases (do
      let content ← found.mapError (.file (db.directory.tablePath name))
      let t ← (Table.ofBytes content).mapError (.inFile (db.directory.tablePath name))
      return db.register name t)
    rcases step with ⟨e, -, h⟩ | ⟨d, hd, h⟩
    · exact .inl ⟨e, h⟩
    · obtain ⟨content, hcontent, hd⟩ := bind_eq_ok.1 hd
      obtain ⟨t, ht, hd⟩ := bind_eq_ok.1 hd
      cases hd
      exact .inr ⟨_, _, h, .load (mapError_eq_ok.1 hcontent) (mapError_eq_ok.1 ht)⟩
  | store name =>
    simp only [perform, store]
    split
    · next e _ => exact .inl ⟨e, rfl⟩
    · next t ht =>
      cases written with
      | error why => exact .inl ⟨_, rfl⟩
      | ok _ => exact .inr ⟨_, _, rfl, .store (table_eq_ok.1 ht)⟩
  | dropTable name =>
    rcases db.changed_cases ((db.drop name).map Prod.snd) with ⟨e, -, h⟩ | ⟨d, hd, h⟩
    · exact .inl ⟨e, h⟩
    · obtain ⟨p, hp, rfl⟩ := map_eq_ok.1 hd
      obtain ⟨t, ht, hp⟩ := bind_eq_ok.1 hp
      cases hp
      exact .inr ⟨_, _, h, .dropTable (table_eq_ok.1 ht)⟩
  | insert name values =>
    rcases db.changed_cases (db.insert name values) with ⟨e, -, h⟩ | ⟨d, hd, h⟩
    · exact .inl ⟨e, h⟩
    · obtain ⟨t, ht, hd⟩ := bind_eq_ok.1 hd
      obtain ⟨u, hu, hd⟩ := bind_eq_ok.1 hd
      cases hd
      exact .inr ⟨_, _, h, .insert (table_eq_ok.1 ht) hu⟩
  | print name =>
    cases ht : db.table name with
    | error e => exact .inl ⟨e, by simp [perform, answers, Step.settle, ht, Except.map]⟩
    | ok t =>
      refine .inr ⟨t.text, db, ?_, .print (table_eq_ok.1 ht)⟩
      simp [perform, answers, Step.settle, ht, Except.map]
  | select s =>
    cases ht : db.select s with
    | error e => exact .inl ⟨e, by simp [perform, answers, Step.settle, ht, Except.map]⟩
    | ok t =>
      refine .inr ⟨t.text, db, ?_, .select ht⟩
      simp [perform, answers, Step.settle, ht, Except.map]

end Database

/-- A text to execute, and what the files answer if they are asked. -/
structure Event where
  text : String
  found : Except FileFault Bytes
  written : Except FileFault Unit

namespace Database

/-- The answer to an event, and the database after it. -/
def respond (db : Database) (e : Event) : Answer × Database :=
  (db.execute e.text).settle e.found e.written

/-- An event fails and changes nothing, or has the effect of the statement that its text is. -/
theorem respond_cases (db : Database) (e : Event) :
    (∃ why, db.respond e = (.error why, db)) ∨
      ∃ statement output after, Statement.ofText e.text = .ok statement ∧
        db.respond e = (.ok output, after) ∧ db.Effect e.found statement output after := by
  unfold respond execute
  split
  · next statement hs =>
    rcases db.perform_cases statement e.found e.written with h | ⟨output, after, h, effect⟩
    · exact .inl h
    · exact .inr ⟨statement, output, after, hs, h, effect⟩
  · exact .inl ⟨_, rfl⟩

def run (db : Database) (es : List Event) : Database :=
  es.foldl (fun db e => (db.respond e).2) db

/-- The database without tables. -/
def fresh (directory : DataDirectory) : Database := ⟨.empty, directory⟩

@[simp] theorem run_nil (db : Database) : db.run [] = db := rfl

@[simp] theorem run_cons (db : Database) (e : Event) (es : List Event) :
    db.run (e :: es) = (db.respond e).2.run es := rfl

theorem run_append (db : Database) (es fs : List Event) :
    db.run (es ++ fs) = (db.run es).run fs := List.foldl_append

/-- What every event preserves is preserved by a run. -/
theorem run_preserves {P : Database → Prop} {es : List Event}
    (step : ∀ db, P db → ∀ e ∈ es, P (db.respond e).2) {db : Database} (h : P db) :
    P (db.run es) := by
  induction es generalizing db with
  | nil => exact h
  | cons e es ih =>
    have head := step db h e List.mem_cons_self
    exact ih (fun db h f hf => step db h f (List.mem_cons_of_mem e hf)) head

end Database
end Relational
