import Relational.Proofs.FileSystem
import Relational.Proofs.Runs

/-!
# What a statement leaves alone

A statement fails without a trace, or it changes its one target and nothing else. Files are changed
by `store` alone, which writes the file of its table. The statements are told apart by the effects
that they have, so a rejected query, a fault of a file and a bad row all fall under one case.
-/
namespace Relational

open Query (Statement)

variable {σ : Type} {store : FileStore σ} {files after : σ}

/-- The table whose binding a statement is meant to change. -/
def Query.Statement.target? : Statement → Option String
  | .createTable name _ | .createTableAs name _ | .load name | .dropTable name | .insert name _ =>
    some name
  | .store _ | .print _ | .select _ => none

def Query.Statement.stored? : Statement → Option String
  | .store name => some name
  | _ => none

namespace Database

variable {db d : Database} {statement : Statement}

/-- What a statement does to the files: nothing, or it writes the file of the stored table. -/
def Writes (store : FileStore σ) (db : Database) (statement : Statement) (files after : σ) : Prop :=
  match statement.stored? with
  | none => after = files
  | some name => ∃ t, db.catalog.get? name = some t ∧
      store.write files (db.directory.tablePath name) t.toBytes = .ok after

theorem Effect.get?_of_ne {found : Except FileFault Bytes} {output name : String}
    (h : db.Effect found statement output d) (other : statement.target? ≠ some name) :
    d.catalog.get? name = db.catalog.get? name := by
  have ne {n : String} (hn : some n ≠ some name) : name ≠ n := fun h => hn (congrArg some h.symm)
  cases h with
  | dropTable _ => exact (Catalog.get?_erase ..).trans (if_neg (ne other))
  | store _ | print _ | select _ => rfl
  | _ => exact (Catalog.get?_insert ..).trans (if_neg (ne other))

theorem Effect.eq_of_target?_eq_none {found : Except FileFault Bytes} {output : String}
    (h : db.Effect found statement output d) (untargeted : statement.target? = none) : d = db := by
  cases h with
  | store _ | print _ | select _ => rfl
  | _ => cases untargeted

theorem Effect.directory_eq {found : Except FileFault Bytes} {output : String}
    (h : db.Effect found statement output d) : d.directory = db.directory := by
  cases h <;> rfl

theorem run_perform_of_not_stored (store : FileStore σ) (files : σ) (db : Database)
    (notStored : statement.stored? = none) :
    ∃ found, (db.perform statement).run store files =
      (((db.perform statement).settle found (.ok ())).1,
        ((db.perform statement).settle found (.ok ())).2, files) := by
  cases statement with
  | load name => exact ⟨store.read files (db.directory.tablePath name), rfl⟩
  | store name => cases notStored
  | _ => exact ⟨.error .noSuchFile, rfl⟩

theorem run_store_cases (store : FileStore σ) (files : σ) (db : Database) (name : String) :
    (∃ e, (db.perform (.store name)).run store files = (.error e, db, files)) ∨
      ∃ after, (db.perform (.store name)).run store files = (.ok "", db, after) ∧
        Writes store db (.store name) files after := by
  simp only [perform, Database.store]
  split
  · next e _ => exact .inl ⟨e, rfl⟩
  · next t ht =>
    simp only [Step.run]
    split
    · next after hwrite => exact .inr ⟨after, rfl, t, table_eq_ok.1 ht, hwrite⟩
    · exact .inl ⟨_, rfl⟩

/-- Performing a statement on a store of files fails and changes neither the database nor a file, or
it has the effect of the statement and writes what the statement writes. -/
theorem run_perform_cases (store : FileStore σ) (files : σ) (db : Database)
    (statement : Statement) :
    (∃ e, (db.perform statement).run store files = (.error e, db, files)) ∨
      ∃ found output d after, (db.perform statement).run store files = (.ok output, d, after) ∧
        db.Effect found statement output d ∧ Writes store db statement files after := by
  cases stored : statement.stored? with
  | none =>
    obtain ⟨found, hrun⟩ := run_perform_of_not_stored store files db stored
    have writes : Writes store db statement files files := by simp only [Writes, stored]
    rw [hrun]
    rcases db.perform_cases statement found (.ok ()) with ⟨e, he⟩ | ⟨output, d, hd, effect⟩
    · exact .inl ⟨e, by rw [he]⟩
    · exact .inr ⟨found, output, d, files, by rw [hd], effect, writes⟩
  | some name =>
    obtain rfl : statement = .store name := by
      cases statement with
      | store _ => exact congrArg _ (Option.some.inj stored)
      | _ => cases stored
    rcases run_store_cases store files db name with ⟨e, he⟩ | ⟨after, hrun, writes⟩
    · exact .inl ⟨e, he⟩
    · have ⟨t, ht, _⟩ := writes
      exact .inr ⟨.error .noSuchFile, "", db, after, hrun, .store ht, writes⟩

/-- What a statement that succeeds leaves as it was, and how far its own changes go. -/
structure Frame (store : FileStore σ) (same : String → String → Prop) (db : Database) (files : σ)
    (statement : Statement) (d : Database) (after : σ) : Prop where
  directory : d.directory = db.directory
  others : ∀ name, statement.target? ≠ some name → d.catalog.get? name = db.catalog.get? name
  untargeted : statement.target? = none → d = db
  inserted : ∀ name values, statement = .insert name values → ∃ t r,
    db.catalog.get? name = some t ∧ t.schema.accept values = .ok r ∧
      d.catalog.get? name = some ⟨t.schema, t.rows ++ [r]⟩
  unwritten : (∀ name, statement ≠ .store name) → after = files
  written : ∀ name, statement = .store name →
    (∃ t, db.catalog.get? name = some t ∧
      store.read after (db.directory.tablePath name) = .ok t.toBytes) ∧
    ∀ path, ¬ same (db.directory.tablePath name) path →
      store.content? after path = store.content? files path

theorem Effect.frame {same : String → String → Prop} {found : Except FileFault Bytes}
    {output : String} (lawful : store.Lawful same) (effect : db.Effect found statement output d)
    (writes : Writes store db statement files after) :
    Frame store same db files statement d after where
  directory := effect.directory_eq
  others _ other := effect.get?_of_ne other
  untargeted := effect.eq_of_target?_eq_none
  inserted := by
    rintro name values rfl
    cases effect with
    | insert ht hu =>
      obtain ⟨r, hr, rfl⟩ := Table.insert_eq_ok hu
      exact ⟨_, r, ht, hr, (Catalog.get?_insert ..).trans (if_pos rfl)⟩
  unwritten := by
    intro notStore
    cases effect with
    | store _ => exact absurd rfl (notStore _)
    | _ => exact writes
  written := by
    rintro name rfl
    obtain ⟨t, ht, hwrite⟩ := writes
    exact ⟨⟨t, ht, lawful.read_write hwrite⟩, lawful.write_frame hwrite⟩

/-- A text that fails changes nothing. A text that succeeds is a statement, and changes its target
and nothing else. -/
theorem run_execute_atomic {same : String → String → Prop} (lawful : store.Lawful same)
    (db : Database) (files : σ) (s : String) :
    (∀ e, ((db.execute s).run store files).1 = .error e →
      ((db.execute s).run store files).2 = (db, files)) ∧
    ∀ output, ((db.execute s).run store files).1 = .ok output →
      ∃ statement, Statement.ofText s = .ok statement ∧
        Frame store same db files statement ((db.execute s).run store files).2.1
          ((db.execute s).run store files).2.2 := by
  unfold execute
  cases hs : Statement.ofText s with
  | error why => exact ⟨fun _ _ => rfl, fun _ h => nomatch h⟩
  | ok statement =>
    rcases run_perform_cases store files db statement with
      ⟨e, he⟩ | ⟨_, _, _, _, hrun, effect, writes⟩
    · simp [he]
    · simp [hrun, effect.frame lawful writes]

/-- A row that does not fit changes neither of two tables nor the file that is there, another row is
appended to its own table, and storing that table keeps the other file. -/
theorem run_execute_atomic_of_misfit_and_store :
    let number : Schema := ⟨[⟨"n", .int⟩]⟩
    let t : Table := ⟨number, [⟨[.literal "7"]⟩]⟩
    let u : Table := ⟨number, [⟨[.literal "8"]⟩, ⟨[.noValue]⟩]⟩
    let db := ((fresh {}).register "t" t).register "u" u
    let files := FileTree.empty.set ["u.tbl"] (.file (Bytes.ofText "n int\n9\n"))
    ((db.execute "insert into t values 'a';").run FileTree.store files).2 = (db, files) ∧
    (∃ d, (db.execute "insert into t values 5;").run FileTree.store files = (.ok "", d, files) ∧
      d.catalog.get? "t" = some ⟨number, [⟨[.literal "7"]⟩, ⟨[.literal "5"]⟩]⟩ ∧
      d.catalog.get? "u" = some u) ∧
    ∃ after, (db.execute "store t").run FileTree.store files = (.ok "", db, after) ∧
      FileTree.store.read after "./t.tbl" = .ok (Bytes.ofText "n int\n7\n") ∧
      FileTree.store.content? after "u.tbl" = some (Bytes.ofText "n int\n9\n") := by
  intro number t u db files
  have atomic := run_execute_atomic FileTree.lawful_store db files
  have here : db.catalog.get? "t" = some t := by decide +kernel
  have other : db.catalog.get? "u" = some u := by decide +kernel
  refine ⟨?_, ?_, ?_⟩
  · exact (atomic "insert into t values 'a';").1 .schemaViolation (by decide +kernel)
  · have inserts : Statement.ofText "insert into t values 5;" =
        .ok (.insert "t" [.literal "5"]) := by decide +kernel
    have succeeds : ((db.execute "insert into t values 5;").run FileTree.store files).1 =
        .ok "" := by decide +kernel
    obtain ⟨statement, hs, frame⟩ := (atomic "insert into t values 5;").2 "" succeeds
    obtain rfl := Except.ok.inj (inserts.symm.trans hs)
    refine ⟨_, Prod.ext succeeds (Prod.ext rfl (frame.unwritten nofun)), ?_, ?_⟩
    · obtain ⟨v, r, bound, accepted, appended⟩ := frame.inserted "t" _ rfl
      obtain rfl := Option.some.inj (here.symm.trans bound)
      cases accepted
      exact appended
    · exact (frame.others "u" (by decide)).trans other
  · have stores : Statement.ofText "store t" = .ok (.store "t") := by decide +kernel
    have succeeds : ((db.execute "store t").run FileTree.store files).1 = .ok "" := by
      decide +kernel
    obtain ⟨statement, hs, frame⟩ := (atomic "store t").2 "" succeeds
    obtain rfl := Except.ok.inj (stores.symm.trans hs)
    obtain ⟨⟨v, bound, read⟩, others⟩ := frame.written "t" rfl
    obtain rfl := Option.some.inj (here.symm.trans bound)
    have path : db.directory.tablePath "t" = "./t.tbl" := by decide +kernel
    rw [path] at read others
    refine ⟨_, Prod.ext succeeds (Prod.ext (frame.untargeted rfl) rfl), read.trans ?_, ?_⟩
    · decide +kernel
    · exact (others "u.tbl" (by decide +kernel)).trans (by decide +kernel)

end Database
end Relational
