import Relational.Proofs.Acceptance
import Relational.Proofs.Atomicity
import Relational.Proofs.Requests

/-!
# Independent statements

What a statement answers, and what it makes of the tables that it names, depends on those tables and
on one file at most. So two statements can change places if neither changes a table that the other
one names.
-/
namespace Relational

open Query (IsName Statement)

variable {σ : Type} {store : FileStore σ}

namespace Query

def Statement.tableNames : Statement → List String
  | .createTable name _ | .load name | .store name | .dropTable name | .insert name _
  | .print name => [name]
  | .createTableAs name s => name :: s.tables
  | .select s => s.tables

/-- Neither statement changes a table that the other one names. -/
structure Statement.Independent (s t : Statement) : Prop where
  left : ∀ name, s.target? = some name → name ∉ t.tableNames
  right : ∀ name, t.target? = some name → name ∉ s.tableNames

theorem Statement.Independent.symm {s t : Statement} (h : s.Independent t) : t.Independent s :=
  ⟨h.right, h.left⟩

theorem Statement.mem_tableNames_of_target? {s : Statement} {name : String}
    (h : s.target? = some name) : name ∈ s.tableNames := by
  cases s with
  | store _ | print _ | select _ => cases h
  | _ =>
    cases h
    exact List.mem_cons_self

theorem IsSeparated.identifier_mem {separator : Token} {ts : List Token} {names : List String}
    (h : IsSeparated separator IsIdentifier ts names) :
    ∀ name ∈ names, Token.identifier name ∈ ts := by
  induction h with
  | one item =>
    cases item
    simp
  | more item _ ih =>
    cases item
    intro name hname
    rcases List.mem_cons.1 hname with rfl | hname
    · simp
    · simp [ih name hname]

theorem IsSelection.identifier_mem {ts : List Token} {s : Select} (h : IsSelection ts s) :
    ∀ name ∈ s.tables, Token.identifier name ∈ ts := by
  intro name hname
  cases h with
  | all _ names => simp [names.identifier_mem name hname]
  | restricted _ names _ => simp [names.identifier_mem name hname]

theorem IsCommand.identifier_mem {ts : List Token} {s : Statement} (h : IsCommand ts s) :
    ∀ name ∈ s.tableNames, Token.identifier name ∈ ts := by
  intro name hname
  cases h with
  | createTableAs _ selection =>
    rcases List.mem_cons.1 hname with rfl | hname
    · simp
    · simp [selection.identifier_mem name hname]
  | select selection => exact selection.identifier_mem name hname
  | _ =>
    cases List.mem_singleton.1 hname
    simp

theorem Statement.isName_of_ofText {text : String} {s : Statement}
    (h : Statement.ofText text = .ok s) : ∀ name ∈ s.tableNames, IsName name.toList := by
  obtain ⟨ts, scanned, -⟩ := bind_eq_ok.1 h
  rw [Statement.ofText_of_scan scanned] at h
  have good := good_scan (K := fun _ => True) (fun _ _ => trivial) scanned
  intro name hname
  cases Statement.isStatement_of_ofTokens (ended_scan scanned) h with
  | plain command => exact good _ (List.mem_append_left _ (command.identifier_mem name hname))
  | closed command => exact good _ (List.mem_append_left _ (command.identifier_mem name hname))

end Query

namespace Database

/-- Both databases keep their files in the same directory, and bind the given names alike. -/
structure AgreeOn (names : List String) (db d : Database) : Prop where
  directory : db.directory = d.directory
  bound : ∀ name ∈ names, db.catalog.get? name = d.catalog.get? name

namespace AgreeOn

variable {names : List String} {db d : Database} {name : String}

theorem symm (h : AgreeOn names db d) : AgreeOn names d db :=
  ⟨h.directory.symm, fun name hname => (h.bound name hname).symm⟩

theorem trans {e : Database} (h : AgreeOn names db d) (h' : AgreeOn names d e) :
    AgreeOn names db e :=
  ⟨h.directory.trans h'.directory, fun n hn => (h.bound n hn).trans (h'.bound n hn)⟩

theorem mono {fewer : List String} (h : AgreeOn names db d) (among : fewer ⊆ names) :
    AgreeOn fewer db d :=
  ⟨h.directory, fun n hn => h.bound n (among hn)⟩

/-- Databases are the same if they agree on some names, on others, and on each of the rest. -/
theorem eq_of_split {others : List String} (h : AgreeOn names db d) (h' : AgreeOn others db d)
    (rest : ∀ name, name ∉ names → name ∉ others → AgreeOn [name] db d) : db = d := by
  have directory := h.directory
  have catalog : db.catalog = d.catalog := by
    apply Catalog.ext
    intro name
    by_cases inNames : name ∈ names
    · exact h.bound name inNames
    · by_cases inOthers : name ∈ others
      · exact h'.bound name inOthers
      · exact (rest name inNames inOthers).bound name List.mem_cons_self
  cases db
  cases d
  simp_all

theorem register (h : AgreeOn names db d) (name : String) (t : Table) :
    AgreeOn names (db.register name t) (d.register name t) where
  directory := h.directory
  bound n hn := by
    rw [get?_register, get?_register, h.bound n hn]

theorem erase (h : AgreeOn names db d) (name : String) :
    AgreeOn names { db with catalog := db.catalog.erase name }
      { d with catalog := d.catalog.erase name } where
  directory := h.directory
  bound n hn := by
    show (db.catalog.erase name).get? n = (d.catalog.erase name).get? n
    rw [Catalog.get?_erase, Catalog.get?_erase, h.bound n hn]

theorem table_eq (h : AgreeOn names db d) (hname : name ∈ names) :
    db.table name = d.table name := by
  rw [table, table, h.bound name hname]

theorem select_eq {s : Select} (h : AgreeOn s.tables db d) : db.select s = d.select s := by
  have tables : s.tables.mapM db.table = s.tables.mapM d.table :=
    mapM_congr fun name hname => h.table_eq hname
  rw [select, select, merge, merge, tables]

end AgreeOn

variable {db d : Database} {statement : Statement}

/-- Databases that agree on the tables of a statement answer it alike, and agree on them then. -/
theorem settle_perform_congr (h : AgreeOn statement.tableNames db d)
    (found : Except FileFault Bytes) (written : Except FileFault Unit) :
    ((db.perform statement).settle found written).1 =
        ((d.perform statement).settle found written).1 ∧
      AgreeOn statement.tableNames ((db.perform statement).settle found written).2
        ((d.perform statement).settle found written).2 := by
  cases statement with
  | createTable name attributes => exact ⟨rfl, h.register name _⟩
  | createTableAs name s =>
    have selected := (h.mono (List.subset_cons_self name s.tables)).select_eq
    simp only [perform, changes, Step.settle, selected]
    cases d.select s with
    | error e => exact ⟨rfl, h⟩
    | ok t => exact ⟨rfl, h.register name t⟩
  | load name =>
    simp only [perform, load, Step.settle, h.directory]
    generalize d.directory.tablePath name = path
    cases found with
    | error why => exact ⟨rfl, h⟩
    | ok content =>
      cases ht : Table.ofBytes content with
      | error why =>
        simp only [ht, Except.mapError, bind, Except.bind]
        exact ⟨rfl, h⟩
      | ok t =>
        simp only [ht, Except.mapError, bind, Except.bind]
        exact ⟨rfl, h.register name t⟩
  | store name =>
    simp only [perform, Database.store, h.table_eq List.mem_cons_self, h.directory]
    cases d.table name with
    | error e => exact ⟨rfl, h⟩
    | ok t =>
      cases written with
      | error why => exact ⟨rfl, h⟩
      | ok _ => exact ⟨rfl, h⟩
  | dropTable name =>
    simp only [perform, changes, drop, Step.settle, h.table_eq List.mem_cons_self]
    cases d.table name with
    | error e => exact ⟨rfl, h⟩
    | ok t => exact ⟨rfl, h.erase name⟩
  | insert name values =>
    simp only [perform, changes, insert, Step.settle, h.table_eq List.mem_cons_self]
    cases d.table name with
    | error e => exact ⟨rfl, h⟩
    | ok t =>
      cases hu : t.insert values with
      | error e =>
        simp only [hu, bind, Except.bind]
        exact ⟨rfl, h⟩
      | ok u =>
        simp only [hu, bind, Except.bind]
        exact ⟨rfl, h.register name u⟩
  | print name =>
    simp only [perform, answers, Step.settle, h.table_eq List.mem_cons_self]
    exact ⟨trivial, h⟩
  | select s =>
    simp only [perform, answers, Step.settle, h.select_eq]
    exact ⟨trivial, h⟩

theorem request_perform_congr (h : AgreeOn statement.tableNames db d) :
    (db.perform statement).request = (d.perform statement).request := by
  cases statement with
  | load name => simp only [perform, load, Step.request, h.directory]
  | store name =>
    simp only [perform, Database.store, h.table_eq List.mem_cons_self, h.directory]
    cases d.table name <;> rfl
  | _ => rfl

theorem request_perform_cases (db : Database) (statement : Statement) :
    (db.perform statement).request = .nothing ∨
      (∃ name, statement = .load name ∧
        (db.perform statement).request = .read (db.directory.tablePath name)) ∨
      ∃ name t, statement = .store name ∧ db.table name = .ok t ∧
        (db.perform statement).request = .write (db.directory.tablePath name) t.toBytes := by
  cases statement with
  | load name => exact .inr (.inl ⟨name, rfl, rfl⟩)
  | store name =>
    cases ht : db.table name with
    | error e =>
      left
      simp only [perform, Database.store, ht, Step.request]
    | ok t =>
      right
      right
      exact ⟨name, t, rfl, ht, by simp only [perform, Database.store, ht, Step.request]⟩
  | _ => exact .inl rfl

theorem within_perform {paths : String → Prop}
    (named : ∀ name ∈ statement.tableNames, IsName name.toList)
    (covered : ∀ name, IsName name.toList → paths (db.directory.tablePath name)) :
    (db.perform statement).request.Within paths := by
  rcases db.request_perform_cases statement with
    nothing | ⟨name, rfl, read⟩ | ⟨name, t, rfl, -, write⟩
  · rw [nothing]
    trivial
  · rw [read]
    exact covered name (named name List.mem_cons_self)
  · rw [write]
    exact covered name (named name List.mem_cons_self)

theorem apart_perform (db : Database) {s t : Statement} (independent : s.Independent t)
    (hs : ∀ name ∈ s.tableNames, IsName name.toList)
    (ht : ∀ name ∈ t.tableNames, IsName name.toList) :
    (db.perform s).request.Apart (db.perform t).request := by
  have injective {name other : String} (hname : name ∈ s.tableNames) (hother : other ∈ t.tableNames)
      (same : db.directory.tablePath name = db.directory.tablePath other) : name = other :=
    db.directory.tablePath_injective (hs name hname) (ht other hother) same
  rcases db.request_perform_cases s with nothing | ⟨name, rfl, read⟩ | ⟨name, u, rfl, hu, write⟩
  · rw [nothing]
    trivial
  · rcases db.request_perform_cases t with
      nothing | ⟨other, rfl, read'⟩ | ⟨other, v, rfl, -, write'⟩
    · rw [read, nothing]
      trivial
    · rw [read, read']
      trivial
    · rw [read, write']
      intro same
      obtain rfl := injective List.mem_cons_self List.mem_cons_self same
      exact independent.left name rfl List.mem_cons_self
  · rcases db.request_perform_cases t with
      nothing | ⟨other, rfl, read'⟩ | ⟨other, v, rfl, hv, write'⟩
    · rw [write, nothing]
      trivial
    · rw [write, read']
      intro same
      obtain rfl := injective List.mem_cons_self List.mem_cons_self same
      exact independent.right name rfl List.mem_cons_self
    · rw [write, write']
      intro same
      obtain rfl := injective List.mem_cons_self List.mem_cons_self same
      rw [hu] at hv
      rw [Except.ok.inj hv]

theorem run_perform_frame (db : Database) (files : σ) {s : Statement} {names : List String}
    (untouched : ∀ name, s.target? = some name → name ∉ names) :
    AgreeOn names ((db.perform s).run store files).2.1 db := by
  rcases run_perform_cases store files db s with ⟨e, he⟩ | ⟨_, _, d, after, hrun, effect, -⟩
  · rw [he]
    exact ⟨rfl, fun _ _ => rfl⟩
  · rw [hrun]
    refine ⟨effect.directory_eq, fun name hname => effect.get?_of_ne fun target => ?_⟩
    exact untouched name target hname

theorem run_perform_of_not_named (db : Database) (files : σ) {s : Statement} {name : String}
    (h : name ∉ s.tableNames) : AgreeOn [name] ((db.perform s).run store files).2.1 db := by
  refine run_perform_frame db files fun n target hn => h ?_
  cases List.mem_singleton.1 hn
  exact Statement.mem_tableNames_of_target? target

section Both
variable {paths : String → Prop} {s t : Statement} (keeps : store.Separates paths)
  (covered : ∀ name, IsName name.toList → paths (db.directory.tablePath name))
  (hs : ∀ name ∈ s.tableNames, IsName name.toList)
  (ht : ∀ name ∈ t.tableNames, IsName name.toList) (independent : s.Independent t) (files : σ)
include keeps covered hs ht independent

/-- After an independent statement, a statement answers what it would have answered before, asks for
the same file and makes the same of its tables. -/
theorem run_perform_after :
    let first := (db.perform s).run store files
    let second := (first.2.1.perform t).run store first.2.2
    let alone := (db.perform t).run store files
    second.1 = alone.1 ∧ AgreeOn t.tableNames second.2.1 alone.2.1 ∧
      second.2.2 =
        (db.perform t).request.after store ((db.perform s).request.after store files) := by
  intro first second alone
  have agree : AgreeOn t.tableNames first.2.1 db := run_perform_frame db files independent.left
  have request := request_perform_congr agree
  have within := within_perform hs covered
  have within' := within_perform ht covered
  have apart := apart_perform db independent hs ht
  have files_eq : first.2.2 = (db.perform s).request.after store files := by
    simp only [first, Step.run_eq_settle]
  have same := settle_perform_congr agree ((db.perform t).request.found store files)
    ((db.perform t).request.written store files)
  simp only [second, alone, Step.run_eq_settle, request, files_eq,
    Request.found_after keeps within within' apart, Request.written_after keeps within within']
  exact ⟨same.1, same.2, trivial⟩

/-- Independent statements that are performed in either order answer the same, and leave the same
database and the same files. -/
theorem run_perform_comm :
    let s_first := (db.perform s).run store files
    let t_second := (s_first.2.1.perform t).run store s_first.2.2
    let t_first := (db.perform t).run store files
    let s_second := (t_first.2.1.perform s).run store t_first.2.2
    s_first.1 = s_second.1 ∧ t_second.1 = t_first.1 ∧ t_second.2.1 = s_second.2.1 ∧
      ∀ path, paths path → store.read t_second.2.2 path = store.read s_second.2.2 path := by
  intro s_first t_second t_first s_second
  obtain ⟨t_answer, t_agree, t_files⟩ := run_perform_after keeps covered hs ht independent files
  obtain ⟨s_answer, s_agree, s_files⟩ :=
    run_perform_after keeps covered ht hs independent.symm files
  have database : t_second.2.1 = s_second.2.1 := by
    -- On the tables of either statement the other one changes nothing, and both change no others.
    have t_keeps : AgreeOn s.tableNames t_second.2.1 s_first.2.1 :=
      run_perform_frame s_first.2.1 s_first.2.2 independent.right
    have s_keeps : AgreeOn t.tableNames s_second.2.1 t_first.2.1 :=
      run_perform_frame t_first.2.1 t_first.2.2 independent.left
    apply AgreeOn.eq_of_split (t_keeps.trans s_agree.symm) (t_agree.trans s_keeps.symm)
    intro name not_s not_t
    have left : AgreeOn [name] t_second.2.1 db :=
      (run_perform_of_not_named _ _ not_t).trans (run_perform_of_not_named _ _ not_s)
    have right : AgreeOn [name] s_second.2.1 db :=
      (run_perform_of_not_named _ _ not_s).trans (run_perform_of_not_named _ _ not_t)
    exact left.trans right.symm
  refine ⟨s_answer.symm, t_answer, database, fun path hpath => ?_⟩
  have apart := apart_perform db independent hs ht
  rw [t_files, s_files]
  exact Request.read_after_comm keeps (within_perform hs covered) (within_perform ht covered) apart
    hpath

end Both

/-- The answers to two texts that are executed one after the other, and the database and the files
after that. -/
structure Outcomes (σ : Type) where
  first : Answer
  second : Answer
  database : Database
  files : σ

def executeBoth (store : FileStore σ) (db : Database) (files : σ) (s t : String) : Outcomes σ :=
  let (first, db, files) := (db.execute s).run store files
  let (second, db, files) := (db.execute t).run store files
  ⟨first, second, db, files⟩

/-- Independent texts commute. Each is answered as in the other order, and the tables and the files
are the same in the end, if the files of tables are independent. That is more than distinct files:
where two files share the room that is left, the one that is stored first may be the only one that
fits. -/
theorem execute_comm {paths : String → Prop} (keeps : store.Separates paths) (db : Database)
    (covered : ∀ name, IsName name.toList → paths (db.directory.tablePath name)) (files : σ)
    (s t : String)
    (independent : ∀ s' t', Statement.ofText s = .ok s' → Statement.ofText t = .ok t' →
      s'.Independent t') :
    (executeBoth store db files s t).first = (executeBoth store db files t s).second ∧
    (executeBoth store db files s t).second = (executeBoth store db files t s).first ∧
    (executeBoth store db files s t).database = (executeBoth store db files t s).database ∧
    ∀ path, paths path → store.read (executeBoth store db files s t).files path =
      store.read (executeBoth store db files t s).files path := by
  unfold executeBoth execute
  cases hs : Statement.ofText s with
  | error why => exact ⟨rfl, rfl, rfl, fun _ _ => rfl⟩
  | ok s' =>
    cases ht : Statement.ofText t with
    | error why => exact ⟨rfl, rfl, rfl, fun _ _ => rfl⟩
    | ok t' =>
      exact run_perform_comm keeps covered (Statement.isName_of_ofText hs)
        (Statement.isName_of_ofText ht) (independent s' t' hs ht) files

theorem execute_comm_of_store_and_load :
    let db := (fresh {}).register "t" (Table.empty ⟨[⟨"n", .int⟩]⟩)
    let files := FileTree.empty.set ["u.tbl"] (.file (Bytes.ofText "n int\n7\n"))
    (executeBoth FileTree.store db files "store t" "load u;").second = .ok "" ∧
    (executeBoth FileTree.store db files "load u;" "store t").first = .ok "" := by
  intro db files
  have loaded : (executeBoth FileTree.store db files "store t" "load u;").second = .ok "" := by
    decide +kernel
  have stores : Statement.ofText "store t" = .ok (.store "t") := by decide +kernel
  have loads : Statement.ofText "load u;" = .ok (.load "u") := by decide +kernel
  have commutes := execute_comm (FileTree.separates_tablePaths {} (by decide)) db
    (fun name h => ⟨name, h, rfl⟩) files "store t" "load u;" (by
      intro s t hs ht
      cases Except.ok.inj (stores.symm.trans hs)
      cases Except.ok.inj (loads.symm.trans ht)
      exact ⟨nofun, fun name h => by cases h; decide⟩)
  exact ⟨loaded, commutes.2.1.symm.trans loaded⟩

end Database
end Relational
