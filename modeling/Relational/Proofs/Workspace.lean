import Relational.Proofs.Bindings

/-!
# Everything that can be asked of tables and databases

A workspace holds tables and databases, and every operation on some of them adds what comes of it.
No operation can break the fit of a row to its schema: the tables that are reached fit, however they
were put together, and so nothing that is asked of them reads a position that is not there.
-/
namespace Relational

structure Workspace where
  tables : List Table := []
  databases : List Database := []

namespace Workspace

def keepTable (w : Workspace) (t : Table) : Workspace := { w with tables := t :: w.tables }

def keepDatabase (w : Workspace) (db : Database) : Workspace :=
  { w with databases := db :: w.databases }

/-- One operation, on tables and databases of the workspace and with any other arguments. -/
inductive Call : Workspace → Workspace → Prop
  | empty {w} (schema : Schema) : Call w (w.keepTable (Table.empty schema))
  | insert {w t u} (values : List Value) : t ∈ w.tables → t.insert values = .ok u →
    Call w (w.keepTable u)
  | merge {w t u v} : t ∈ w.tables → u ∈ w.tables → t.mergeByPosition u = .ok v →
    Call w (w.keepTable v)
  | mergeAll {w ts u} : (∀ t ∈ ts, t ∈ w.tables) → Table.mergeAllByPosition? ts = .ok (some u) →
    Call w (w.keepTable u)
  | filter {w t u} (c? : Option Condition) : t ∈ w.tables → t.filter c? = .ok u →
    Call w (w.keepTable u)
  | project {w t u} (ps : List Projection) : t ∈ w.tables → t.project ps = .ok u →
    Call w (w.keepTable u)
  | select {w t u} (ps : List Projection) (c? : Option Condition) : t ∈ w.tables →
    t.select ps c? = .ok u → Call w (w.keepTable u)
  | evaluate {w t u} (ps : List Projection) (cs : List Condition) : t ∈ w.tables →
    t.evaluate ps cs = .ok u → Call w (w.keepTable u)
  | ofBytes {w t} (content : Bytes) : Table.ofBytes content = .ok t → Call w (w.keepTable t)
  | fresh {w} (directory : DataDirectory) : Call w (w.keepDatabase (Database.fresh directory))
  | table {w db t} (name : String) : db ∈ w.databases → db.table name = .ok t →
    Call w (w.keepTable t)
  | register {w db t} (name : String) : db ∈ w.databases → t ∈ w.tables →
    Call w (w.keepDatabase (db.register name t))
  | declare {w db} (name : String) (attributes : List Attribute) : db ∈ w.databases →
    Call w (w.keepDatabase (db.declare name attributes))
  | drop {w db t after} (name : String) : db ∈ w.databases → db.drop name = .ok (t, after) →
    Call w ((w.keepTable t).keepDatabase after)
  | insertInto {w db after} (name : String) (values : List Value) : db ∈ w.databases →
    db.insert name values = .ok after → Call w (w.keepDatabase after)
  | mergeNamed {w db t} (names : List String) : db ∈ w.databases → db.merge names = .ok t →
    Call w (w.keepTable t)
  | selectFrom {w db t} (s : Select) : db ∈ w.databases → db.select s = .ok t →
    Call w (w.keepTable t)
  | perform {w db} (statement : Query.Statement) (found : Except FileFault Bytes)
    (written : Except FileFault Unit) : db ∈ w.databases →
    Call w (w.keepDatabase ((db.perform statement).settle found written).2)
  | execute {w db} (e : Event) : db ∈ w.databases → Call w (w.keepDatabase (db.respond e).2)

/-- What any sequence of operations can make. -/
inductive Reached : Workspace → Prop
  | start : Reached {}
  | call {w x : Workspace} : Reached w → Call w x → Reached x

/-- Every table at hand fits its schema, and so does every table that is bound in a database. -/
structure Fits (w : Workspace) : Prop where
  tables : ∀ t ∈ w.tables, t.Fits
  databases : ∀ db ∈ w.databases, db.Every Table.Fits

theorem Fits.keepTable {w : Workspace} (h : w.Fits) {t : Table} (ht : t.Fits) :
    (w.keepTable t).Fits :=
  ⟨List.forall_mem_cons.2 ⟨ht, h.tables⟩, h.databases⟩

theorem Fits.keepDatabase {w : Workspace} (h : w.Fits) {db : Database} (hdb : db.Every Table.Fits) :
    (w.keepDatabase db).Fits :=
  ⟨h.tables, List.forall_mem_cons.2 ⟨hdb, h.databases⟩⟩

theorem Fits.call {w x : Workspace} (h : w.Fits) (call : Call w x) : x.Fits := by
  cases call with
  | empty schema => exact h.keepTable (Table.cells_empty (P := fun _ _ => True) schema).fits
  | insert values ht hu => exact h.keepTable ((h.tables _ ht).insert hu)
  | merge ht hu hv =>
    rw [Table.mergeByPosition_eq (h.tables _ ht) (h.tables _ hu)] at hv
    cases hv
    exact h.keepTable ((h.tables _ ht).merge (h.tables _ hu))
  | @mergeAll ts _ hts hu =>
    have fits : ∀ t ∈ ts, t.Fits := fun t ht => h.tables t (hts t ht)
    rw [Table.mergeAllByPosition?_eq fits] at hu
    exact h.keepTable (Table.Fits.mergeAll fits (Except.ok.inj hu))
  | filter c? ht hu => exact h.keepTable ((h.tables _ ht).filter hu)
  | project ps ht hu => exact h.keepTable ((h.tables _ ht).project hu)
  | select ps c? ht hu => exact h.keepTable ((h.tables _ ht).select hu)
  | evaluate ps cs ht hu => exact h.keepTable ((h.tables _ ht).evaluate hu)
  | ofBytes content ht => exact h.keepTable (Table.fits_ofBytes ht)
  | fresh directory => exact h.keepDatabase (Database.every_fresh _ directory)
  | table name hdb ht => exact h.keepTable (h.databases _ hdb _ _ (Database.table_eq_ok.1 ht))
  | register name hdb ht => exact h.keepDatabase ((h.databases _ hdb).register (h.tables _ ht) name)
  | declare name attributes hdb =>
    have fits := (Table.cells_empty (P := fun _ _ => True) ⟨attributes⟩).fits
    exact h.keepDatabase ((h.databases _ hdb).register fits name)
  | drop name hdb ht =>
    obtain ⟨t, bound, ht⟩ := bind_eq_ok.1 ht
    cases ht
    have kept := h.keepTable (h.databases _ hdb _ _ (Database.table_eq_ok.1 bound))
    exact kept.keepDatabase ((h.databases _ hdb).erase name)
  | insertInto name values hdb hafter =>
    obtain ⟨t, ht, hafter⟩ := bind_eq_ok.1 hafter
    obtain ⟨u, hu, hafter⟩ := bind_eq_ok.1 hafter
    cases hafter
    have fits := (h.databases _ hdb _ _ (Database.table_eq_ok.1 ht)).insert hu
    exact h.keepDatabase ((h.databases _ hdb).register fits name)
  | mergeNamed names hdb ht => exact h.keepTable ((h.databases _ hdb).fits_merge ht)
  | selectFrom s hdb ht => exact h.keepTable ((h.databases _ hdb).fits_select ht)
  | perform statement found written hdb =>
    exact h.keepDatabase ((h.databases _ hdb).fits_perform statement found written)
  | execute e hdb => exact h.keepDatabase ((h.databases _ hdb).fits_respond e)

theorem Reached.fits {w : Workspace} (h : w.Reached) : w.Fits := by
  induction h with
  | start => exact ⟨fun _ ht => (nomatch ht), fun _ hdb => (nomatch hdb)⟩
  | call _ call ih => exact ih.call call

/-- No row and no position is ever missing: every table that can be made fits its schema, and every
operation on what can be made, with any arguments, reads only positions that are there. -/
theorem Reached.fits_and_inRange {w : Workspace} (h : w.Reached) :
    (∀ t ∈ w.tables, ∀ r ∈ t.rows, r.length = t.schema.length) ∧
    (∀ db ∈ w.databases, ∀ name t, db.catalog.get? name = some t →
      ∀ r ∈ t.rows, r.length = t.schema.length) ∧
    (∀ t ∈ w.tables, ∀ (values : List Value) (ps : List Projection) (c : Condition)
      (c? : Option Condition) (cs : List Condition), InRange (t.insert values) ∧
      InRange (t.selection c) ∧ InRange (t.filter c?) ∧ InRange (t.project ps) ∧
      InRange (t.select ps c?) ∧ InRange (t.evaluate ps cs)) ∧
    (∀ ts : List Table, (∀ t ∈ ts, t ∈ w.tables) → InRange (Table.mergeAllByPosition? ts)) ∧
    (∀ t ∈ w.tables, ∀ u ∈ w.tables, ∃ v, t.mergeByPosition u = .ok v) ∧
    (∀ content, InRange (Table.ofBytes content)) ∧
    ∀ db ∈ w.databases, ∀ (names : List String) (s : Select) (statement : Query.Statement)
      (found : Except FileFault Bytes) (written : Except FileFault Unit) (e : Event),
      InRange (db.merge names) ∧ InRange (db.select s) ∧
      InRange ((db.perform statement).settle found written).1 ∧ InRange (db.respond e).1 := by
  have fits := h.fits
  refine ⟨fits.tables, fits.databases, ?_, ?_, ?_, Table.inRange_ofBytes, ?_⟩
  · intro t ht values ps c c? cs
    have here := fits.tables t ht
    exact ⟨t.inRange_insert values, here.inRange_selection c, here.inRange_filter c?,
      here.inRange_project ps, here.inRange_select ps c?, here.inRange_evaluate ps cs⟩
  · intro ts hts
    rw [Table.mergeAllByPosition?_eq fun t ht => fits.tables t (hts t ht)]
    exact inRange_ok _
  · intro t ht u hu
    exact ⟨_, Table.mergeByPosition_eq (fits.tables t ht) (fits.tables u hu)⟩
  · intro db hdb names s statement found written e
    have here := fits.databases db hdb
    exact ⟨here.inRange_merge names, here.inRange_select s,
      here.inRange_perform statement found written, here.inRange_respond e⟩

/-- A table that a row was inserted into is joined with one that was loaded. The join is filtered,
projected and bound, and nothing that is asked of what came of it misses a position. -/
theorem fits_and_inRange_of_join :
    let numbers : Schema := ⟨[⟨"n", .int⟩, ⟨"x", .float⟩]⟩
    let t : Table := ⟨numbers, [⟨[.literal "7", .literal "1.500"]⟩]⟩
    let u : Table := ⟨⟨[⟨"s", .string⟩, ⟨"n", .int⟩]⟩, [⟨[.literal "'a'", .literal "7"]⟩,
      ⟨[.noValue, .literal "8"]⟩, ⟨[.literal "'b'", .literal "7"]⟩]⟩
    let joined : Table := ⟨⟨[⟨"n", .int⟩, ⟨"x", .float⟩, ⟨"s", .string⟩]⟩,
      [⟨[.literal "7", .literal "1.500", .literal "'a'"]⟩,
        ⟨[.literal "7", .literal "1.500", .literal "'b'"]⟩]⟩
    let filtered : Table := ⟨joined.schema, [⟨[.literal "7", .literal "1.500", .literal "'b'"]⟩]⟩
    let projected : Table := ⟨⟨[⟨"s", .string⟩, ⟨"m", .int⟩]⟩, [⟨[.literal "'b'", .literal "14"]⟩]⟩
    let db := (Database.fresh {}).register "p" projected
    let w : Workspace :=
      ⟨[projected, filtered, joined, u, t, Table.empty numbers], [db, Database.fresh {}]⟩
    w.Reached ∧ (∀ r ∈ projected.rows, r.length = 2) ∧
      (∀ ps cs, InRange (projected.evaluate ps cs)) ∧
      InRange (Table.mergeAllByPosition? [projected, joined, u]) ∧
      (∃ v, projected.mergeByPosition joined = .ok v) ∧ ∀ s, InRange (db.select s) := by
  intro numbers t u joined filtered projected db w
  have declared : Reached ⟨[Table.empty numbers], []⟩ := .call .start (.empty numbers)
  have inserted : Reached ⟨[t, Table.empty numbers], []⟩ :=
    .call declared (.insert [.literal "7", .literal "1.5"] List.mem_cons_self (by decide +kernel))
  have loaded : Reached ⟨[u, t, Table.empty numbers], []⟩ :=
    .call inserted (.ofBytes (Bytes.ofText "s string,n int\n'a',7\nNOVALUE,8\n'b',7\n")
      (by decide +kernel))
  have merged : Reached ⟨[joined, u, t, Table.empty numbers], []⟩ :=
    .call loaded (.merge (t := t) (u := u) (by simp) (by simp) (by decide +kernel))
  have selected : Reached ⟨[filtered, joined, u, t, Table.empty numbers], []⟩ :=
    .call merged (.filter (some ⟨"s", .gt, .literal (.literal "'a'")⟩) List.mem_cons_self
      (by decide +kernel))
  have computed : Reached ⟨[projected, filtered, joined, u, t, Table.empty numbers], []⟩ :=
    .call selected (.project [.expr (.column "s") none,
      .expr (.binary (.column "n") .mul (.literal (.literal "2"))) (some "m")] List.mem_cons_self
      (by decide +kernel))
  have reached : w.Reached :=
    .call (.call computed (.fresh {})) (.register "p" List.mem_cons_self List.mem_cons_self)
  obtain ⟨rows, -, operations, mergeAll, merge, -, database⟩ := reached.fits_and_inRange
  have here : projected ∈ w.tables := List.mem_cons_self
  refine ⟨reached, rows projected here, fun ps cs => ?_, ?_, ?_, fun s => ?_⟩
  · exact (operations projected here [] ps ⟨"s", .eq, .column "s"⟩ none cs).2.2.2.2.2
  · exact mergeAll _ (by simp [w])
  · exact merge projected here joined (by simp [w])
  · exact (database db List.mem_cons_self [] s (.print "p") (.ok []) (.ok ())
      ⟨"", .ok [], .ok ()⟩).2.1

end Workspace
end Relational
