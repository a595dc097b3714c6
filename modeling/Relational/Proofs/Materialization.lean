import Relational.Proofs.Independence
import Relational.Proofs.JoinGrouping
import Relational.Proofs.ReadingBack
import Relational.Proofs.StarProjection

/-!
# Tables made of queries

A table that is created from a select is the table that the select answers with. So a part of the
joined tables can be given a name first, and the name be used instead: the tables are grouped in
another way, and the copy of the part is the part.
-/
namespace Relational

open Query (IsName Statement)

namespace Query

def creationText (d query : String) : String := "create table " ++ d ++ " as " ++ query

theorem scan_creationText {d : String} (hd : IsName d.toList) (query : String) :
    scan (creationText d query).toList = (scan query.toList).map
      ([.keyword .create, .keyword .table, .identifier d, .keyword .asName] ++ ·) := by
  have create : Spells "create".toList [.keyword .create] :=
    spells_ofName (by decide +kernel) (by decide +kernel)
  have table : Spells "table".toList [.keyword .table] :=
    spells_ofName (by decide +kernel) (by decide +kernel)
  have as : Spells "as".toList [.keyword .asName] :=
    spells_ofName (by decide +kernel) (by decide +kernel)
  have front := create.spaced (table.spaced ((spells_identifier hd).spaced as))
  have whole := front (' ' :: query.toList) (breaks_blank _)
  rw [scan_congr (Text.dropBlanks_cons ' ' query.toList)] at whole
  simpa [creationText] using whole

theorem Statement.ofText_creationText {d query : String} (hd : IsName d.toList) {s : Select}
    (h : Statement.ofText query = .ok (.select s)) :
    Statement.ofText (creationText d query) = .ok (.createTableAs d s) := by
  obtain ⟨ts, scanned, -⟩ := bind_eq_ok.1 h
  have whole := scan_creationText hd query
  rw [scanned] at whole
  rw [Statement.ofText_of_scan scanned] at h
  rw [Statement.ofText_of_scan whole]
  apply Statement.ofTokens_of_isStatement
  cases Statement.isStatement_of_ofTokens (ended_scan scanned) h with
  | plain command =>
    cases command with
    | select selection => exact .plain (.createTableAs d selection)
  | closed command =>
    cases command with
    | select selection => exact .closed (.createTableAs d selection)

/-- The text of the query for all columns of the join of the named tables. -/
def allText (names : List String) : String := "select * from " ++ String.intercalate "," names

theorem Statement.ofText_allText {names : List String} (nonempty : names ≠ [])
    (h : ∀ name ∈ names, IsName name.toList) :
    Statement.ofText (allText names) = .ok (.select ⟨[.star], names, []⟩) := by
  have select : Spells "select".toList [.keyword .select] :=
    spells_ofName (by decide +kernel) (by decide +kernel)
  have star : Spells "*".toList [.symbol .star] := spells_nil.symbol_cons rfl rfl
  have fromTables : Spells "from".toList [.keyword .fromTables] :=
    spells_ofName (by decide +kernel) (by decide +kernel)
  have list : ∃ ts, Spells (String.intercalate "," (names.map id)).toList ts ∧
      IsCommaSeparated IsIdentifier ts names :=
    spells_commaSeparated nonempty fun name hname =>
      ⟨_, spells_identifier (h name hname), .identifier name⟩
  obtain ⟨ts, spelled, phrase⟩ := list
  rw [List.map_id] at spelled
  have whole := (select.spaced (star.spaced (fromTables.spaced spelled))).scan_eq
  rw [Statement.ofText_of_scan (by simpa [allText] using whole)]
  apply Statement.ofTokens_of_isStatement
  exact .plain (.select (.all (.one .star) phrase))

theorem Statement.ofText_print {d : String} (hd : IsName d.toList) :
    Statement.ofText ("print " ++ d) = .ok (.print d) := by
  have print : Spells "print".toList [.keyword .print] :=
    spells_ofName (by decide +kernel) (by decide +kernel)
  have scanned : scan ("print " ++ d).toList = .ok [.keyword .print, .identifier d, .finish] := by
    simpa using (print.spaced (spells_identifier hd)).scan_eq
  rw [Statement.ofText_of_scan scanned]
  exact Statement.ofTokens_of_isStatement (.plain (.print d))

end Query

namespace Database

open Query (creationText allText)

variable {db : Database} {d name : String} {names block front back : List String}

def Binds (db : Database) (names : List String) : Prop :=
  ∀ name ∈ names, ∃ t, db.catalog.get? name = some t

/-- The tables that the names are bound to. -/
def TablesOf (db : Database) : List String → List Table → Prop :=
  List.Forall₂ fun name t => db.catalog.get? name = some t

theorem Binds.exists_tablesOf (h : db.Binds names) : ∃ ts, db.TablesOf names ts := by
  induction names with
  | nil => exact ⟨[], .nil⟩
  | cons name names ih =>
    obtain ⟨t, ht⟩ := h name List.mem_cons_self
    obtain ⟨ts, hts⟩ := ih fun n hn => h n (List.mem_cons_of_mem name hn)
    exact ⟨t :: ts, .cons ht hts⟩

theorem TablesOf.register {ts : List Table} (h : db.TablesOf names ts) (other : d ∉ names)
    (t : Table) : (db.register d t).TablesOf names ts := by
  induction h with
  | nil => exact .nil
  | @cons name u names ts bound _ ih =>
    have ne : name ≠ d := fun same => other (same ▸ List.mem_cons_self)
    have kept : (db.register d t).catalog.get? name = some u := by
      rw [get?_register, if_neg ne, bound]
    exact .cons kept (ih fun inside => other (List.mem_cons_of_mem name inside))

theorem Every.merge_of_tablesOf {ts : List Table} {t : Table} (h : db.Every Table.Fits)
    (bound : db.TablesOf names ts) (joined : Table.mergeAll? ts = some t) :
    db.merge names = .ok t := by
  have found : names.mapM db.table = .ok ts :=
    mapM_eq_ok.2 (bound.imp fun _ _ => table_eq_ok.2)
  have inOrder := Table.mergeAllByPosition?_eq (h.of_bound bound)
  simp only [merge, found, bind, Except.bind, inOrder, joined]
  rfl

theorem Every.exists_merge (h : db.Every Table.Fits) (bound : db.Binds block)
    (nonempty : block ≠ []) : ∃ t, db.merge block = .ok t := by
  obtain ⟨ts, hts⟩ := bound.exists_tablesOf
  have present : ts ≠ [] := by
    rintro rfl
    cases hts
    exact nonempty rfl
  obtain ⟨t, ht⟩ := Table.exists_mergeAll? present
  exact ⟨t, h.merge_of_tablesOf hts ht⟩

/-- A select joins the same tables if a block of them is joined first. -/
theorem Every.merge_register (h : db.Every Table.Fits) (hfront : db.Binds front)
    (hback : db.Binds back) {t : Table} (ht : db.merge block = .ok t) (other : d ∉ front ++ back) :
    (db.register d t).merge (front ++ d :: back) = db.merge (front ++ block ++ back) := by
  obtain ⟨fs, hfs⟩ := hfront.exists_tablesOf
  obtain ⟨ks, hks⟩ := hback.exists_tablesOf
  obtain ⟨bs, hbs, joined⟩ := h.merge_eq_ok ht
  have regrouped := Table.mergeAll?_block (h.of_bound hfs) (h.of_bound hbs) joined ks
  have nonempty : fs ++ t :: ks ≠ [] := by simp
  obtain ⟨u, hu⟩ := Table.exists_mergeAll? nonempty
  have whole : db.TablesOf (front ++ block ++ back) (fs ++ bs ++ ks) :=
    List.rel_append (List.rel_append hfs hbs) hks
  have inFront : d ∉ front := fun inside => other (List.mem_append_left back inside)
  have inBack : d ∉ back := fun inside => other (List.mem_append_right front inside)
  have here : (db.register d t).catalog.get? d = some t := by rw [get?_register, if_pos rfl]
  have replaced : (db.register d t).TablesOf (front ++ d :: back) (fs ++ t :: ks) :=
    List.rel_append (hfs.register inFront t) (.cons here (hks.register inBack t))
  have fits := h.register (h.fits_merge ht) d
  rw [h.merge_of_tablesOf whole (regrouped.trans hu), fits.merge_of_tablesOf replaced hu]

theorem Every.select_star (h : db.Every Table.Typed) {t : Table} (ht : db.merge block = .ok t) :
    db.select ⟨[.star], block, []⟩ = .ok t := by
  rw [select, ht]
  exact Table.evaluate_star (h.cells_merge ht)

theorem perform_select (db : Database) (s : Select) :
    db.perform (.select s) = .done ((db.select s).map Table.text) db := rfl

theorem execute_of_ofText {text : String} {statement : Statement}
    (h : Statement.ofText text = .ok statement) : db.execute text = db.perform statement := by
  unfold execute
  rw [h]

theorem perform_createTableAs_of_ok {s : Select} {t : Table} (h : db.select s = .ok t)
    (d : String) : db.perform (.createTableAs d s) = .done (.ok "") (db.register d t) := by
  simp only [perform, changes, h]
  rfl

theorem perform_createTableAs_of_error {s : Select} {e : Error} (h : db.select s = .error e)
    (d : String) : db.perform (.createTableAs d s) = .done (.error e) db := by
  simp only [perform, changes, h]
  rfl

theorem execute_print (db : Database) {d : String} (hd : IsName d.toList) (t : Table) :
    (db.register d t).execute ("print " ++ d) = .done (.ok t.text) (db.register d t) := by
  have found : (db.register d t).table d = .ok t := by
    rw [table_eq_ok, get?_register, if_pos rfl]
  rw [execute_of_ofText (Statement.ofText_print hd)]
  simp only [perform, answers, found]
  rfl

/-- Making tables of queries changes no answer. The join of a block of tables can be given any name
that stands nowhere else among the tables, and a select that joins it instead of the block answers
as before. The table of a query is there if the query has an answer, and is printed as that
answer. -/
theorem execute_materialized (db : Database) {d : String} (hd : IsName d.toList) :
    (db.Every Table.Typed → ∀ front block back : List String, block ≠ [] →
      (∀ name ∈ block, IsName name.toList) → db.Binds (front ++ block ++ back) →
      d ∉ front ++ back →
      ∃ after, db.execute (creationText d (allText block)) = .done (.ok "") after ∧
        ∀ ps cs, ∃ answer,
          db.perform (.select ⟨ps, front ++ block ++ back, cs⟩) = .done answer db ∧
          after.perform (.select ⟨ps, front ++ d :: back, cs⟩) = .done answer after) ∧
    ∀ query s, Statement.ofText query = .ok (.select s) →
      (∃ e, db.execute query = .done (.error e) db ∧
        db.execute (creationText d query) = .done (.error e) db) ∨
      ∃ text after, db.execute query = .done (.ok text) db ∧
        db.execute (creationText d query) = .done (.ok "") after ∧
        after.execute ("print " ++ d) = .done (.ok text) after := by
  constructor
  · intro typed front block back nonempty named bound other
    have inside {part : List String} (among : part ⊆ front ++ block ++ back) : db.Binds part :=
      fun name hname => bound name (among hname)
    have fits := typed.fits
    obtain ⟨t, ht⟩ := fits.exists_merge (inside (by simp)) nonempty
    have selected := typed.select_star ht
    refine ⟨db.register d t, ?_, fun ps cs => ⟨_, db.perform_select _, ?_⟩⟩
    · rw [execute_of_ofText (Statement.ofText_creationText hd
        (Statement.ofText_allText nonempty named))]
      exact perform_createTableAs_of_ok selected d
    · have merged := fits.merge_register (inside (by simp)) (inside (by simp)) ht other
      rw [perform_select, select, select, merged]
  · intro query s h
    rw [execute_of_ofText h, execute_of_ofText (Statement.ofText_creationText hd h),
      perform_select]
    cases selected : db.select s with
    | error e => exact .inl ⟨e, rfl, perform_createTableAs_of_error selected d⟩
    | ok t =>
      right
      exact ⟨t.text, _, rfl, perform_createTableAs_of_ok selected d, db.execute_print hd t⟩

theorem execute_materialized_of_two_tables :
    let t : Table := ⟨⟨[⟨"a", .int⟩]⟩, [⟨[.literal "1"]⟩, ⟨[.noValue]⟩]⟩
    let u : Table := ⟨⟨[⟨"a", .int⟩, ⟨"b", .string⟩]⟩, [⟨[.literal "1", .literal "'x'"]⟩]⟩
    let db := ((fresh {}).register "t" t).register "u" u
    db.Every Table.Typed ∧
      ∃ after, db.execute (creationText "d" (allText ["u", "t"])) = .done (.ok "") after ∧
        ∀ ps cs, ∃ answer, db.perform (.select ⟨ps, ["t", "u", "t"], cs⟩) = .done answer db ∧
          after.perform (.select ⟨ps, ["t", "d"], cs⟩) = .done answer after := by
  intro t u db
  have one : Value.HasType (.literal "1") .int := by decide
  have text : Value.HasType (.literal "'x'") .string := by decide
  have ht : t.Typed := List.forall_mem_cons.2
    ⟨.cons one .nil, List.forall_mem_singleton.2 (.cons trivial .nil)⟩
  have hu : u.Typed := List.forall_mem_singleton.2 (.cons one (.cons text .nil))
  have typed : db.Every Table.Typed := ((every_fresh _ {}).register ht "t").register hu "u"
  have bound : db.Binds (["t"] ++ ["u", "t"] ++ []) := by
    have both : db.catalog.get? "t" = some t ∧ db.catalog.get? "u" = some u := by decide +kernel
    simp [Binds, both]
  have hd : IsName "d".toList := ⟨by decide +kernel, by decide +kernel⟩
  have named : ∀ n ∈ ["u", "t"], IsName n.toList := by
    simp only [List.forall_mem_cons]
    exact ⟨⟨by decide +kernel, by decide +kernel⟩, ⟨by decide +kernel, by decide +kernel⟩, nofun⟩
  have materialized := db.execute_materialized hd
  exact ⟨typed, materialized.1 typed ["t"] ["u", "t"] [] (by simp) named bound (by decide)⟩

end Database
end Relational
