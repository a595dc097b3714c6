import Relational.Proofs.Indexing
import Relational.Proofs.Runs

/-!
# The tables of a database

What holds of every table that is bound, and how statements preserve it. The tables that a statement
binds are read from a file, joined and selected from bound ones, or a bound one with one more row.
-/
namespace Relational

open Query (Statement)

variable {P : ColumnType → Value → Prop}

namespace Table

theorem Cells.readRows {t u : Table} {lines : List Bytes} (h : t.Cells P)
    (new : ∀ line ∈ lines, ∀ s values, decodeLine line = .ok s → Query.readLiterals s = .ok values →
      ∀ v ∈ values, ∀ type, v.HasType type → P type (v.normalized type))
    (hu : t.readRows lines = .ok u) : u.Cells P := by
  induction lines generalizing t with
  | nil =>
    cases hu
    exact h
  | cons line rest ih =>
    obtain ⟨s, hs, hu⟩ := bind_eq_ok.1 hu
    split at hu
    · cases hu
      exact h
    · obtain ⟨values, hvalues, hu⟩ := bind_eq_ok.1 hu
      obtain ⟨w, hw, hu⟩ := bind_eq_ok.1 hu
      have first := h.insert hw (new line List.mem_cons_self s values hs (mapError_eq_ok.1 hvalues))
      exact ih first (fun l hl => new l (List.mem_cons_of_mem line hl)) hu

theorem cells_ofBytes {content : Bytes} {t : Table}
    (new : ∀ line ∈ content.lines, ∀ s values, decodeLine line = .ok s →
      Query.readLiterals s = .ok values →
      ∀ v ∈ values, ∀ type, v.HasType type → P type (v.normalized type))
    (h : ofBytes content = .ok t) : t.Cells P := by
  obtain ⟨s, _, h⟩ := bind_eq_ok.1 h
  exact (cells_empty s).readRows (fun line hl => new line (List.mem_of_mem_tail hl)) h

theorem fits_ofBytes {content : Bytes} {t : Table} (h : ofBytes content = .ok t) : t.Fits :=
  (cells_ofBytes (P := fun _ _ => True) (fun _ _ _ _ _ _ _ _ _ _ => trivial) h).fits

theorem inRange_insert (t : Table) (values : List Value) : InRange (t.insert values) := by
  apply InRange.map
  unfold Schema.accept
  split
  · next sameLength =>
    apply InRange.map
    clear sameLength
    generalize t.schema.attributes = as
    induction as generalizing values with
    | nil => exact inRange_ok _
    | cons a as ih =>
      cases values with
      | nil => exact inRange_ok _
      | cons v vs =>
        refine InRange.bind ?_ fun _ _ => (ih vs).bind fun _ _ => inRange_ok _
        unfold Attribute.accept
        split
        · next e he =>
          apply inRange_error
          rintro i rfl
          unfold Value.columnType at he
          split at he
          · cases he
          · split at he <;> cases he
        · exact inRange_ok _
        · split
          · exact inRange_ok _
          · exact inRange_error fun _ => nofun
  · exact inRange_error fun _ => nofun

theorem inRange_decodeLine (line : Bytes) : InRange (decodeLine line) := by
  unfold decodeLine
  split
  · exact inRange_ok _
  · exact inRange_error fun _ => nofun

theorem inRange_readRows (t : Table) (lines : List Bytes) : InRange (t.readRows lines) := by
  induction lines generalizing t with
  | nil => exact inRange_ok t
  | cons line rest ih =>
    apply (inRange_decodeLine line).bind
    intro s _
    split
    · exact inRange_ok t
    · refine InRange.bind (inRange_mapError _ ?_) ?_
      · exact fun _ _ _ => nofun
      · intro values _
        exact (t.inRange_insert values).bind fun u _ => ih u

theorem inRange_ofBytes (content : Bytes) : InRange (ofBytes content) := by
  refine InRange.bind ?_ fun s _ => inRange_readRows _ _
  refine InRange.bind ?_ fun s _ => ?_
  · cases content.lines.head? with
    | none => exact inRange_ok _
    | some line => exact inRange_decodeLine line
  · split
    · exact inRange_error fun _ => nofun
    · refine InRange.bind (inRange_mapError _ ?_) fun _ _ => inRange_ok _
      exact fun _ _ _ => nofun

end Table

namespace Database

variable {db after : Database}

/-- Every table that is bound has the property. -/
def Every (T : Table → Prop) (db : Database) : Prop :=
  ∀ name t, db.catalog.get? name = some t → T t

theorem every_fresh (T : Table → Prop) (directory : DataDirectory) : (fresh directory).Every T :=
  fun _ _ h => nomatch h

theorem Every.mono {T U : Table → Prop} (h : db.Every T) (implies : ∀ t, T t → U t) : db.Every U :=
  fun name t ht => implies t (h name t ht)

theorem Every.register {T : Table → Prop} {t : Table} (h : db.Every T) (ht : T t) (name : String) :
    (db.register name t).Every T := by
  intro n u hu
  rw [Database.register, Catalog.get?_insert] at hu
  split at hu
  · cases hu
    exact ht
  · exact h n u hu

theorem Every.erase {T : Table → Prop} (h : db.Every T) (name : String) :
    Every T { db with catalog := db.catalog.erase name } := by
  intro n u hu
  rw [Catalog.get?_erase] at hu
  split at hu
  · cases hu
  · exact h n u hu

/-- What every table keeps if the tables that a statement binds have it. -/
theorem Every.effect {T : Table → Prop} {found : Except FileFault Bytes} {statement : Statement}
    {output : String} (h : db.Every T) (effect : db.Effect found statement output after)
    (empty : ∀ name attributes, statement = .createTable name attributes →
      T (Table.empty ⟨attributes⟩))
    (selected : ∀ name s t, statement = .createTableAs name s → db.select s = .ok t → T t)
    (loaded : ∀ content t, found = .ok content → Table.ofBytes content = .ok t → T t)
    (inserted : ∀ name values t u, statement = .insert name values →
      T t → t.insert values = .ok u → T u) : after.Every T := by
  cases effect with
  | createTable name attributes => exact h.register (empty name attributes rfl) name
  | createTableAs ht => exact h.register (selected _ _ _ rfl ht) _
  | load hfound ht => exact h.register (loaded _ _ hfound ht) _
  | store _ => exact h
  | dropTable _ => exact h.erase _
  | insert ht hu => exact h.register (inserted _ _ _ _ rfl (h _ _ ht) hu) _
  | print _ => exact h
  | select _ => exact h

/-- What every table keeps if the tables that an event binds have it. -/
theorem Every.respond {T : Table → Prop} (h : db.Every T) (e : Event)
    (empty : ∀ name attributes, Statement.ofText e.text = .ok (.createTable name attributes) →
      T (Table.empty ⟨attributes⟩))
    (selected : ∀ name s t, Statement.ofText e.text = .ok (.createTableAs name s) →
      db.select s = .ok t → T t)
    (loaded : ∀ content t, e.found = .ok content → Table.ofBytes content = .ok t → T t)
    (inserted : ∀ name values t u, Statement.ofText e.text = .ok (.insert name values) →
      T t → t.insert values = .ok u → T u) : (db.respond e).2.Every T := by
  rcases db.respond_cases e with ⟨why, failed⟩ | ⟨statement, output, after, hs, done, effect⟩
  · rw [failed]
    exact h
  · rw [done]
    refine h.effect effect ?_ ?_ loaded ?_
    · rintro name attributes rfl
      exact empty name attributes hs
    · rintro name s t rfl ht
      exact selected name s t hs ht
    · rintro name values t u rfl ht hu
      exact inserted name values t u hs ht hu

theorem Every.of_bound {names : List String} {ts : List Table} (h : db.Every T)
    (bound : List.Forall₂ (fun name t => db.catalog.get? name = some t) names ts) :
    ∀ t ∈ ts, T t := by
  intro t ht
  obtain ⟨name, -, found⟩ := exists_of_mem_right bound ht
  exact h name t found

theorem bound_of_mapM {names : List String} {ts : List Table} (h : names.mapM db.table = .ok ts) :
    List.Forall₂ (fun name t => db.catalog.get? name = some t) names ts :=
  (mapM_eq_ok.1 h).imp fun _ _ => table_eq_ok.1

theorem Every.merge_eq_ok {names : List String} {t : Table} (h : db.Every Table.Fits)
    (ht : db.merge names = .ok t) :
    ∃ ts, List.Forall₂ (fun name u => db.catalog.get? name = some u) names ts ∧
      Table.mergeAll? ts = some t := by
  obtain ⟨ts, hts, ht⟩ := bind_eq_ok.1 ht
  have bound := bound_of_mapM hts
  rw [Table.mergeAllByPosition?_eq (h.of_bound bound)] at ht
  refine ⟨ts, bound, ?_⟩
  cases hall : Table.mergeAll? ts with
  | none =>
    rw [hall] at ht
    cases ht
  | some u =>
    rw [hall] at ht
    cases ht
    rfl

theorem Every.fits (h : db.Every (Table.Cells P)) : db.Every Table.Fits :=
  h.mono fun _ ht => Table.Cells.fits ht

theorem Every.cells_merge {names : List String} {t : Table} (h : db.Every (Table.Cells P))
    (ht : db.merge names = .ok t) : t.Cells P := by
  obtain ⟨ts, bound, hall⟩ := h.fits.merge_eq_ok ht
  exact Table.Cells.mergeAll (h.of_bound bound) hall

theorem Every.fits_merge {names : List String} {t : Table} (h : db.Every Table.Fits)
    (ht : db.merge names = .ok t) : t.Fits :=
  (Every.cells_merge (h.mono fun _ => Table.fits_iff_cells.1) ht).fits

theorem Every.fits_select {s : Select} {t : Table} (h : db.Every Table.Fits)
    (ht : db.select s = .ok t) : t.Fits := by
  obtain ⟨u, hu, ht⟩ := bind_eq_ok.1 ht
  exact (h.fits_merge hu).evaluate ht

theorem Every.fits_effect {found : Except FileFault Bytes} {statement : Statement} {output : String}
    (h : db.Every Table.Fits) (effect : db.Effect found statement output after) :
    after.Every Table.Fits := by
  refine h.effect effect ?_ ?_ ?_ ?_
  · exact fun _ attributes _ => (Table.cells_empty (P := fun _ _ => True) ⟨attributes⟩).fits
  · exact fun _ _ _ _ ht => h.fits_select ht
  · exact fun _ _ _ ht => Table.fits_ofBytes ht
  · exact fun _ _ _ _ _ ht hu => ht.insert hu

theorem Every.fits_perform (h : db.Every Table.Fits) (statement : Statement)
    (found : Except FileFault Bytes) (written : Except FileFault Unit) :
    ((db.perform statement).settle found written).2.Every Table.Fits := by
  rcases db.perform_cases statement found written with ⟨e, he⟩ | ⟨output, after, he, effect⟩
  · rw [he]
    exact h
  · rw [he]
    exact h.fits_effect effect

theorem Every.fits_respond (h : db.Every Table.Fits) (e : Event) :
    (db.respond e).2.Every Table.Fits := by
  unfold Database.respond execute
  split
  · exact h.fits_perform _ _ _
  · exact h

theorem inRange_table (db : Database) (name : String) : InRange (db.table name) := by
  unfold table
  split
  · exact inRange_ok _
  · exact inRange_error fun _ => nofun

theorem Every.inRange_merge (h : db.Every Table.Fits) (names : List String) :
    InRange (db.merge names) := by
  apply (InRange.mapM fun name _ => db.inRange_table name).bind
  intro ts hts
  rw [Table.mergeAllByPosition?_eq (h.of_bound (bound_of_mapM hts))]
  refine (inRange_ok _).bind fun t? _ => ?_
  cases t? with
  | none => exact inRange_error fun _ => nofun
  | some t => exact inRange_ok t

theorem Every.inRange_select (h : db.Every Table.Fits) (s : Select) : InRange (db.select s) := by
  apply (h.inRange_merge s.tables).bind
  intro t ht
  exact (h.fits_merge ht).inRange_evaluate s.projections s.conditions

theorem inRange_insert (db : Database) (name : String) (values : List Value) :
    InRange (db.insert name values) := by
  apply (db.inRange_table name).bind
  intro t _
  exact (t.inRange_insert values).bind fun _ _ => inRange_ok _

theorem inRange_changed {x : Except Error Database} (h : InRange x) : InRange (db.changed x).1 := by
  cases x with
  | error e => exact fun i hi => h i (by cases hi; rfl)
  | ok after => exact inRange_ok _

/-- No statement reads a position that is not there, whatever the files answer. -/
theorem Every.inRange_perform (h : db.Every Table.Fits) (statement : Statement)
    (found : Except FileFault Bytes) (written : Except FileFault Unit) :
    InRange ((db.perform statement).settle found written).1 := by
  cases statement with
  | createTable name attributes => exact inRange_ok _
  | createTableAs name s => exact inRange_changed ((h.inRange_select s).map _)
  | load name =>
    apply inRange_changed
    refine InRange.bind (inRange_mapError found ?_) ?_
    · exact fun _ _ _ => nofun
    · intro content _
      refine InRange.bind (inRange_mapError _ ?_) fun _ _ => inRange_ok _
      intro e he i
      cases e with
      | outOfRange j => exact absurd he (Table.inRange_ofBytes content j)
      | _ => nofun
  | store name =>
    simp only [perform, store]
    split
    · next e he => exact fun i hi => db.inRange_table name i (by rw [he]; cases hi; rfl)
    · apply inRange_changed
      refine InRange.bind (inRange_mapError written ?_) fun _ _ => inRange_ok _
      exact fun _ _ _ => nofun
  | dropTable name =>
    apply inRange_changed
    exact ((db.inRange_table name).bind fun _ _ => inRange_ok _).map _
  | insert name values => exact inRange_changed (db.inRange_insert name values)
  | print name => exact (db.inRange_table name).map _
  | select s => exact (h.inRange_select s).map _

theorem Every.inRange_respond (h : db.Every Table.Fits) (e : Event) : InRange (db.respond e).1 := by
  unfold Database.respond execute
  split
  · exact h.inRange_perform _ _ _
  · exact inRange_error fun _ => nofun

end Database
end Relational
