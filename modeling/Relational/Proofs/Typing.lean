import Mathlib.Data.List.Induction
import Relational.Proofs.Bindings
import Relational.Proofs.Spelling
import Relational.Proofs.StoredForm

/-!
# The types of cells

A row is checked when it comes in, and then its floats are rewritten. So what was checked is not
what is stored, and for one kind of literal this matters: a numeral that is too large for a finite
number has the type of a float column, and is stored as a word that has no type at all. Selecting
checks every cell once more. So a run keeps all cells typed exactly as long as no such numeral is
taken in.
-/
namespace Relational

open Query (IsNumeral IsWord Spells Statement Token)

namespace Value

/-- A numeral for a float column that no finite number is near to. -/
def Overflows (v : Value) (type : ColumnType) : Prop :=
  type = .float ∧ ∃ negative, v.float? = some (.infinite negative)

/-- What a cell of a column can be: a value of the column's type, or the word for an infinity where
there should be a float. -/
def Admitted (type : ColumnType) (v : Value) : Prop :=
  v.HasType type ∨ type = .float ∧ ∃ negative, v = .literal (Binary64.infinityText negative)

theorem normalized_float {s : String} (h : ColumnType.ofLiteral? s = some .float) :
    (∃ negative rank, Binary64.read? s = some (.finite negative rank) ∧
        (Value.literal s).normalized .float = .ofFloat (.finite negative rank)) ∨
      ∃ negative, Binary64.read? s = some (.infinite negative) ∧
        (Value.literal s).normalized .float = .literal (Binary64.infinityText negative) := by
  obtain ⟨-, point, x, hx⟩ := ColumnType.ofLiteral?_eq_float_iff.1 h
  have stored : (Value.literal s).normalized .float = .ofFloat x := by
    simp [normalized, float?, literal?, hx]
  obtain ⟨negative, digits, exponent, rfl⟩ := Binary64.eq_ofDecimal_of_read? point hx
  rcases Binary64.ofDecimal_cases negative digits exponent with ⟨rank, hrank⟩ | hinf
  · rw [hrank] at hx stored
    exact .inl ⟨_, _, hx, stored⟩
  · rw [hinf] at hx stored
    exact .inr ⟨_, hx, stored⟩

/-- The stored form has the type that the value had, unless the value is too large. -/
theorem hasType_normalized_iff {v : Value} {type : ColumnType} (h : v.HasType type) :
    (v.normalized type).HasType type ↔ ¬ v.Overflows type := by
  cases type with
  | string => exact iff_of_true h fun ⟨ne, _⟩ => nomatch ne
  | int => exact iff_of_true h fun ⟨ne, _⟩ => nomatch ne
  | float =>
    cases v with
    | noValue => exact iff_of_true h fun ⟨_, _, hs⟩ => nomatch hs
    | literal s =>
      rcases normalized_float h with ⟨negative, rank, hx, stored⟩ | ⟨negative, hx, stored⟩
      · rw [stored]
        refine iff_of_true (ColumnType.ofLiteral?_storedText negative rank) ?_
        rintro ⟨-, sign, hs⟩
        cases hx.symm.trans hs
      · rw [stored, hasType_literal, ColumnType.ofLiteral?_infinityText]
        exact iff_of_false (fun h => nomatch h) fun finite => finite ⟨rfl, negative, hx⟩

theorem admitted_normalized {v : Value} {type : ColumnType} (h : v.HasType type) :
    Admitted type (v.normalized type) := by
  cases type with
  | string => exact .inl h
  | int => exact .inl h
  | float =>
    cases v with
    | noValue => exact .inl h
    | literal s =>
      rcases normalized_float h with ⟨negative, rank, -, stored⟩ | ⟨negative, -, stored⟩
      · rw [stored]
        exact .inl (ColumnType.ofLiteral?_storedText negative rank)
      · exact .inr ⟨rfl, negative, stored⟩

end Value

def Schema.Overflows (s : Schema) (values : List Value) : Prop :=
  ∃ x ∈ s.attributes.zip values, x.2.Overflows x.1.type

namespace Table

variable {t u : Table}

/-- Every cell has the type of its column. -/
def Typed (t : Table) : Prop := t.Cells fun type v => v.HasType type

theorem forall₂_stored_iff {as : List Attribute} {vs : List Value}
    (h : List.Forall₂ (fun (a : Attribute) (v : Value) => v.HasType a.type) as vs) :
    List.Forall₂ (fun (a : Attribute) (v : Value) => v.HasType a.type) as (Schema.stored as vs) ↔
      ¬ Schema.Overflows ⟨as⟩ vs := by
  induction h with
  | nil => exact iff_of_true .nil fun ⟨_, hx, _⟩ => nomatch hx
  | @cons a v as vs hv _ ih =>
    have here := Value.hasType_normalized_iff hv
    have split : Schema.Overflows ⟨a :: as⟩ (v :: vs) ↔
        v.Overflows a.type ∨ Schema.Overflows ⟨as⟩ vs := by
      simp [Schema.Overflows]
    rw [split, not_or, ← here, ← ih]
    exact List.forall₂_cons

theorem typed_insert_iff {values : List Value} (hu : t.insert values = .ok u) :
    u.Typed ↔ t.Typed ∧ ¬ t.schema.Overflows values := by
  obtain ⟨r, hr, rfl⟩ := insert_eq_ok hu
  obtain ⟨typed, rfl⟩ := Schema.accept_eq_ok.1 hr
  have last := forall₂_stored_iff typed
  constructor
  · intro h
    refine ⟨fun q hq => h q (List.mem_append_left _ hq), last.1 ?_⟩
    exact h _ (List.mem_append_right _ List.mem_cons_self)
  · rintro ⟨h, finite⟩ q hq
    rcases List.mem_append.1 hq with hq | hq
    · exact h q hq
    · rw [List.mem_singleton.1 hq]
      exact last.2 finite

/-- The rows of literals in the lines of a file, up to the first line that is not one. -/
def literalRows : List Bytes → List (List Value)
  | [] => []
  | line :: rest =>
    match decodeLine line with
    | .error _ => []
    | .ok s =>
      if Text.isBlankText s then []
      else
        match Query.readLiterals s with
        | .error _ => []
        | .ok values => values :: literalRows rest

theorem schema_insert {values : List Value} (hu : t.insert values = .ok u) :
    u.schema = t.schema := by
  obtain ⟨r, -, rfl⟩ := insert_eq_ok hu
  rfl

theorem typed_readRows_iff {lines : List Bytes} (hu : t.readRows lines = .ok u) :
    u.Typed ↔ t.Typed ∧ ∀ values ∈ literalRows lines, ¬ t.schema.Overflows values := by
  induction lines generalizing t with
  | nil =>
    cases hu
    simp [literalRows]
  | cons line rest ih =>
    obtain ⟨s, hs, hu⟩ := bind_eq_ok.1 hu
    unfold literalRows
    rw [hs]
    dsimp only
    split at hu
    · next blank =>
      cases hu
      simp [blank]
    · next written =>
      obtain ⟨values, hvalues, hu⟩ := bind_eq_ok.1 hu
      obtain ⟨w, hw, hu⟩ := bind_eq_ok.1 hu
      rw [if_neg written, mapError_eq_ok.1 hvalues, ih hu, typed_insert_iff hw, schema_insert hw]
      simp only [List.forall_mem_cons, and_assoc]

theorem typed_empty (s : Schema) : (empty s).Typed := cells_empty s

theorem typed_ofBytes_iff {content : Bytes} (h : ofBytes content = .ok t) :
    t.Typed ↔ ∀ s, readHeader content.lines = .ok s →
      ∀ values ∈ literalRows content.lines.tail, ¬ s.Overflows values := by
  obtain ⟨s, hs, h⟩ := bind_eq_ok.1 h
  rw [typed_readRows_iff h, hs]
  constructor
  · rintro ⟨-, finite⟩ q hq
    cases hq
    exact finite
  · exact fun finite => ⟨typed_empty s, finite s rfl⟩

/-- A table of selected columns is typed, since its columns take only what has their type. -/
theorem Fits.typed_evaluate {ps : List Projection} {cs : List Condition} (h : t.Fits)
    (hu : t.evaluate ps cs = .ok u) : u.Typed :=
  (fits_iff_cells.1 h).evaluate (fun _ _ _ typed => typed)
    (fun _ _ _ _ _ _ _ _ _ _ _ _ typed => typed) (fun _ _ _ => trivial) hu

end Table

namespace Database

variable {db : Database} {e : Event}

/-- The event succeeds and takes in a literal that is too large: it inserts one, or reads one from a
file. -/
inductive TakesOverflow (db : Database) (e : Event) : Prop
  | insert {output name values t} : (db.respond e).1 = .ok output →
    Statement.ofText e.text = .ok (.insert name values) → db.catalog.get? name = some t →
    t.schema.Overflows values → TakesOverflow db e
  | load {output name content s values} : (db.respond e).1 = .ok output →
    Statement.ofText e.text = .ok (.load name) → e.found = .ok content →
    Table.readHeader content.lines = .ok s → values ∈ Table.literalRows content.lines.tail →
    s.Overflows values → TakesOverflow db e

theorem TakesOverflow.succeeds (h : db.TakesOverflow e) :
    ∃ output, (db.respond e).1 = .ok output := by
  cases h with
  | insert succeeds => exact ⟨_, succeeds⟩
  | load succeeds => exact ⟨_, succeeds⟩

theorem every_register_iff {T : Table → Prop} (h : db.Every T) (name : String) (t : Table) :
    (db.register name t).Every T ↔ T t := by
  constructor
  · exact fun after => after name t ((Catalog.get?_insert ..).trans (if_pos rfl))
  · exact fun ht => h.register ht name

theorem Every.typed_select {s : Select} {t : Table} (h : db.Every Table.Fits)
    (ht : db.select s = .ok t) : t.Typed := by
  obtain ⟨u, hu, ht⟩ := bind_eq_ok.1 ht
  exact (h.fits_merge hu).typed_evaluate ht

/-- An event keeps all cells typed if and only if it takes in no literal that is too large. -/
theorem typed_respond_iff (h : db.Every Table.Typed) (e : Event) :
    (db.respond e).2.Every Table.Typed ↔ ¬ db.TakesOverflow e := by
  have fits : db.Every Table.Fits := h.mono fun _ ht => Table.Cells.fits ht
  rcases db.respond_cases e with ⟨why, failed⟩ | ⟨statement, output, after, hs, done, effect⟩
  · rw [failed]
    refine iff_of_true h fun taken => ?_
    obtain ⟨output, succeeds⟩ := taken.succeeds
    rw [failed] at succeeds
    cases succeeds
  · have ok : (db.respond e).1 = .ok output := by rw [done]
    rw [done]
    -- a statement that takes in nothing leaves typed tables, whatever it is
    have harmless : after.Every Table.Typed → (∀ name values, statement ≠ .insert name values) →
        (∀ name, statement ≠ .load name) →
        (after.Every Table.Typed ↔ ¬ db.TakesOverflow e) := by
      intro typed notInsert notLoad
      refine iff_of_true typed fun taken => ?_
      cases taken with
      | insert _ hi => exact notInsert _ _ (Except.ok.inj (hs.symm.trans hi))
      | load _ hl => exact notLoad _ (Except.ok.inj (hs.symm.trans hl))
    cases effect with
    | createTable name attributes =>
      exact harmless (h.register (Table.typed_empty _) name) nofun nofun
    | createTableAs ht => exact harmless (h.register (fits.typed_select ht) _) nofun nofun
    | dropTable _ => exact harmless (h.erase _) nofun nofun
    | store _ | print _ | select _ => exact harmless h nofun nofun
    | insert ht hu =>
      rw [every_register_iff h, Table.typed_insert_iff hu, and_iff_right (h _ _ ht)]
      apply not_congr
      constructor
      · exact fun overflow => .insert ok hs ht overflow
      · intro taken
        cases taken with
        | insert _ hi hq overflow =>
          cases hs.symm.trans hi
          cases ht.symm.trans hq
          exact overflow
        | load _ hl => cases hs.symm.trans hl
    | load hfound ht =>
      rw [every_register_iff h, Table.typed_ofBytes_iff ht]
      constructor
      · intro finite taken
        cases taken with
        | insert _ hi => cases hs.symm.trans hi
        | load _ _ hq header row overflow =>
          cases hfound.symm.trans hq
          exact finite _ header _ row overflow
      · intro finite s header values row overflow
        exact finite (.load ok hs hfound header row overflow)

/-- Whatever happens, a cell has the type of its column or is the word for an infinity. -/
theorem Every.admitted_respond (h : db.Every (Table.Cells Value.Admitted)) (e : Event) :
    (db.respond e).2.Every (Table.Cells Value.Admitted) := by
  have new : ∀ (v : Value) type, v.HasType type → Value.Admitted type (v.normalized type) :=
    fun _ _ => Value.admitted_normalized
  refine h.respond e ?_ ?_ ?_ ?_
  · exact fun _ attributes _ => Table.cells_empty _
  · exact fun _ _ _ _ ht => (h.fits.typed_select ht).mono fun _ _ typed => .inl typed
  · intro _ _ _ ht
    exact Table.cells_ofBytes (fun _ _ _ _ _ _ v _ type typed => new v type typed) ht
  · exact fun _ _ _ _ _ ht hu => ht.insert hu fun v _ type typed => new v type typed

theorem ofText_insert {digits : List Char} (h : IsNumeral digits) :
    Statement.ofText ("insert into t values " ++ String.ofList digits) =
      .ok (.insert "t" [.literal (String.ofList digits)]) := by
  have apart (cs rest : List Char) (_ : Query.Breaks rest) : Query.Breaks (' ' :: cs ++ rest) :=
    Query.breaks_blank _
  have word (s : String) (hs : IsWord s.toList) {cs : List Char} {ts : List Token}
      (more : Spells cs ts) : Spells (s.toList ++ ' ' :: cs) (Token.ofName s.toList :: ts) :=
    (Query.spells_word hs).append more.blank_cons (apart cs)
  have spelled := word "insert" (by decide +kernel) <|
    word "into" (by decide +kernel) <|
    word "t" (by decide +kernel) <|
    word "values" (by decide +kernel) <| Query.spells_number h
  have insert : Token.ofName "insert".toList = .keyword .insert := by decide +kernel
  have into : Token.ofName "into".toList = .keyword .into := by decide +kernel
  have name : Token.ofName "t".toList = .identifier "t" := by decide +kernel
  have values : Token.ofName "values".toList = .keyword .values := by decide +kernel
  rw [insert, into, name, values] at spelled
  have scanned : Query.scan ("insert into t values " ++ String.ofList digits).toList =
      .ok [.keyword .insert, .keyword .into, .identifier "t", .keyword .values,
        .number (String.ofList digits), .finish] := by
    have text : ("insert into t values " ++ String.ofList digits).toList =
        "insert".toList ++ ' ' :: ("into".toList ++ ' ' ::
          ("t".toList ++ ' ' :: ("values".toList ++ ' ' :: digits))) := by
      simp
    rw [text]
    exact spelled.scan_eq
  exact Query.Rule.runOn_of_ok scanned rfl

theorem takesOverflow_insert {db : Database} {digits : List Char}
    (bound : db.catalog.get? "t" = some (Table.empty ⟨[⟨"x", .float⟩]⟩)) (h : IsNumeral digits)
    (point : '.' ∈ digits)
    (infinite : Binary64.read? (String.ofList digits) = some (.infinite false)) :
    db.TakesOverflow ⟨"insert into t values " ++ String.ofList digits, .ok [], .ok ()⟩ := by
  have statement := ofText_insert h
  generalize hs : String.ofList digits = s at statement infinite
  have float : Value.HasType (.literal s) .float := by
    refine ColumnType.ofLiteral?_eq_float_iff.2 ⟨fun quote => ?_, ?_, _, infinite⟩
    · rw [← hs, String.toList_ofList] at quote
      rcases h.mem _ quote with h | h <;> exact absurd h (by decide)
    · rwa [← hs, String.toList_ofList]
  obtain ⟨u, hu⟩ : ∃ u, (Table.empty ⟨[⟨"x", .float⟩]⟩).insert [.literal s] = .ok u :=
    ⟨_, map_eq_ok.2 ⟨_, Schema.accept_eq_ok.2 ⟨.cons float .nil, rfl⟩, rfl⟩⟩
  have inserted : db.insert "t" [.literal s] = .ok (db.register "t" u) :=
    bind_eq_ok.2 ⟨_, table_eq_ok.2 bound, bind_eq_ok.2 ⟨u, hu, rfl⟩⟩
  have answer : (db.respond ⟨"insert into t values " ++ s, .ok [], .ok ()⟩).1 = .ok "" := by
    simp [respond, execute, statement, perform, changes, Step.settle, inserted, changed]
  exact .insert answer statement bound ⟨_, List.mem_cons_self, rfl, false, infinite⟩

/-- In any run every cell has the type of its column or is the word for an infinity. All cells are
typed at all times if and only if no event takes in a literal that is too large. -/
theorem run_typed_iff (directory : DataDirectory) (es : List Event) :
    ((fresh directory).run es).Every (Table.Cells Value.Admitted) ∧
    ((∀ done, done <+: es → ((fresh directory).run done).Every Table.Typed) ↔
      ∀ done e, done ++ [e] <+: es → ¬ ((fresh directory).run done).TakesOverflow e) := by
  constructor
  · exact run_preserves (fun _ h e _ => h.admitted_respond e) (every_fresh _ directory)
  constructor
  · intro typed done e before
    rw [← typed_respond_iff (typed done ((List.prefix_append done [e]).trans before)) e]
    have next := typed (done ++ [e]) before
    rwa [run_append] at next
  · intro finite done
    induction done using List.reverseRecOn with
    | nil => exact fun _ => every_fresh _ directory
    | append_singleton done e ih =>
      intro before
      have earlier := ih ((List.prefix_append done [e]).trans before)
      rw [run_append]
      exact (typed_respond_iff earlier e).2 (finite done e before)

/-- A row that makes the column's only cell an infinity. -/
theorem not_typed_of_large_numeral :
    ¬ ∀ (directory : DataDirectory) (es : List Event),
      ((fresh directory).run es).Every Table.Typed := by
  intro typed
  have large := Binary64.read?_zeros (Nat.le_refl 310)
  let es : List Event := [⟨"create table t (x float);", .ok [], .ok ()⟩]
  have bound : ((fresh {}).run es).catalog.get? "t" = some (Table.empty ⟨[⟨"x", .float⟩]⟩) := by
    decide +kernel
  have taken := takesOverflow_insert bound
    (.point (Binary64.isDigit_zeros 310) (by simp) (.inl (List.cons_ne_nil _ _)))
    (List.mem_append_right _ List.mem_cons_self) large
  have next (e : Event) : (((fresh {}).run es).respond e).2.Every Table.Typed := by
    have whole := typed {} (es ++ [e])
    rwa [run_append] at whole
  exact (typed_respond_iff (typed {} es) _).1 (next _) taken

end Database
end Relational
