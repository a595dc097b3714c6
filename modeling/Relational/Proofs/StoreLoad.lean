import Relational.Proofs.Atomicity
import Relational.Proofs.RowLines
import Relational.Proofs.StoredFloats

/-!
# Storing and loading

What is stored is read back as it was, down to the last cell, unless there is a cell that a line
cannot hold: a string with a line feed in it, which is cut in two, or an infinite number, whose word
is read as a name. Loading a stored table then leaves all bindings as they were.
-/
namespace Relational

open Query (Statement)

/-- A value that a line can hold. -/
def Value.Plain (v : Value) : Prop := '\n' ∉ v.text.toList ∧ ¬ v.IsInfinite

def Table.Plain (t : Table) : Prop := ∀ r ∈ t.rows, ∀ v ∈ r.values, v.Plain

instance (v : Value) : Decidable v.IsInfinite :=
  decidable_of_iff (v = .literal (Binary64.infinityText true) ∨
    v = .literal (Binary64.infinityText false)) (by simp [Value.IsInfinite, or_comm])

instance (v : Value) : Decidable v.Plain := inferInstanceAs (Decidable (_ ∧ _))

instance (t : Table) : Decidable t.Plain :=
  inferInstanceAs (Decidable (∀ r ∈ t.rows, ∀ v ∈ r.values, v.Plain))

theorem Value.Stored.hasType {type : ColumnType} {v : Value} (h : v.Stored type)
    (finite : ¬ v.IsInfinite) : v.HasType type := by
  cases v with
  | noValue => trivial
  | literal s =>
    cases type with
    | string => exact ColumnType.ofLiteral?_eq_string_iff.2 (IsQuoted.quote_mem h)
    | int => exact h.2
    | float =>
      rcases h with ⟨negative, rank, rfl⟩ | ⟨negative, rfl⟩
      · exact ColumnType.ofLiteral?_storedText negative rank
      · exact absurd ⟨negative, rfl⟩ finite

theorem Value.Stored.normalized_eq {type : ColumnType} {v : Value} (h : v.Stored type)
    (finite : ¬ v.IsInfinite) : v.normalized type = v := by
  cases v with
  | noValue => exact normalized_noValue type
  | literal s =>
    cases type with
    | string => rfl
    | int => rfl
    | float =>
      rcases h with ⟨negative, rank, rfl⟩ | ⟨negative, rfl⟩
      · exact Value.normalized_ofFloat negative rank
      · exact absurd ⟨negative, rfl⟩ finite

theorem Row.Stored.typed {s : Schema} {r : Row} (h : r.Stored s)
    (finite : ∀ v ∈ r.values, ¬ v.IsInfinite) :
    List.Forall₂ (fun (a : Attribute) (v : Value) => v.HasType a.type) s.attributes r.values := by
  rw [List.forall₂_iff_zip]
  refine ⟨h.length_eq, fun inside => ?_⟩
  exact (List.forall₂_zip h inside).hasType (finite _ (List.of_mem_zip inside).2)

theorem Row.Stored.values_eq {s : Schema} {r : Row} (h : r.Stored s)
    (finite : ∀ v ∈ r.values, ¬ v.IsInfinite) : Schema.stored s.attributes r.values = r.values := by
  apply List.ext_getElem
  · simp [Schema.stored, h.length_eq]
  · intro i hi hj
    have here := h.get (h.length_eq ▸ hj) hj
    simp only [Schema.stored, List.getElem_zipWith]
    exact here.normalized_eq (finite _ (List.getElem_mem hj))

theorem Value.lineFeed_notMem_normalized {v : Value} {type : ColumnType}
    (written : v.Written (· ≠ '\n')) (typed : v.HasType type) :
    '\n' ∉ (v.normalized type).text.toList := by
  have raw : '\n' ∉ v.text.toList := by
    cases v with
    | noValue => decide
    | literal s =>
      intro inside
      rcases written with ⟨content, rfl, hcontent⟩ | number
      · have inside : '\n' ∈ content.toList := by simpa [text] using inside
        exact (hcontent _ inside).2 rfl
      · rcases number.mem _ inside with h | h | h <;> exact absurd h (by decide)
  cases type with
  | string => exact raw
  | int => exact raw
  | float =>
    cases v with
    | noValue => exact raw
    | literal s =>
      rcases normalized_float typed with ⟨negative, rank, -, stored⟩ | ⟨negative, -, stored⟩
      · rw [stored]
        intro inside
        rcases Binary64.mem_storedText inside with h | h | h <;> exact absurd h (by decide)
      · rw [stored]
        cases negative <;> decide

namespace Table

variable {t u : Table}

theorem decodeLine_eq_ok {line : Bytes} {s : String} :
    decodeLine line = .ok s ↔ line.toText? = some s := by
  unfold decodeLine
  split <;> simp_all

/-- Tables that come out of files have no line feeds in their cells. -/
theorem lineFeed_notMem_ofBytes {content : Bytes} (h : ofBytes content = .ok t) :
    t.Cells fun _ v => '\n' ∉ v.text.toList := by
  refine cells_ofBytes ?_ h
  intro line hline s values hs hvalues v hv type typed
  have oneLine : '\n' ∉ s.toList := by
    intro inside
    have encoded := Bytes.lineFeed_mem_ofText.2 inside
    rw [Bytes.ofText_toText? (decodeLine_eq_ok.1 hs)] at encoded
    exact Bytes.lineFeed_notMem_lines content line hline encoded
  have written := Query.written_of_readLiterals (K := (· ≠ '\n'))
    (fun c hc same => oneLine (same ▸ hc)) hvalues
  exact Value.lineFeed_notMem_normalized (written v hv) typed

/-- Only queries bring in line feeds: in a table from a file, lines can hold whatever is typed. -/
theorem plain_iff_typed_of_ofBytes {content : Bytes} (h : ofBytes content = .ok t) :
    t.Plain ↔ t.Typed := by
  have stored := (storable_ofBytes h).cells
  have noLineFeed := lineFeed_notMem_ofBytes h
  constructor
  · intro plain r hr
    exact Row.Stored.typed (stored r hr) fun v hv => (plain r hr v hv).2
  · intro typed r hr v hv
    obtain ⟨i, hi, rfl⟩ := List.getElem_of_mem hv
    have bound : i < t.schema.attributes.length := (typed r hr).length_eq ▸ hi
    refine ⟨(noLineFeed r hr).get bound hi, ?_⟩
    rintro ⟨negative, infinite⟩
    have here := (typed r hr).get bound hi
    simp only [List.get_eq_getElem, infinite, Value.hasType_literal,
      ColumnType.ofLiteral?_infinityText] at here
    cases here

theorem readHeader_cons {s : Schema} (h : s.Named) (rest : List Bytes) :
    readHeader (Bytes.ofText s.text :: rest) = .ok s := by
  have attributes : Query.readAttributes s.text = .ok s.attributes := by
    have each : ∀ a ∈ s.attributes, (True → Reads Query.columnDefinition Attribute.text a) ∧
        (¬ True → Refuses Query.columnDefinition Attribute.text a) :=
      fun a ha => ⟨fun _ => reads_attribute (h.2 a ha), fun bad => absurd trivial bad⟩
    exact (runOn_commaSeparated h.1 each).1 fun _ _ => trivial
  have decoded : decodeLine (Bytes.ofText s.text) = .ok s.text :=
    decodeLine_eq_ok.2 (Bytes.toText?_ofText s.text)
  unfold readHeader
  rw [List.head?_cons, Option.map_some, Option.getD_some, decoded]
  show (if Text.isBlankText s.text then _ else _) = _
  rw [h.ends.isBlankText, attributes]
  rfl

/-- A row is read back as its values, or not at all if one of them is infinite. -/
theorem readLiterals_text {r : Row} (h : r.Stored t.schema)
    (nonempty : t.schema.attributes ≠ []) :
    ((∀ v ∈ r.values, ¬ v.IsInfinite) → Query.readLiterals r.text = .ok r.values) ∧
      ((∃ v ∈ r.values, v.IsInfinite) → ∃ e, Query.readLiterals r.text = .error e) := by
  have each : ∀ v ∈ r.values, (¬ v.IsInfinite → Reads Query.literal Value.text v) ∧
      (¬ ¬ v.IsInfinite → Refuses Query.literal Value.text v) := by
    intro v hv
    obtain ⟨type, stored⟩ := h.mem hv
    exact reads_of_stored stored
  obtain ⟨read, refused⟩ := runOn_commaSeparated (h.values_ne_nil nonempty) each
  refine ⟨read, fun ⟨v, hv, infinite⟩ => refused ⟨v, hv, ?_⟩⟩
  exact fun finite => finite infinite

theorem insert_stored {r : Row} (h : r.Stored t.schema) (finite : ∀ v ∈ r.values, ¬ v.IsInfinite) :
    t.insert r.values = .ok ⟨t.schema, t.rows ++ [r]⟩ := by
  have accepted : t.schema.accept r.values = .ok r := by
    rw [Schema.accept_eq_ok]
    refine ⟨h.typed finite, ?_⟩
    rw [h.values_eq finite]
  rw [insert, accepted]
  rfl

theorem readRows_cons {s : String} (h : Text.isBlankText s = false) (rest : List Bytes) :
    t.readRows (Bytes.ofText s :: rest) =
      (Query.readLiterals s).mapError .malformed >>= fun values =>
        t.insert values >>= fun u => u.readRows rest := by
  have decoded : decodeLine (Bytes.ofText s) = .ok s :=
    decodeLine_eq_ok.2 (Bytes.toText?_ofText s)
  rw [readRows, decoded]
  show (if Text.isBlankText s then _ else _) = _
  rw [h]
  rfl

theorem readRows_error {s : String} {why : Malformation} (h : Text.isBlankText s = false)
    (refused : Query.readLiterals s = .error why) (rest : List Bytes) :
    t.readRows (Bytes.ofText s :: rest) = .error (.malformed why) := by
  rw [readRows_cons h, refused]
  rfl

/-- The rows are read back one by one, up to one with a value that a line cannot hold. -/
theorem readRows_rows (nonempty : t.schema.attributes ≠ []) {rows : List Row}
    (h : ∀ r ∈ rows, r.Stored t.schema) :
    ((∀ r ∈ rows, ∀ v ∈ r.values, v.Plain) →
      t.readRows (Bytes.linesAfter [] (rows.flatMap fun r => Bytes.ofText (r.text ++ "\n"))) =
        .ok ⟨t.schema, t.rows ++ rows⟩) ∧
    ((∃ r ∈ rows, ∃ v ∈ r.values, ¬ v.Plain) → ∃ e,
      t.readRows (Bytes.linesAfter [] (rows.flatMap fun r => Bytes.ofText (r.text ++ "\n"))) =
        .error e) := by
  induction rows generalizing t with
  | nil =>
    constructor
    · intro _
      rw [List.append_nil]
      rfl
    · rintro ⟨r, hr, -⟩
      cases hr
  | cons r rows ih =>
    have stored := h r List.mem_cons_self
    have visible := (stored.ends nonempty).isBlankText
    obtain ⟨read, refused⟩ := readLiterals_text stored nonempty
    rw [List.flatMap_cons]
    by_cases lineFeed : ∃ v ∈ r.values, '\n' ∈ v.text.toList
    · obtain ⟨line, more, cut, visible, unclosed⟩ := stored.cut lineFeed _
      rw [cut, readRows_error visible (Query.Rule.runOn_of_scan_error _ unclosed)]
      refine ⟨fun plain => ?_, fun _ => ⟨_, rfl⟩⟩
      obtain ⟨v, hv, inside⟩ := lineFeed
      exact absurd inside (plain r List.mem_cons_self v hv).1
    have noLineFeed : ∀ v ∈ r.values, '\n' ∉ v.text.toList :=
      fun v hv inside => lineFeed ⟨v, hv, inside⟩
    rw [Bytes.linesAfter_ofText (stored.isLine nonempty noLineFeed)]
    by_cases infinite : ∃ v ∈ r.values, v.IsInfinite
    · obtain ⟨e, he⟩ := refused infinite
      rw [readRows_error visible he]
      refine ⟨fun plain => ?_, fun _ => ⟨_, rfl⟩⟩
      obtain ⟨v, hv, infinite⟩ := infinite
      exact absurd infinite (plain r List.mem_cons_self v hv).2
    have finite : ∀ v ∈ r.values, ¬ v.IsInfinite := fun v hv bad => infinite ⟨v, hv, bad⟩
    obtain ⟨allPlain, notAll⟩ := ih (t := ⟨t.schema, t.rows ++ [r]⟩) nonempty
      fun q hq => h q (List.mem_cons_of_mem r hq)
    rw [readRows_cons visible, read finite]
    show (_ → (t.insert r.values >>= _) = _) ∧ (_ → ∃ e, (t.insert r.values >>= _) = _)
    rw [insert_stored stored finite]
    constructor
    · intro plain
      show readRows ⟨t.schema, t.rows ++ [r]⟩ _ = _
      rw [allPlain fun q hq => plain q (List.mem_cons_of_mem r hq), List.append_assoc]
      rfl
    · rintro ⟨q, hq, v, hv, bad⟩
      rcases List.mem_cons.1 hq with rfl | hq
      · exact absurd ⟨noLineFeed v hv, finite v hv⟩ bad
      · exact notAll ⟨q, hq, v, hv, bad⟩

/-- What a stored table is read back as: itself, or nothing if lines cannot hold its cells. -/
theorem ofBytes_toBytes (h : t.Storable) :
    (t.Plain → ofBytes t.toBytes = .ok t) ∧ (¬ t.Plain → ∃ e, ofBytes t.toBytes = .error e) := by
  have read : ofBytes t.toBytes = (empty t.schema).readRows
      (Bytes.linesAfter [] (t.rows.flatMap fun r => Bytes.ofText (r.text ++ "\n"))) := by
    unfold ofBytes ofLines toBytes text lines Bytes.lines
    rw [Bytes.ofText_intercalate, Bytes.linesAfter_ofText h.named.isLine, readHeader_cons h.named,
      List.flatMap_map]
    rfl
  obtain ⟨allPlain, notAll⟩ :=
    readRows_rows (t := empty t.schema) h.named.1 h.cells
  rw [read]
  refine ⟨allPlain, fun bad => notAll ?_⟩
  simpa [Plain] using bad

end Table

namespace Database

variable {σ : Type} {db : Database} {name : String} {t : Table}

theorem run_load (store : FileStore σ) (files : σ) (storable : t.Storable)
    (bound : db.catalog.get? name = some t)
    (found : store.read files (db.directory.tablePath name) = .ok t.toBytes) :
    (t.Plain → (db.load name).run store files = (.ok "", db, files)) ∧
      (¬ t.Plain → ∃ e, (db.load name).run store files = (.error e, db, files)) := by
  obtain ⟨plain, notPlain⟩ := Table.ofBytes_toBytes storable
  simp only [load, Step.run, found]
  constructor
  · intro h
    simp [plain h, changed, Except.mapError, bind, Except.bind, pure, Except.pure,
      register_of_bound bound]
  · intro h
    obtain ⟨e, he⟩ := notPlain h
    exact ⟨.inFile (db.directory.tablePath name) e, by
      simp [he, changed, Except.mapError, bind, Except.bind]⟩

/-- In any run a table that is stored is loaded as it was, and all bindings stay, if lines can hold
its cells. Otherwise loading fails, and the bindings stay as well. What is asked of the files is
that a path reads what has been written to it. -/
theorem run_store_load {store : FileStore σ}
    (readBack : ∀ files path content after,
      store.write files path content = .ok after → store.read after path = .ok content)
    (directory : DataDirectory) (es : List Event) (files : σ) {storing loading output : String}
    (hs : Statement.ofText storing = .ok (.store name))
    (hl : Statement.ofText loading = .ok (.load name))
    (bound : ((fresh directory).run es).catalog.get? name = some t)
    {stored : Answer × Database × σ}
    (hstored : (((fresh directory).run es).execute storing).run store files = stored)
    (succeeds : stored.1 = .ok output) :
    (t.Plain → (stored.2.1.execute loading).run store stored.2.2 =
      (.ok "", (fresh directory).run es, stored.2.2)) ∧
    (¬ t.Plain → ∃ e, (stored.2.1.execute loading).run store stored.2.2 =
      (.error e, (fresh directory).run es, stored.2.2)) := by
  have storable := storable_run directory es name t bound
  generalize (fresh directory).run es = db at bound hstored storable ⊢
  have performed : db.execute storing = db.perform (.store name) := by
    rw [execute, hs]
  rw [performed] at hstored
  rcases run_store_cases store files db name with ⟨e, he⟩ | ⟨after, hrun, u, hu, hwrite⟩
  · rw [he] at hstored
    subst hstored
    cases succeeds
  · rw [hrun] at hstored
    subst hstored
    obtain rfl : u = t := Option.some.inj (hu.symm.trans bound)
    have loads : db.execute loading = db.load name := by
      rw [execute, hl]
      rfl
    dsimp only
    rw [loads]
    exact run_load store after storable bound (readBack _ _ _ _ hwrite)

theorem run_store_load_of_one_row :
    let db := (fresh {}).run [⟨"create table t (s string);", .ok [], .ok ()⟩,
      ⟨"insert into t values ('a, b\r');", .ok [], .ok ()⟩]
    let stored := (db.execute "store t;").run FileTree.store .empty
    (stored.2.1.execute "load t;").run FileTree.store stored.2.2 = (.ok "", db, stored.2.2) := by
  have storing : Statement.ofText "store t;" = .ok (.store "t") := by decide +kernel
  have loading : Statement.ofText "load t;" = .ok (.load "t") := by decide +kernel
  have bound : ((fresh {}).run [⟨"create table t (s string);", .ok [], .ok ()⟩,
      ⟨"insert into t values ('a, b\r');", .ok [], .ok ()⟩]).catalog.get? "t" =
      some ⟨⟨[⟨"s", .string⟩]⟩, [⟨[.literal "'a, b\r'"]⟩]⟩ := by decide +kernel
  have readBack (files : FileTree) (path : String) (content : Bytes) (after : FileTree)
      (h : FileTree.store.write files path content = .ok after) :
      FileTree.store.read after path = .ok content := FileTree.lawful_store.read_write h
  exact (run_store_load readBack {} _ .empty storing loading bound rfl
    (show _ = Except.ok "" by decide +kernel)).1 (by decide +kernel)

/-- A string with a line feed is stored, but it is not loaded again. -/
theorem not_loaded_of_line_feed :
    let db := (fresh {}).run [⟨"create table t (s string);", .ok [], .ok ()⟩,
      ⟨"insert into t values ('a\nb');", .ok [], .ok ()⟩]
    let stored := (db.execute "store t;").run FileTree.store .empty
    stored.1 = .ok "" ∧ ((stored.2.1.execute "load t;").run FileTree.store stored.2.2).1 =
      .error (.inFile "./t.tbl" (.malformed .unterminatedString)) := by
  decide +kernel

end Database
end Relational
