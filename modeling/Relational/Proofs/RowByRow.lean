import Relational.Proofs.Cells

/-!
# Projecting row by row

A projection is computed one column after the other, and the columns are put side by side into rows
again. What comes out could as well be found row by row, each output row from its input row alone. The
errors tell the difference: a fault in an earlier column is found before a fault in an earlier row.
That is why a star is the same as naming all columns one by one, in errors too, and is not one item
that is evaluated on whole rows.
-/
namespace Relational

inductive Output.Source where
  | copied (position : Nat)
  | computed (formula : Formula)
deriving DecidableEq

/-- One column of what a projection gives. -/
structure Output where
  header : Attribute
  source : Output.Source
deriving DecidableEq

namespace Output

def Source.value (r : Row) : Source → Except Error Value
  | .copied i => r.read i
  | .computed formula => (formula.eval r).map Scalar.value

/-- The value of the column for one row, which has to fit the column. -/
def cell (o : Output) (r : Row) : Except Error Value := do
  let v ← o.source.value r
  if v.HasType o.header.type then return v
  else throw (.typeConflict (.misfit v.text o.header.name o.header.type))

/-- The output row that is found from an input row alone. -/
def row (outs : List Output) (r : Row) : Except Error Row :=
  (outs.mapM fun o : Output => o.cell r).map Row.mk

theorem row_eq_ok {outs : List Output} {r q : Row} :
    row outs r = .ok q ↔ List.Forall₂ (fun o v => o.cell r = .ok v) outs q.values := by
  rw [row, map_eq_ok]
  constructor
  · rintro ⟨vs, found, rfl⟩
    exact mapM_eq_ok.1 found
  · exact fun h => ⟨q.values, mapM_eq_ok.2 h, rfl⟩

theorem exists_rows_iff {outs : List Output} {rows : List Row} :
    (∃ qs, rows.mapM (row outs) = .ok qs) ↔ ∀ o ∈ outs, ∀ r ∈ rows, ∃ v, o.cell r = .ok v := by
  have each : ∀ r, (∃ q, row outs r = .ok q) ↔ ∀ o ∈ outs, ∃ v, o.cell r = .ok v := by
    intro r
    simp only [row, map_eq_ok, ← exists_mapM_iff]
    exact ⟨fun ⟨_, vs, found, _⟩ => ⟨vs, found⟩, fun ⟨vs, found⟩ => ⟨⟨vs⟩, vs, found, rfl⟩⟩
  simp only [exists_mapM_iff, each]
  exact ⟨fun h o ho r hr => h r hr o ho, fun h r hr o ho => h o ho r hr⟩

def ofName (s : Schema) (name : String) (alias? : Option String) : Except Error Output := do
  let (i, type) ← s.resolve name
  return ⟨⟨alias?.getD name, type⟩, .copied i⟩

def ofExpr (s : Schema) (e : Expr) (name : String) : Except Error Output := do
  let (formula, type?) ← Formula.ofExpr s e
  match type? with
  | none => throw (.typeConflict (.untyped e))
  | some type => return ⟨⟨name, type⟩, .computed formula⟩

end Output

/-- The columns of an entry of a select list, each of them resolved by itself. A star is all columns
of the schema in their order. -/
def Projection.outputs (s : Schema) : Projection → List (Except Error Output)
  | .star => s.attributes.zipIdx.map fun (a, i) => .ok ⟨a, .copied i⟩
  | .expr (.column name) alias? => [Output.ofName s name alias?]
  | .expr e (some name) => [Output.ofExpr s e name]
  | .expr e none => [.error (.malformed (.aliasRequired e))]

namespace Output

def column (o : Output) (vs : List Value) : Column :=
  vs.foldl Column.appended (Column.empty o.header.name o.header.type)

theorem aligned_column (o : Output) (vs : List Value) : (o.column vs).Aligned :=
  (Column.aligned_empty _ _).foldl_appended vs

theorem toAttribute_column (o : Output) (vs : List Value) :
    (o.column vs).toAttribute = o.header :=
  Column.toAttribute_foldl_appended _ vs

theorem toList_column (o : Output) (vs : List Value) : (o.column vs).toList = vs :=
  (Column.aligned_empty _ _).toList_foldl_appended vs

end Output

namespace Table

variable {t : Table} {o : Output} {c : Column}

theorem push_cell (same : c.toAttribute = o.header) (r : Row) :
    (do c.push (← o.source.value r)) = (o.cell r).map c.appended := by
  have name : o.header.name = c.name := by rw [← same]; rfl
  have type : o.header.type = c.type := by rw [← same]; rfl
  rw [Output.cell, name, type]
  cases o.source.value r with
  | error e => rfl
  | ok v =>
    show c.push v = Except.map c.appended (if _ then _ else _)
    rw [Column.push_eq]
    split <;> rfl

/-- Gathering a column is finding its cells and putting them under its header. -/
theorem gather_eq (same : c.toAttribute = o.header) (rows : List Row) :
    gather rows (fun r => o.source.value r) c =
      (rows.mapM o.cell).map fun vs => vs.foldl Column.appended c := by
  induction rows generalizing c with
  | nil => rfl
  | cons r rows ih =>
    rw [gather, List.foldlM_cons, push_cell same, List.mapM_cons]
    cases o.cell r with
    | error e => rfl
    | ok v =>
      show gather rows _ (c.appended v) = _
      rw [ih (c := c.appended v) same]
      cases rows.mapM o.cell <;> rfl

/-- The column of an output, computed from the top to the bottom. -/
def columnOf (t : Table) (o : Output) : Except Error Column := (t.rows.mapM o.cell).map o.column

theorem copyColumn_eq (t : Table) (i : Nat) (a : Attribute) :
    t.copyColumn i a = t.columnOf ⟨a, .copied i⟩ :=
  gather_eq (o := ⟨a, .copied i⟩) rfl t.rows

theorem compute_eq (t : Table) (e : Expr) (name : String) :
    t.compute e name = Output.ofExpr t.schema e name >>= t.columnOf := by
  unfold compute Output.ofExpr
  cases Formula.ofExpr t.schema e with
  | error e => rfl
  | ok found =>
    obtain ⟨formula, type?⟩ := found
    cases type? with
    | none => rfl
    | some type => exact gather_eq (o := ⟨⟨name, type⟩, .computed formula⟩) rfl t.rows

theorem copyColumn_resolved (t : Table) (name : String) (alias? : Option String) :
    (do let (i, type) ← t.schema.resolve name
        t.copyColumn i ⟨alias?.getD name, type⟩) =
      Output.ofName t.schema name alias? >>= t.columnOf := by
  unfold Output.ofName
  cases t.schema.resolve name with
  | error e => rfl
  | ok found => exact copyColumn_eq t found.1 _

theorem projectOne_eq (t : Table) (p : Projection) :
    t.projectOne p = (p.outputs t.schema).mapM fun x => x >>= t.columnOf := by
  cases p with
  | star =>
    rw [projectOne, Projection.outputs, List.mapM_map]
    exact mapM_congr fun x _ => copyColumn_eq t x.2 x.1
  | expr e alias? =>
    cases e with
    | column name =>
      rw [projectOne, Projection.outputs, List.mapM_cons, ← copyColumn_resolved]
      cases t.schema.resolve name <;> rfl
    | literal | binary =>
      cases alias? with
      | none => rfl
      | some name =>
        simp only [projectOne, Projection.outputs, List.mapM_cons, ← compute_eq]
        rfl

theorem project_eq (t : Table) (ps : List Projection) :
    t.project ps = do
      let columns ← (ps.flatMap (Projection.outputs t.schema)).mapM fun x => x >>= t.columnOf
      let rows ← (List.range t.rowCount).mapM (rowAcross columns)
      return ⟨⟨columns.map Column.toAttribute⟩, rows⟩ := by
  have each : ps.mapM t.projectOne =
      ps.mapM fun p => (p.outputs t.schema).mapM fun x => x >>= t.columnOf :=
    mapM_congr fun p _ => projectOne_eq t p
  rw [project, each, mapM_flatMap]
  cases ps.mapM fun p => (p.outputs t.schema).mapM fun x => x >>= t.columnOf <;> rfl

/-- The columns of outputs that all go well. -/
def Columns (t : Table) (outs : List Output) (columns : List Column) : Prop :=
  List.Forall₂ (fun o c => t.columnOf o = .ok c) outs columns

section Columns
variable {outs : List Output} {columns : List Column}

theorem exists_columnOf_iff : (∃ c, t.columnOf o = .ok c) ↔
    ∀ r ∈ t.rows, ∃ v, o.cell r = .ok v := by
  simp only [columnOf, map_eq_ok, ← exists_mapM_iff]
  exact ⟨fun ⟨_, vs, found, _⟩ => ⟨vs, found⟩, fun ⟨vs, found⟩ => ⟨_, vs, found, rfl⟩⟩

theorem exists_columns_iff : (∃ columns, t.Columns outs columns) ↔
    ∀ o ∈ outs, ∀ r ∈ t.rows, ∃ v, o.cell r = .ok v := by
  simp only [Columns, ← mapM_eq_ok, exists_mapM_iff, exists_columnOf_iff]

theorem columnOf_eq_ok {i : Nat} {r : Row} (h : t.columnOf o = .ok c) (hr : t.rows[i]? = some r) :
    c.read i = o.cell r := by
  obtain ⟨vs, found, rfl⟩ := map_eq_ok.1 h
  have pairs := mapM_eq_ok.1 found
  obtain ⟨bound, same⟩ := List.getElem?_eq_some_iff.1 hr
  have bound' : i < vs.length := pairs.length_eq ▸ bound
  have pair := pairs.get bound bound'
  rw [List.get_eq_getElem, same] at pair
  rw [(o.aligned_column vs).read_eq, o.toList_column, List.getElem?_eq_getElem bound', pair]
  rfl

theorem Columns.headers (h : t.Columns outs columns) :
    columns.map Column.toAttribute = outs.map Output.header := by
  have each : List.Forall₂ (fun a b => a = b) (columns.map Column.toAttribute)
      (outs.map Output.header) := by
    rw [List.forall₂_map_left_iff, List.forall₂_map_right_iff]
    refine h.flip.imp fun c o made => ?_
    obtain ⟨vs, -, rfl⟩ := map_eq_ok.1 made
    exact o.toAttribute_column vs
  rwa [List.forall₂_eq_eq_eq] at each

/-- The rows across the columns are those that are found row by row. -/
theorem Columns.rows (h : t.Columns outs columns) :
    (List.range t.rowCount).mapM (rowAcross columns) = t.rows.mapM (Output.row outs) := by
  refine mapM_eq_mapM (List.forall₂_iff_get.2 ⟨List.length_range, ?_⟩)
  intro i hi hi'
  have there : t.rows[i]? = some (t.rows.get ⟨i, hi'⟩) := List.getElem?_eq_getElem hi'
  have across : columns.mapM (Column.read · i) =
      outs.mapM fun o : Output => o.cell (t.rows.get ⟨i, hi'⟩) :=
    mapM_eq_mapM (h.flip.imp fun _ _ made => columnOf_eq_ok made there)
  rw [List.get_eq_getElem, List.getElem_range, rowAcross, across]
  rfl

end Columns

theorem project_eq_ok {u : Table} : t.project ps = .ok u ↔
    ∃ outs : List Output, ps.flatMap (Projection.outputs t.schema) = outs.map .ok ∧
      u.schema.attributes = outs.map Output.header ∧
      t.rows.mapM (Output.row outs) = .ok u.rows := by
  rw [project_eq, bind_eq_ok]
  constructor
  · rintro ⟨columns, made, h⟩
    obtain ⟨rows, across, h⟩ := bind_eq_ok.1 h
    cases h
    obtain ⟨outs, resolved, each⟩ := forall₂_bind_eq_ok.1 (mapM_eq_ok.1 made)
    have good : t.Columns outs columns := each
    exact ⟨outs, resolved, good.headers, good.rows ▸ across⟩
  · rintro ⟨outs, resolved, headers, found⟩
    obtain ⟨columns, good⟩ := exists_columns_iff.2 (Output.exists_rows_iff.1 ⟨u.rows, found⟩)
    refine ⟨columns, mapM_eq_ok.2 (forall₂_bind_eq_ok.2 ⟨outs, resolved, good⟩), ?_⟩
    refine bind_eq_ok.2 ⟨u.rows, good.rows.trans found, ?_⟩
    rw [good.headers, ← headers]
    rfl

/-- Once all columns are there, the rows across them are too. -/
theorem project_eq_error {e : Error} : t.project ps = .error e ↔
    ((ps.flatMap (Projection.outputs t.schema)).mapM fun x => x >>= t.columnOf) = .error e := by
  rw [project_eq, bind_eq_error]
  refine or_iff_left ?_
  rintro ⟨columns, made, h⟩
  obtain ⟨outs, -, each⟩ := forall₂_bind_eq_ok.1 (mapM_eq_ok.1 made)
  have good : t.Columns outs columns := each
  obtain ⟨qs, found⟩ := Output.exists_rows_iff.2 (exists_columns_iff.1 ⟨columns, good⟩)
  rw [good.rows, found] at h
  cases h

/-- Projecting is finding each row from its input row, under headers that are found from the schema.
It goes wrong at the first column that cannot be resolved or has a fault in some row, and what goes
wrong is then its resolution, or its first row that has a fault. -/
theorem project_row_by_row (t : Table) (ps : List Projection) :
    ((∃ u, t.project ps = .ok u) ↔
      ∃ outs : List Output, ps.flatMap (Projection.outputs t.schema) = outs.map .ok ∧
        ∀ o ∈ outs, ∀ r ∈ t.rows, ∃ v, o.cell r = .ok v) ∧
    (∀ u, t.project ps = .ok u ↔
      ∃ outs : List Output, ps.flatMap (Projection.outputs t.schema) = outs.map .ok ∧
        u.schema.attributes = outs.map Output.header ∧
        List.Forall₂ (fun r q => List.Forall₂ (fun o v => o.cell r = .ok v) outs q.values)
          t.rows u.rows) ∧
    ∀ e, t.project ps = .error e ↔
      FirstBad (fun x : Except Error Output => ∃ o, x = .ok o ∧ ∀ r ∈ t.rows, ∃ v, o.cell r = .ok v)
        (fun x => x = .error e ∨ ∃ o, x = .ok o ∧
          FirstBad (fun r => ∃ v, o.cell r = .ok v) (fun r => o.cell r = .error e) t.rows)
        (ps.flatMap (Projection.outputs t.schema)) := by
  refine ⟨?_, ?_, ?_⟩
  · simp only [project_eq_ok, ← Output.exists_rows_iff]
    constructor
    · rintro ⟨u, outs, resolved, -, found⟩
      exact ⟨outs, resolved, u.rows, found⟩
    · rintro ⟨outs, resolved, rows, found⟩
      exact ⟨⟨⟨outs.map Output.header⟩, rows⟩, outs, resolved, rfl, found⟩
  · intro u
    simp only [project_eq_ok, mapM_eq_ok, Output.row_eq_ok]
  · intro e
    have good : ∀ x : Except Error Output, (∃ c, (x >>= t.columnOf) = .ok c) ↔
        ∃ o, x = .ok o ∧ ∀ r ∈ t.rows, ∃ v, o.cell r = .ok v := by
      intro x
      simp only [bind_eq_ok, ← exists_columnOf_iff]
      exact ⟨fun ⟨c, o, ho, hc⟩ => ⟨o, ho, c, hc⟩, fun ⟨o, ho, c, hc⟩ => ⟨c, o, ho, hc⟩⟩
    simp only [project_eq_error, mapM_eq_error, good, bind_eq_error, columnOf, map_eq_error]

/-- A star does not go wrong at its first row that has a fault, if an earlier column has its fault
further down. -/
theorem not_project_by_first_row :
    ¬ ∀ (t : Table) (p : Projection) (outs : List Output) (e : Error), t.Fits →
      p.outputs t.schema = outs.map .ok →
      FirstBad (fun r => ∃ q, Output.row outs r = .ok q) (fun r => Output.row outs r = .error e)
        t.rows →
      t.project [p] = .error e := by
  intro whole
  let t : Table := ⟨⟨[⟨"x", .float⟩, ⟨"y", .float⟩]⟩,
    [⟨[.noValue, .literal "inf"]⟩, ⟨[.literal "inf", .noValue]⟩]⟩
  have fits : t.Fits := by unfold Table.Fits; decide
  have failed := whole t .star [⟨⟨"x", .float⟩, .copied 0⟩, ⟨⟨"y", .float⟩, .copied 1⟩]
    (.typeConflict (.misfit "inf" "y" .float)) fits rfl ⟨[], _, _, rfl, by simp, by decide +kernel⟩
  exact absurd failed (by decide +kernel)

end Table
end Relational
