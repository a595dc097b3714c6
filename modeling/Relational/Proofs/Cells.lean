import Relational.Proofs.Columns
import Relational.Proofs.Results
import Relational.Table.Evaluate
import Relational.Table.Join

/-!
# What holds of the cells of a table

Every operation on tables takes its cells from the tables that it is given, from the values of an
inserted row or from computed expressions. So a property of cells and their types is known of its
result once it is known of these. A table fits its schema if each row has one cell for every column,
whatever the cells are.
-/
namespace Relational

variable {P Q : ColumnType → Value → Prop} {t u : Table}

theorem Row.read_eq_ok {r : Row} {i : Nat} {v : Value} :
    r.read i = .ok v ↔ r.values[i]? = some v := by
  unfold read get?
  cases r.values[i]? <;> simp

/-- Every row has one value for each column, and `P` holds of the column's type and the value. -/
def Table.Cells (P : ColumnType → Value → Prop) (t : Table) : Prop :=
  ∀ r ∈ t.rows, List.Forall₂ (fun (a : Attribute) v => P a.type v) t.schema.attributes r.values

/-- Every row has as many values as there are columns. -/
def Table.Fits (t : Table) : Prop := ∀ r ∈ t.rows, r.length = t.schema.length

namespace Table

theorem Cells.mono (h : t.Cells P) (implies : ∀ type v, P type v → Q type v) : t.Cells Q :=
  fun r hr => (h r hr).imp fun a _ hv => implies a.type _ hv

theorem Cells.fits (h : t.Cells P) : t.Fits := fun r hr => (h r hr).length_eq.symm

theorem fits_iff_cells : t.Fits ↔ t.Cells fun _ _ => True := by
  constructor
  · intro h r hr
    rw [List.forall₂_iff_get]
    exact ⟨(h r hr).symm, fun _ _ _ => trivial⟩
  · exact Cells.fits

theorem cells_empty (s : Schema) : (empty s).Cells P := fun _ hr => nomatch hr

theorem Cells.of_subset (h : t.Cells P) (schema : u.schema = t.schema)
    (rows : ∀ r ∈ u.rows, r ∈ t.rows) : u.Cells P := by
  intro r hr
  rw [schema]
  exact h r (rows r hr)

end Table

theorem Attribute.accept_eq_ok {a : Attribute} {v w : Value} :
    a.accept v = .ok w ↔ v.HasType a.type ∧ w = v.normalized a.type := by
  unfold accept Value.columnType
  cases v with
  | noValue => simp [eq_comm]
  | literal s =>
    simp only [Value.hasType_literal]
    cases ColumnType.ofLiteral? s with
    | none => simp
    | some type => by_cases h : type = a.type <;> simp [h, eq_comm]

namespace Schema

def stored (as : List Attribute) (vs : List Value) : List Value :=
  List.zipWith (fun a v => v.normalized a.type) as vs

theorem acceptAll_eq_ok {as : List Attribute} {vs ws : List Value}
    (length : vs.length = as.length) :
    acceptAll as vs = .ok ws ↔
      List.Forall₂ (fun (a : Attribute) (v : Value) => v.HasType a.type) as vs ∧
        ws = stored as vs := by
  induction as generalizing vs ws with
  | nil =>
    cases vs with
    | nil => simp [acceptAll, stored, eq_comm]
    | cons v vs => simp at length
  | cons a as ih =>
    cases vs with
    | nil => simp at length
    | cons v vs =>
      have length : vs.length = as.length := by simpa using length
      rw [acceptAll, bind_eq_ok]
      constructor
      · rintro ⟨w, hw, h⟩
        obtain ⟨hv, rfl⟩ := Attribute.accept_eq_ok.1 hw
        obtain ⟨rest, hrest, h⟩ := bind_eq_ok.1 h
        obtain ⟨hvs, rfl⟩ := (ih length).1 hrest
        cases h
        exact ⟨.cons hv hvs, rfl⟩
      · rintro ⟨h, rfl⟩
        cases h with
        | cons hv hvs =>
          refine ⟨_, Attribute.accept_eq_ok.2 ⟨hv, rfl⟩, ?_⟩
          exact bind_eq_ok.2 ⟨_, (ih length).2 ⟨hvs, rfl⟩, rfl⟩

theorem accept_eq_ok {s : Schema} {values : List Value} {r : Row} :
    s.accept values = .ok r ↔
      List.Forall₂ (fun (a : Attribute) (v : Value) => v.HasType a.type) s.attributes values ∧
        r = ⟨stored s.attributes values⟩ := by
  unfold accept
  split
  · next length =>
    rw [map_eq_ok]
    constructor
    · rintro ⟨ws, hws, rfl⟩
      obtain ⟨typed, rfl⟩ := (acceptAll_eq_ok length).1 hws
      exact ⟨typed, rfl⟩
    · rintro ⟨typed, rfl⟩
      exact ⟨_, (acceptAll_eq_ok length).2 ⟨typed, rfl⟩, rfl⟩
  · next length =>
    constructor
    · intro h
      cases h
    · rintro ⟨typed, -⟩
      exact absurd typed.length_eq.symm length

theorem forall₂_unshared {R : Attribute → Value → Prop} (s : Schema) {as : List Attribute}
    {vs : List Value} (h : List.Forall₂ R as vs) :
    List.Forall₂ R (s.unshared ⟨as⟩ as) (s.unshared ⟨as⟩ vs) := by
  unfold unshared
  induction h with
  | nil => exact .nil
  | @cons a v as vs hav _ ih =>
    rw [List.zip_cons_cons, List.zip_cons_cons, List.filter_cons, List.filter_cons]
    cases s.names.contains a.name with
    | true => exact ih
    | false => exact .cons hav ih

end Schema

namespace Table

theorem Cells.insert {values : List Value} (h : t.Cells P) (hu : t.insert values = .ok u)
    (new : ∀ v ∈ values, ∀ type, v.HasType type → P type (v.normalized type)) : u.Cells P := by
  obtain ⟨r, hr, rfl⟩ := insert_eq_ok hu
  obtain ⟨typed, rfl⟩ := Schema.accept_eq_ok.1 hr
  have stored : ∀ {as : List Attribute} {vs : List Value}, (∀ v ∈ vs, v ∈ values) →
      List.Forall₂ (fun (a : Attribute) (v : Value) => v.HasType a.type) as vs →
      List.Forall₂ (fun (a : Attribute) v => P a.type v) as (Schema.stored as vs) := by
    intro as vs hvs typed
    induction typed with
    | nil => exact .nil
    | @cons a v as vs hav _ ih =>
      refine .cons (new v (hvs v List.mem_cons_self) a.type hav) ?_
      exact ih fun w hw => hvs w (List.mem_cons_of_mem v hw)
  intro q hq
  rcases List.mem_append.1 hq with hq | hq
  · exact h q hq
  · rw [List.mem_singleton.1 hq]
    exact stored (fun _ hv => hv) typed

theorem Cells.merge (ht : t.Cells P) (hu : u.Cells P) : (t.merge u).Cells P := by
  intro x hx
  obtain ⟨r, hr, hx⟩ := List.mem_flatMap.1 hx
  obtain ⟨q, hq, rfl⟩ := List.mem_map.1 hx
  have other := hu q (List.mem_of_mem_filter hq)
  exact List.rel_append (ht r hr) (Schema.forall₂_unshared t.schema other)

theorem Cells.mergeAll {ts : List Table} (h : ∀ t ∈ ts, t.Cells P) (hu : mergeAll? ts = some u) :
    u.Cells P := by
  have fold : ∀ {ts : List Table} {t : Table}, t.Cells P → (∀ t ∈ ts, t.Cells P) →
      (ts.foldl Table.merge t).Cells P := by
    intro ts
    induction ts with
    | nil => exact fun ht _ => ht
    | cons x xs ih =>
      intro t ht hts
      exact ih (ht.merge (hts x List.mem_cons_self)) fun t h => hts t (List.mem_cons_of_mem x h)
  cases ts with
  | nil => cases hu
  | cons t ts =>
    cases hu
    exact fold (h t List.mem_cons_self) fun t ht => h t (List.mem_cons_of_mem _ ht)

theorem filter_eq_ok {c? : Option Condition} (h : t.filter c? = .ok u) :
    u.schema = t.schema ∧ u.rows.Sublist t.rows := by
  cases c? with
  | none =>
    cases h
    exact ⟨rfl, List.Sublist.refl _⟩
  | some c =>
    obtain ⟨selected, -, h⟩ := bind_eq_ok.1 h
    cases h
    refine ⟨rfl, ?_⟩
    have kept : ∀ (rows : List Row) (mask : List Bool),
        (((rows.zip mask).filter Prod.snd).map Prod.fst).Sublist rows := by
      intro rows mask
      induction rows generalizing mask with
      | nil => exact List.Sublist.refl _
      | cons r rows ih =>
        match mask with
        | [] => exact List.nil_sublist _
        | true :: mask => exact (ih mask).cons_cons r
        | false :: mask => exact (ih mask).cons r
    exact kept t.rows selected

theorem Cells.filter {c? : Option Condition} (h : t.Cells P) (hu : t.filter c? = .ok u) :
    u.Cells P := by
  obtain ⟨schema, rows⟩ := filter_eq_ok hu
  exact h.of_subset schema fun r hr => rows.subset hr

theorem gather_eq_ok {rows : List Row} {value : Row → Except Error Value} {c d : Column}
    (aligned : c.Aligned) (h : gather rows value c = .ok d) :
    d.Aligned ∧ d.toAttribute = c.toAttribute ∧ ∃ vs, d.toList = c.toList ++ vs ∧
      List.Forall₂ (fun r (v : Value) => value r = .ok v ∧ v.HasType c.type) rows vs := by
  unfold gather at h
  induction rows generalizing c with
  | nil =>
    cases h
    exact ⟨aligned, rfl, [], by simp, .nil⟩
  | cons r rows ih =>
    obtain ⟨e, he, h⟩ := foldlM_cons_eq_ok.1 h
    obtain ⟨v, hv, hpush⟩ := bind_eq_ok.1 he
    obtain ⟨typed, rfl⟩ := Column.push_eq_ok hpush
    obtain ⟨hd, same, vs, hvs, pairs⟩ := ih (aligned.appended v) h
    refine ⟨hd, same, v :: vs, ?_, .cons ⟨hv, typed⟩ pairs⟩
    rw [hvs, aligned.toList_appended, List.append_assoc, List.singleton_append]

end Table

/-- A column with one cell for each of so many rows, all of which have the property. -/
structure Column.Spans (rowCount : Nat) (Q : ColumnType → Value → Prop) (c : Column) : Prop where
  aligned : c.Aligned
  length : c.toList.length = rowCount
  cells : ∀ v ∈ c.toList, Q c.type v

namespace Table

theorem spans_of_gather {rows : List Row} {value : Row → Except Error Value} {name : String}
    {type : ColumnType} {c : Column} (h : gather rows value (Column.empty name type) = .ok c)
    (cells : ∀ r ∈ rows, ∀ v : Value, value r = .ok v → v.HasType type → Q type v) :
    c.Spans rows.length Q ∧ c.toAttribute = ⟨name, type⟩ := by
  obtain ⟨aligned, same, vs, hvs, pairs⟩ := gather_eq_ok (Column.aligned_empty name type) h
  have list : c.toList = vs := by simpa using hvs
  have sameType : c.type = type := congrArg Attribute.type same
  refine ⟨⟨aligned, ?_, ?_⟩, same⟩
  · rw [list, pairs.length_eq]
  · intro v hv
    rw [list] at hv
    obtain ⟨r, hr, value, typed⟩ := exists_of_mem_right pairs hv
    rw [sameType]
    exact cells r hr v value typed

theorem Cells.read {i : Nat} {a : Attribute} {r : Row} {v : Value} (h : t.Cells P)
    (ha : t.schema.attributes[i]? = some a) (hr : r ∈ t.rows) (hv : r.read i = .ok v) :
    P a.type v := by
  obtain ⟨hi, hv⟩ := List.getElem?_eq_some_iff.1 (Row.read_eq_ok.1 hv)
  obtain ⟨hj, ha⟩ := List.getElem?_eq_some_iff.1 ha
  have here := (h r hr).get hj hi
  simpa [ha, hv] using here

theorem Cells.exists_read {i : Nat} {a : Attribute} {r : Row} (h : t.Cells P)
    (ha : t.schema.attributes[i]? = some a) (hr : r ∈ t.rows) :
    ∃ v, r.read i = .ok v ∧ P a.type v := by
  have bound : i < r.length := (h.fits r hr).symm ▸ (List.getElem?_eq_some_iff.1 ha).1
  have found := Row.read_of_lt bound
  exact ⟨_, found, h.read ha hr found⟩

end Table

theorem Schema.resolve_eq_ok {s : Schema} {name : String} {i : Nat} {type : ColumnType}
    (h : s.resolve name = .ok (i, type)) :
    ∃ a, s.attributes[i]? = some a ∧ a.name = name ∧ a.type = type := by
  unfold resolve at h
  split at h
  · cases h
  · next j hj =>
    split at h
    · cases h
    · next a ha =>
      cases h
      rw [position?, List.findIdx?_eq_some_iff_getElem] at hj
      obtain ⟨bound, named, -⟩ := hj
      obtain ⟨_, same⟩ := List.getElem?_eq_some_iff.1 ha
      exact ⟨a, ha, by simpa [same] using named, rfl⟩

namespace Table

theorem copyColumn_eq_ok {i : Nat} {a b : Attribute} {c : Column} (h : t.Cells P)
    (hb : t.schema.attributes[i]? = some b) (type : a.type = b.type)
    (copied : ∀ type (v : Value), P type v → v.HasType type → Q type v)
    (hc : t.copyColumn i a = .ok c) : c.Spans t.rowCount Q ∧ c.toAttribute = a := by
  apply spans_of_gather hc
  intro r hr v hv typed
  refine copied a.type v ?_ typed
  rw [type]
  exact h.read hb hr hv

/-- What is known of the columns that the entries of a select list make. Copied cells keep what
holds of the table's own; of computed ones it has to be shown. -/
theorem projectOne_spans {p : Projection} {cs : List Column} (h : t.Cells P)
    (copied : ∀ type (v : Value), P type v → v.HasType type → Q type v)
    (computed : ∀ e alias?, p = .expr e alias? →
      ∀ f type, Formula.ofExpr t.schema e = .ok (f, some type) →
      ∀ r ∈ t.rows, ∀ s, f.eval r = .ok s → s.value.HasType type → Q type s.value)
    (hcs : t.projectOne p = .ok cs) : ∀ c ∈ cs, c.Spans t.rowCount Q := by
  unfold projectOne at hcs
  split at hcs
  · intro c hc
    obtain ⟨⟨a, i⟩, ha, made⟩ := exists_of_mem_right (mapM_eq_ok.1 hcs) hc
    have found := List.mk_mem_zipIdx_iff_getElem?.1 ha
    exact (copyColumn_eq_ok h found rfl copied made).1
  · next name alias? =>
    obtain ⟨⟨i, type⟩, hi, hcs⟩ := bind_eq_ok.1 hcs
    obtain ⟨c, hc, hcs⟩ := bind_eq_ok.1 hcs
    obtain ⟨a, ha, -, same⟩ := Schema.resolve_eq_ok hi
    cases hcs
    intro d hd
    rw [List.mem_singleton.1 hd]
    exact (copyColumn_eq_ok h ha same.symm copied hc).1
  · next e name _ =>
    obtain ⟨c, hc, hcs⟩ := bind_eq_ok.1 hcs
    cases hcs
    intro d hd
    rw [List.mem_singleton.1 hd]
    obtain ⟨⟨f, type?⟩, hf, hc⟩ := bind_eq_ok.1 hc
    cases type? with
    | none => cases hc
    | some type =>
      refine (spans_of_gather hc ?_).1
      intro r hr v hv typed
      obtain ⟨s, hs, rfl⟩ := map_eq_ok.1 hv
      exact computed e (some name) rfl f type hf r hr s hs typed
  · cases hcs

theorem rowAcross_cells {columns : List Column} {n i : Nat} {r : Row}
    (spans : ∀ c ∈ columns, c.Spans n Q) (h : rowAcross columns i = .ok r) :
    List.Forall₂ (fun (a : Attribute) v => Q a.type v) (columns.map Column.toAttribute)
      r.values := by
  obtain ⟨vs, hvs, rfl⟩ := map_eq_ok.1 h
  have pairs := mapM_eq_ok.1 hvs
  rw [List.forall₂_map_left_iff]
  clear h hvs
  induction pairs with
  | nil => exact .nil
  | @cons c v cs vs hv _ ih =>
    refine .cons ?_ (ih fun c hc => spans c (List.mem_cons_of_mem _ hc))
    have here := spans c List.mem_cons_self
    rw [here.aligned.read_eq] at hv
    split at hv
    · next w hw =>
      cases hv
      exact here.cells _ (List.mem_of_getElem? hw)
    · cases hv

/-- What the entries of a select list compute on any table whose cells have `P` has `Q`. -/
def Computes (P Q : ColumnType → Value → Prop) (ps : List Projection) : Prop :=
  ∀ w : Table, w.Cells P → ∀ e alias?, .expr e alias? ∈ ps →
    ∀ f type, Formula.ofExpr w.schema e = .ok (f, some type) →
    ∀ r ∈ w.rows, ∀ s, f.eval r = .ok s → s.value.HasType type → Q type s.value

theorem computes_true (ps : List Projection) : Computes P (fun _ _ => True) ps :=
  fun _ _ _ _ _ _ _ _ _ _ _ _ _ => trivial

/-- The columns of all entries of a select list have one cell for each row. -/
theorem columns_span {ps : List Projection} {columns : List (List Column)} (h : t.Cells P)
    (copied : ∀ type (v : Value), P type v → v.HasType type → Q type v) (computed : Computes P Q ps)
    (hcolumns : ps.mapM t.projectOne = .ok columns) :
    ∀ c ∈ columns.flatten, c.Spans t.rowCount Q := by
  intro c hc
  obtain ⟨cs, hcs, hc⟩ := List.mem_flatten.1 hc
  obtain ⟨p, hp, made⟩ := exists_of_mem_right (mapM_eq_ok.1 hcolumns) hcs
  refine projectOne_spans h copied ?_ made c hc
  intro e alias? he
  exact computed t h e alias? (he ▸ hp)

theorem Cells.project {ps : List Projection} (h : t.Cells P)
    (copied : ∀ type (v : Value), P type v → v.HasType type → Q type v) (computed : Computes P Q ps)
    (hu : t.project ps = .ok u) : u.Cells Q ∧ u.rowCount = t.rowCount := by
  obtain ⟨columns, hcolumns, hu⟩ := bind_eq_ok.1 hu
  obtain ⟨rows, hrows, hu⟩ := bind_eq_ok.1 hu
  cases hu
  have pairs := mapM_eq_ok.1 hrows
  have spans := columns_span h copied computed hcolumns
  constructor
  · intro r hr
    obtain ⟨i, -, across⟩ := exists_of_mem_right pairs hr
    exact rowAcross_cells spans across
  · simpa [rowCount] using pairs.length_eq.symm

theorem Cells.select {ps : List Projection} {c? : Option Condition} (h : t.Cells P)
    (copied : ∀ type (v : Value), P type v → v.HasType type → Q type v) (computed : Computes P Q ps)
    (hu : t.select ps c? = .ok u) : u.Cells Q := by
  obtain ⟨w, hw, hu⟩ := bind_eq_ok.1 hu
  have cells := h.filter hw
  exact (cells.project copied computed hu).1

/-- However many conditions there are, the last step is a projection. -/
theorem Cells.evaluate {ps : List Projection} {cs : List Condition} (h : t.Cells P)
    (copied : ∀ type (v : Value), P type v → v.HasType type → Q type v) (computed : Computes P Q ps)
    (weaken : ∀ type v, Q type v → P type v) (hu : t.evaluate ps cs = .ok u) : u.Cells Q := by
  cases cs with
  | nil => exact h.select copied computed hu
  | cons c cs =>
    obtain ⟨w, hw, hu⟩ := bind_eq_ok.1 hu
    refine foldlM_preserves ?_ (h.select copied computed hw) hu
    intro x hx d _ y hy
    exact (hx.mono weaken).select copied computed hy

end Table
end Relational
