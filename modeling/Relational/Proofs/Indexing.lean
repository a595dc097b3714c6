import Relational.Database
import Relational.Proofs.JoinByPosition

/-!
# Positions are there

The positions that filters and formulas read come from looking names up in the schema, so in a table
that fits its schema every row has a value there. The columns of a projection have one cell for each
row, so every row can be put together from them.
-/
namespace Relational

theorem Row.inRange_read {r : Row} {i : Nat} (h : i < r.length) : InRange (r.read i) :=
  .of_ok (Row.read_of_lt h)

theorem Schema.inRange_resolve (s : Schema) (name : String) : InRange (s.resolve name) := by
  unfold resolve
  split
  · exact inRange_error fun _ => nofun
  · next i hi =>
    rw [List.getElem?_eq_getElem (position?_lt hi)]
    exact inRange_ok _

theorem Schema.resolve_lt {s : Schema} {name : String} {i : Nat} {type : ColumnType}
    (h : s.resolve name = .ok (i, type)) : i < s.length := by
  obtain ⟨_, ha, -⟩ := resolve_eq_ok h
  exact (List.getElem?_eq_some_iff.1 ha).1

theorem Schema.exists_resolve {s : Schema} {name : String} (h : name ∈ s.names) :
    ∃ i type, s.resolve name = .ok (i, type) := by
  obtain ⟨a, ha, rfl⟩ := List.mem_map.1 h
  unfold resolve
  cases hi : s.position? a.name with
  | none =>
    have absent := List.findIdx?_eq_none_iff.1 hi a ha
    simp at absent
  | some i =>
    dsimp only
    rw [List.getElem?_eq_getElem (position?_lt hi)]
    exact ⟨_, _, rfl⟩

namespace Test

/-- The positions that a test reads are before position `n`. -/
structure Within (n : Nat) (test : Test) : Prop where
  left : test.left < n
  right : ∀ i, test.right = .column i → i < n

theorem inRange_resolve (s : Schema) (c : Condition) : InRange (resolve s c) := by
  have right : InRange (Operand.resolve s c.right) := by
    unfold Operand.resolve
    split
    · exact (s.inRange_resolve _).bind fun _ _ => inRange_ok _
    · exact inRange_ok _
    · exact inRange_error fun _ => nofun
  apply (s.inRange_resolve c.column).bind
  intro _ _
  apply right.bind
  intro _ _
  dsimp only
  split
  · exact inRange_ok _
  · exact inRange_error fun _ => nofun

theorem within_of_resolve {s : Schema} {c : Condition} {test : Test}
    (h : resolve s c = .ok test) : test.Within s.length := by
  obtain ⟨⟨left, leftType⟩, hleft, h⟩ := bind_eq_ok.1 h
  obtain ⟨⟨right, rightType?⟩, hright, h⟩ := bind_eq_ok.1 h
  have operand : ∀ i, right = .column i → i < s.length := by
    intro i hi
    unfold Operand.resolve at hright
    split at hright
    · obtain ⟨⟨position, type⟩, hposition, hright⟩ := bind_eq_ok.1 hright
      cases hright
      cases hi
      exact Schema.resolve_lt hposition
    · cases hright
      cases hi
    · cases hright
  dsimp only at h
  split at h
  · cases h
    exact ⟨Schema.resolve_lt hleft, operand⟩
  · cases h

theorem inRange_number (s : String) : InRange (number s) := by
  unfold number
  split
  · exact inRange_ok _
  · exact inRange_error fun _ => nofun

theorem Within.inRange_passes {n : Nat} {test : Test} {r : Row} (h : test.Within n)
    (hr : r.length = n) : InRange (test.passes r) := by
  have right : InRange (test.right.value r) := by
    cases hright : test.right with
    | column i => exact Row.inRange_read (hr.symm ▸ h.right i hright)
    | literal v => exact inRange_ok _
  apply (Row.inRange_read (hr.symm ▸ h.left)).bind
  intro v _
  apply right.bind
  intro w _
  unfold compares
  split
  · split
    · exact inRange_ok _
    · apply (inRange_number _).bind
      intro _ _
      apply (inRange_number _).bind
      exact fun _ _ => inRange_ok _
  · exact inRange_ok _

end Test

theorem Scalar.inRange_ofStored (type : ColumnType) (v : Value) : InRange (ofStored type v) := by
  unfold ofStored
  split
  · exact inRange_ok _
  · split
    · exact inRange_ok _
    · split
      · exact inRange_ok _
      · exact inRange_error fun _ => nofun
    · split
      · exact inRange_ok _
      · exact inRange_error fun _ => nofun

namespace Operation

theorem inRange_onIntegers (operation : Operation) (l r : Integer) :
    InRange (operation.onIntegers l r) := by
  unfold onIntegers
  split
  · exact inRange_error fun _ => nofun
  · split
    · exact inRange_ok _
    · exact inRange_error fun _ => nofun

theorem inRange_onFloats (operation : Operation) (l r : Binary64) :
    InRange (operation.onFloats l r) := by
  unfold onFloats
  split
  · exact inRange_error fun _ => nofun
  · split
    · exact inRange_ok _
    · exact inRange_error fun _ => nofun

theorem inRange_apply (operation : Operation) (type : ColumnType) (l r : Scalar) :
    InRange (operation.apply type l r) := by
  unfold apply
  split
  · exact inRange_ok _
  · split
    · split
      · exact inRange_ok _
      · exact inRange_error fun _ => nofun
    · split
      · exact (operation.inRange_onIntegers _ _).map _
      · exact inRange_error fun _ => nofun
    · split
      · exact (operation.inRange_onFloats _ _).map _
      · exact inRange_error fun _ => nofun

theorem inRange_resultType (operation : Operation) (l r : ColumnType) :
    InRange (operation.resultType l r) := by
  unfold resultType
  split
  · split
    · exact inRange_ok _
    · exact inRange_error fun _ => nofun
  · exact inRange_error fun _ => nofun
  · exact inRange_error fun _ => nofun
  · exact inRange_ok _
  · exact inRange_ok _

end Operation

namespace Formula

/-- The positions that a formula reads are before position `n`. -/
def Within (n : Nat) : Formula → Prop
  | .column position _ => position < n
  | .literal _ => True
  | .binary left _ right _ => left.Within n ∧ right.Within n

theorem inRange_ofExpr (s : Schema) (e : Expr) : InRange (ofExpr s e) := by
  induction e with
  | column name => exact (s.inRange_resolve name).bind fun _ _ => inRange_ok _
  | literal v => exact inRange_ok _
  | binary left operation right ihl ihr =>
    apply ihl.bind
    intro l _
    apply ihr.bind
    intro r _
    have type : InRange (binaryType? operation l.2 r.2) := by
      unfold binaryType?
      split
      · exact (operation.inRange_resultType _ _).map _
      · exact (operation.inRange_resultType _ _).map _
      · exact (operation.inRange_resultType _ _).map _
      · exact inRange_ok _
    exact type.bind fun _ _ => inRange_ok _

theorem within_of_ofExpr {s : Schema} {e : Expr} {f : Formula} {type? : Option ColumnType}
    (h : ofExpr s e = .ok (f, type?)) : f.Within s.length := by
  induction e generalizing f type? with
  | column name =>
    obtain ⟨⟨i, type⟩, hi, h⟩ := bind_eq_ok.1 h
    cases h
    exact Schema.resolve_lt hi
  | literal v =>
    cases h
    trivial
  | binary left operation right ihl ihr =>
    obtain ⟨⟨l, leftType?⟩, hl, h⟩ := bind_eq_ok.1 h
    obtain ⟨⟨r, rightType?⟩, hr, h⟩ := bind_eq_ok.1 h
    obtain ⟨_, _, h⟩ := bind_eq_ok.1 h
    cases h
    exact ⟨ihl hl, ihr hr⟩

theorem Within.inRange_eval {n : Nat} {f : Formula} {r : Row} (h : f.Within n) (hr : r.length = n) :
    InRange (f.eval r) := by
  induction f with
  | column i type =>
    apply (Row.inRange_read (hr.symm ▸ h)).bind
    exact fun v _ => Scalar.inRange_ofStored type v
  | literal s => exact inRange_ok s
  | binary left operation right type ihl ihr =>
    apply (ihl h.1).bind
    intro l _
    apply (ihr h.2).bind
    exact fun r _ => operation.inRange_apply type l r

end Formula

theorem Column.inRange_push (c : Column) (v : Value) : InRange (c.push v) := by
  rw [push_eq]
  split
  · exact inRange_ok _
  · exact inRange_error fun _ => nofun

namespace Table

variable {t : Table}

theorem Fits.inRange_selection (h : t.Fits) (c : Condition) : InRange (t.selection c) := by
  apply (Test.inRange_resolve t.schema c).bind
  intro test htest
  apply InRange.mapM
  exact fun r hr => (Test.within_of_resolve htest).inRange_passes (h r hr)

theorem Fits.inRange_filter (h : t.Fits) (c? : Option Condition) : InRange (t.filter c?) := by
  cases c? with
  | none => exact inRange_ok t
  | some c => exact (h.inRange_selection c).bind fun _ _ => inRange_ok _

theorem inRange_gather {rows : List Row} {value : Row → Except Error Value} (c : Column)
    (h : ∀ r ∈ rows, InRange (value r)) : InRange (gather rows value c) := by
  apply InRange.foldlM (P := fun _ => True) trivial
  intro c _ r hr
  exact ⟨(h r hr).bind fun v _ => c.inRange_push v, fun _ _ => trivial⟩

theorem Fits.inRange_copyColumn (h : t.Fits) {i : Nat} (hi : i < t.schema.length)
    (a : Attribute) : InRange (t.copyColumn i a) :=
  inRange_gather _ fun r hr => Row.inRange_read ((h r hr).symm ▸ hi)

theorem Fits.inRange_projectOne (h : t.Fits) (p : Projection) : InRange (t.projectOne p) := by
  unfold projectOne
  split
  · apply InRange.mapM
    rintro ⟨a, i⟩ hi
    have found := List.mem_zipIdx_iff_getElem?.1 hi
    exact h.inRange_copyColumn (List.getElem?_eq_some_iff.1 found).1 a
  · apply (t.schema.inRange_resolve _).bind
    rintro ⟨i, type⟩ hi
    exact (h.inRange_copyColumn (Schema.resolve_lt hi) _).bind fun _ _ => inRange_ok _
  · next e name _ =>
    have column : InRange (t.compute e name) := by
      apply (Formula.inRange_ofExpr t.schema e).bind
      rintro ⟨f, type?⟩ hf
      cases type? with
      | none => exact inRange_error fun _ => nofun
      | some type =>
        apply inRange_gather
        intro r hr
        exact ((Formula.within_of_ofExpr hf).inRange_eval (h r hr)).map _
    exact column.bind fun _ _ => inRange_ok _
  · exact inRange_error fun _ => nofun

theorem rowAcross_eq_ok {columns : List Column} {n i : Nat} {Q : ColumnType → Value → Prop}
    (spans : ∀ c ∈ columns, c.Spans n Q) (hi : i < n) : ∃ r, rowAcross columns i = .ok r := by
  have cells : ∀ c ∈ columns, ∃ v, c.read i = .ok v := by
    intro c hc
    have here := spans c hc
    rw [here.aligned.read_eq, List.getElem?_eq_getElem (here.length.symm ▸ hi)]
    exact ⟨_, rfl⟩
  obtain ⟨vs, hvs⟩ := exists_mapM_eq_ok cells
  exact ⟨⟨vs⟩, map_eq_ok.2 ⟨vs, hvs, rfl⟩⟩

theorem Fits.inRange_project (h : t.Fits) (ps : List Projection) : InRange (t.project ps) := by
  apply (InRange.mapM fun p _ => h.inRange_projectOne p).bind
  intro columns hcolumns
  have spans : ∀ c ∈ columns.flatten, c.Spans t.rowCount fun _ _ => True :=
    columns_span (fits_iff_cells.1 h) (fun _ _ _ _ => trivial) (computes_true ps) hcolumns
  refine InRange.bind ?_ fun _ _ => inRange_ok _
  apply InRange.mapM
  intro i hi
  obtain ⟨r, hr⟩ := rowAcross_eq_ok spans (List.mem_range.1 hi)
  exact .of_ok hr

theorem Fits.filter {u : Table} {c? : Option Condition} (h : t.Fits) (hu : t.filter c? = .ok u) :
    u.Fits :=
  (Cells.filter (fits_iff_cells.1 h) hu).fits

theorem Fits.select {u : Table} {ps : List Projection} {c? : Option Condition} (h : t.Fits)
    (hu : t.select ps c? = .ok u) : u.Fits :=
  (Cells.select (fits_iff_cells.1 h) (fun _ _ _ _ => trivial) (computes_true ps) hu).fits

theorem Fits.insert {u : Table} {values : List Value} (h : t.Fits) (hu : t.insert values = .ok u) :
    u.Fits :=
  (Cells.insert (fits_iff_cells.1 h) hu fun _ _ _ _ => trivial).fits

theorem Fits.mergeAll {ts : List Table} {u : Table} (h : ∀ t ∈ ts, t.Fits)
    (hu : mergeAll? ts = some u) : u.Fits :=
  (Cells.mergeAll (fun t ht => fits_iff_cells.1 (h t ht)) hu).fits

theorem Fits.project {u : Table} {ps : List Projection} (h : t.Fits) (hu : t.project ps = .ok u) :
    u.Fits := by
  have selected : t.select ps none = .ok u := hu
  exact h.select selected

theorem Fits.evaluate {u : Table} {ps : List Projection} {cs : List Condition} (h : t.Fits)
    (hu : t.evaluate ps cs = .ok u) : u.Fits :=
  (Cells.evaluate (fits_iff_cells.1 h) (fun _ _ _ _ => trivial) (computes_true ps)
    (fun _ _ h => h) hu).fits

theorem Fits.inRange_select (h : t.Fits) (ps : List Projection) (c? : Option Condition) :
    InRange (t.select ps c?) := by
  apply (h.inRange_filter c?).bind
  exact fun u hu => (h.filter hu).inRange_project ps

theorem Fits.inRange_evaluate (h : t.Fits) (ps : List Projection) (cs : List Condition) :
    InRange (t.evaluate ps cs) := by
  cases cs with
  | nil => exact h.inRange_select ps none
  | cons c cs =>
    apply (h.inRange_select ps (some c)).bind
    intro u hu
    apply InRange.foldlM (P := Fits) (h.select hu)
    intro w hw d _
    exact ⟨hw.inRange_select ps (some d), fun x hx => hw.select hx⟩

end Table
end Relational
