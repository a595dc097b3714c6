import Relational.Proofs.Typing

/-!
# Selecting all columns

The star copies the columns of a table one by one, checks every cell on the way, and puts the copies
side by side again. A table whose cells have the types of their columns comes out as it was.
-/
namespace Relational.Table

variable {t : Table} {rows : List Row} {value : Row → Except Error Value}

theorem exists_gather {c : Column} (h : ∀ r ∈ rows, ∃ v, value r = .ok v ∧ v.HasType c.type) :
    ∃ d, gather rows value c = .ok d := by
  induction rows generalizing c with
  | nil => exact ⟨c, rfl⟩
  | cons r rows ih =>
    obtain ⟨v, hv, typed⟩ := h r List.mem_cons_self
    have pushed : c.push v = .ok (c.appended v) := by rw [Column.push_eq, if_pos typed]
    have rest : ∀ q ∈ rows, ∃ w, value q = .ok w ∧ w.HasType (c.appended v).type :=
      fun q hq => h q (List.mem_cons_of_mem r hq)
    obtain ⟨d, hd⟩ := ih rest
    exact ⟨d, foldlM_cons_eq_ok.2 ⟨_, bind_eq_ok.2 ⟨v, hv, pushed⟩, hd⟩⟩

/-- A column with a header of its own and the cells that the rows have at a position. -/
structure IsCopy (t : Table) (i : Nat) (a : Attribute) (c : Column) : Prop where
  aligned : c.Aligned
  header : c.toAttribute = a
  cells : List.Forall₂ (fun (r : Row) v => r.read i = .ok v) t.rows c.toList

theorem isCopy_of_copyColumn {i : Nat} {a : Attribute} {c : Column}
    (h : t.copyColumn i a = .ok c) : t.IsCopy i a c := by
  obtain ⟨aligned, header, vs, hvs, pairs⟩ := gather_eq_ok (Column.aligned_empty a.name a.type) h
  have list : c.toList = vs := by simpa using hvs
  exact ⟨aligned, header, list ▸ pairs.imp fun _ _ pair => pair.1⟩

theorem Typed.exists_copyColumn (h : t.Typed) {i : Nat} {a : Attribute}
    (ha : t.schema.attributes[i]? = some a) : ∃ c, t.copyColumn i a = .ok c := by
  apply exists_gather
  exact fun r hr => h.exists_read ha hr

theorem IsCopy.read_eq_ok {i k : Nat} {a : Attribute} {c : Column} {r : Row} (h : t.IsCopy i a c)
    (hr : t.rows[k]? = some r) (hi : i < r.length) : c.read k = .ok (r.values.get ⟨i, hi⟩) := by
  obtain ⟨bound, same⟩ := List.getElem?_eq_some_iff.1 hr
  have bound' : k < c.toList.length := h.cells.length_eq ▸ bound
  have pair := h.cells.get bound bound'
  rw [List.get_eq_getElem, same, Row.read_of_lt hi] at pair
  rw [h.aligned.read_eq, List.getElem?_eq_getElem bound']
  exact pair.symm

def Copies (t : Table) (columns : List Column) : Prop :=
  List.Forall₂ (fun x c => t.IsCopy x.2 x.1 c) t.schema.attributes.zipIdx columns

theorem Typed.exists_copies (h : t.Typed) :
    ∃ columns, t.projectOne .star = .ok columns ∧ t.Copies columns := by
  have each : ∀ x ∈ t.schema.attributes.zipIdx, ∃ c, t.copyColumn x.2 x.1 = .ok c :=
    fun x hx => h.exists_copyColumn (List.mem_zipIdx_iff_getElem?.1 hx)
  obtain ⟨columns, hcolumns⟩ := exists_mapM_eq_ok each
  exact ⟨columns, hcolumns, (mapM_eq_ok.1 hcolumns).imp fun _ _ => isCopy_of_copyColumn⟩

theorem Copies.headers {columns : List Column} (h : t.Copies columns) :
    columns.map Column.toAttribute = t.schema.attributes := by
  have headers : List.Forall₂ (fun a b => a = b) (t.schema.attributes.zipIdx.map Prod.fst)
      (columns.map Column.toAttribute) := by
    rw [List.forall₂_map_left_iff, List.forall₂_map_right_iff]
    exact h.imp fun _ _ copy => copy.header.symm
  rw [List.forall₂_eq_eq_eq] at headers
  rw [← headers, List.zipIdx_map_fst]

theorem Copies.rowAcross {columns : List Column} (h : t.Copies columns) (fits : t.Fits) {k : Nat}
    {r : Row} (hr : t.rows[k]? = some r) : rowAcross columns k = .ok r := by
  have sameLength : columns.length = r.values.length := by
    have whole : t.schema.attributes.zipIdx.length = columns.length := h.length_eq
    rw [List.length_zipIdx] at whole
    exact whole.symm.trans (fits r (List.mem_of_getElem? hr)).symm
  refine map_eq_ok.2 ⟨r.values, mapM_eq_ok.2 (List.forall₂_iff_get.2 ⟨sameLength, ?_⟩), rfl⟩
  intro i hi hi'
  have inside : i < t.schema.attributes.zipIdx.length := h.length_eq.symm ▸ hi
  have copy := h.get inside hi
  rw [List.get_eq_getElem, List.getElem_zipIdx, Nat.zero_add] at copy
  exact copy.read_eq_ok hr hi'

theorem project_star (h : t.Typed) : t.project [.star] = .ok t := by
  obtain ⟨columns, hcolumns, copies⟩ := h.exists_copies
  have rows : (List.range t.rowCount).mapM (rowAcross columns) = .ok t.rows := by
    refine mapM_eq_ok.2 (List.forall₂_iff_get.2 ⟨List.length_range, ?_⟩)
    intro k hk hk'
    rw [List.get_eq_getElem, List.getElem_range]
    exact copies.rowAcross h.fits (List.getElem?_eq_getElem hk')
  have projected : [Projection.star].mapM t.projectOne = .ok [columns] :=
    mapM_eq_ok.2 (.cons hcolumns .nil)
  simp only [project, projected, bind, Except.bind, List.flatten_singleton, rows, copies.headers]
  rfl

theorem evaluate_star (h : t.Typed) : t.evaluate [.star] [] = .ok t :=
  project_star h

end Relational.Table
