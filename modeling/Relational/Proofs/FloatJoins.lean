import Relational.Proofs.NaturalJoin
import Relational.Proofs.Selections
import Relational.Proofs.StoredFloats

/-!
# Joins on float columns

Rows are joined by the texts of their cells, and cells are compared by the numbers in them. A cell of
a float column is the stored form of the number that it is read as, so equal numbers have one text.
The zeros are the exception: the stored form keeps their sign, which the comparison does not see.
-/
namespace Relational

/-- The two zeros, which are one number and two texts. -/
def OppositeZeros (l m : String) : Prop :=
  (l = "0.000" ∧ m = "-0.000") ∨ (l = "-0.000" ∧ m = "0.000")

instance (l m : String) : Decidable (OppositeZeros l m) :=
  inferInstanceAs (Decidable ((l = "0.000" ∧ m = "-0.000") ∨ (l = "-0.000" ∧ m = "0.000")))

theorem OppositeZeros.ne {l m : String} (h : OppositeZeros l m) : l ≠ m := by
  rcases h with ⟨rfl, rfl⟩ | ⟨rfl, rfl⟩ <;> decide

namespace Binary64

theorem signed_eq_signed {s t : Bool} {j k : Nat} (h : signed s j = signed t k) :
    (s = t ∧ j = k) ∨ (t = !s) ∧ j = 0 ∧ k = 0 := by
  unfold signed at h
  cases s <;> cases t <;> simp at h ⊢ <;> omega

/-- Numbers of one place in the order are the same, or they are both zero. -/
theorem eq_or_zeros_of_place? {x y : Binary64} {i : Int} (hx : x.place? = some i)
    (hy : y.place? = some i) : x = y ∨ ∃ negative, x = zero negative ∧ y = zero (!negative) := by
  have nonzero : finiteCount ≠ 0 := by decide
  cases x with
  | nan => cases hx
  | infinite s =>
    cases y with
    | nan => cases hy
    | infinite t =>
      rcases signed_eq_signed (Option.some.inj (hx.trans hy.symm)) with ⟨rfl, -⟩ | ⟨-, empty, -⟩
      · exact .inl rfl
      · exact absurd empty nonzero
    | finite t k =>
      rcases signed_eq_signed (Option.some.inj (hx.trans hy.symm)) with ⟨-, same⟩ | ⟨-, empty, -⟩
      · exact absurd same k.isLt.ne'
      · exact absurd empty nonzero
  | finite s j =>
    cases y with
    | nan => cases hy
    | infinite t =>
      rcases signed_eq_signed (Option.some.inj (hx.trans hy.symm)) with ⟨-, same⟩ | ⟨-, -, empty⟩
      · exact absurd same j.isLt.ne
      · exact absurd empty nonzero
    | finite t k =>
      rcases signed_eq_signed (Option.some.inj (hx.trans hy.symm)) with
        ⟨rfl, same⟩ | ⟨rfl, first, second⟩
      · exact .inl (congrArg _ (Fin.ext same))
      · exact .inr ⟨s, congrArg _ (Fin.ext first), congrArg _ (Fin.ext second)⟩

theorem storedText_zero (negative : Bool) :
    (zero negative).storedText = if negative then "-0.000" else "0.000" := by
  cases negative <;> decide +kernel

theorem read?_storedText_zero (negative : Bool) :
    read? (zero negative).storedText = some (zero negative) := by
  cases negative <;> decide +kernel

end Binary64

/-- A cell of a float column is the stored form of what it is read as, and that has a place in the
order of numbers. -/
theorem Value.Stored.exists_number {l : String} (h : Stored .float (.literal l)) :
    ∃ x i, Binary64.read? l = some x ∧ x.storedText = l ∧ x.place? = some i := by
  rcases h with ⟨negative, rank, rfl⟩ | ⟨negative, rfl⟩
  · obtain ⟨again, read, same⟩ := Binary64.ofDecimal_thousandths_shortest negative rank
    refine ⟨.finite negative again, _, ?_, ?_, rfl⟩
    · rw [Binary64.read?_storedText, read]
    · rw [Binary64.storedText, Binary64.storedText, same]
  · exact ⟨.infinite negative, _, by cases negative <;> decide, rfl, rfl⟩

/-- Two cells of float columns can always be compared, and they are equal if their texts are or if
they are the two zeros. -/
theorem Test.compares_stored {test : Test} {l m : String} (asked : test.comparison = .eq)
    (numeric : test.textual = false) (hl : Value.Stored .float (.literal l))
    (hm : Value.Stored .float (.literal m)) :
    test.compares (.literal l) (.literal m) = .ok (decide (l = m ∨ OppositeZeros l m)) := by
  obtain ⟨x, i, hx, textx, hi⟩ := hl.exists_number
  obtain ⟨y, j, hy, texty, hj⟩ := hm.exists_number
  have compared : ordering test.textual l m = .ok (some (compare i j)) := by
    simp [ordering, numeric, number_of_read? hx, number_of_read? hy, Binary64.compare?, hi, hj,
      bind, Except.bind, pure, Except.pure]
  have same : i = j ↔ l = m ∨ OppositeZeros l m := by
    constructor
    · rintro rfl
      rcases Binary64.eq_or_zeros_of_place? hi hj with rfl | ⟨negative, rfl, rfl⟩
      · exact .inl (textx.symm.trans texty)
      · rw [Binary64.storedText_zero] at textx texty
        cases negative
        · exact .inr (.inl ⟨textx.symm, texty.symm⟩)
        · exact .inr (.inr ⟨textx.symm, texty.symm⟩)
    · have plus := Binary64.read?_storedText_zero false
      have minus := Binary64.read?_storedText_zero true
      rw [Binary64.storedText_zero] at plus minus
      rintro (rfl | ⟨rfl, rfl⟩ | ⟨rfl, rfl⟩)
      · cases hx.symm.trans hy
        exact Option.some.inj (hi.symm.trans hj)
      · cases plus.symm.trans hx
        cases minus.symm.trans hy
        exact Option.some.inj (hi.symm.trans hj)
      · cases minus.symm.trans hx
        cases plus.symm.trans hy
        exact Option.some.inj (hi.symm.trans hj)
  rw [compares_literal, compared, asked]
  refine congrArg Except.ok (Bool.eq_iff_iff.2 ?_)
  simp [Comparison.holds, ← same]

namespace Schema

variable {s t : Schema} {i j : Nat} {x y : String} {type : ColumnType}

/-- The schema with another name for the column at a position. -/
def renamed (s : Schema) (j : Nat) (y : String) : Schema :=
  ⟨s.attributes.modify j fun a => { a with name := y }⟩

@[simp] theorem length_renamed (s : Schema) (j : Nat) (y : String) :
    (s.renamed j y).length = s.length := by
  simp [renamed, length]

theorem getElem?_renamed_self {a : Attribute} (h : s.attributes[j]? = some a) :
    (s.renamed j y).attributes[j]? = some ⟨y, a.type⟩ := by
  simp [renamed, h]

theorem getElem?_renamed_ne {k : Nat} (h : k ≠ j) :
    (s.renamed j y).attributes[k]? = s.attributes[k]? := by
  simp [renamed, h.symm]

theorem mem_labelled {α : Type} {xs : List α} {l : Attribute × α} :
    l ∈ s.labelled xs ↔ ∃ k : Nat, s.attributes[k]? = some l.1 ∧ xs[k]? = some l.2 := by
  simp only [labelled, List.mem_iff_getElem?, List.getElem?_zip_eq_some]

theorem mem_labelled_of_resolve {α : Type} {xs : List α} (length : xs.length = s.length) {k : Nat}
    (h : s.resolve x = .ok (k, type)) : ∃ v, xs[k]? = some v ∧ (⟨x, type⟩, v) ∈ s.labelled xs := by
  obtain ⟨a, ha, rfl, rfl⟩ := resolve_eq_ok h
  have bound : k < xs.length := length ▸ resolve_lt h
  have found := List.getElem?_eq_getElem bound
  exact ⟨_, found, mem_labelled.2 ⟨k, ha, found⟩⟩

theorem agree_of_unshared {xs ys : List Value} (unshared : ∀ p, p ∉ s.sharedPositions t) :
    s.agree t xs ys = true := by
  rw [agree_iff_labelled]
  intro l hl m hm named
  obtain ⟨a, ha, -⟩ := mem_labelled.1 hl
  obtain ⟨b, hb, -⟩ := mem_labelled.1 hm
  exact absurd (mem_sharedPositions.2 ⟨_, _, ha, hb, named⟩) (unshared (a, b))

/-- A name is found in joined rows at one place, if wherever it stands there is the same value. -/
theorem exists_resolve_joined (there : x ∈ (s.joined t).names)
    (original : ∀ {α : Type}, List α → List α → Option α)
    (same : ∀ {α : Type} (xs ys : List α) (τ : ColumnType) (v : α), xs.length = s.length →
      ys.length = t.length → (⟨x, τ⟩, v) ∈ (s.joined t).labelled (xs ++ s.unshared t ys) →
      τ = type ∧ original xs ys = some v) :
    ∃ k, (s.joined t).resolve x = .ok (k, type) ∧ ∀ xs ys : List Value, xs.length = s.length →
      ys.length = t.length → (xs ++ s.unshared t ys)[k]? = original xs ys := by
  obtain ⟨k, τ, hk⟩ := exists_resolve there
  have found {α : Type} (xs ys : List α) (hxs : xs.length = s.length) (hys : ys.length = t.length) :
      τ = type ∧ (xs ++ s.unshared t ys)[k]? = original xs ys := by
    obtain ⟨v, value, hv⟩ := mem_labelled_of_resolve (length_joined hxs hys) hk
    obtain ⟨kind, here⟩ := same xs ys τ v hxs hys hv
    exact ⟨kind, value.trans here.symm⟩
  -- the columns themselves are a row, and in this row the type is read
  obtain ⟨rfl, -⟩ := found s.attributes t.attributes rfl rfl
  exact ⟨k, hk, fun xs ys hxs hys => (found xs ys hxs hys).2⟩

/-- The two columns have one name and one type, and the first schema has no other column of this
name. -/
structure SharedOnce (s t : Schema) (i j : Nat) (x : String) (type : ColumnType) : Prop where
  left : s.attributes[i]? = some ⟨x, type⟩
  right : t.attributes[j]? = some ⟨x, type⟩
  once : ∀ k, (k, j) ∈ s.sharedPositions t → k = i

namespace SharedOnce

variable (h : s.SharedOnce t i j x type)
include h

theorem eq_left {k : Nat} {a : Attribute} (ha : s.attributes[k]? = some a) (named : a.name = x) :
    k = i :=
  h.once k (mem_sharedPositions.2 ⟨a, _, ha, h.right, named⟩)

theorem agree_iff {xs ys : List Value} {v w : Value} (fresh : y ∉ s.names) (hv : xs[i]? = some v)
    (hw : ys[j]? = some w) :
    s.agree t xs ys = true ↔ s.agree (t.renamed j y) xs ys = true ∧ v = w := by
  rw [agree_iff_labelled, agree_iff_labelled]
  constructor
  · intro agree
    refine ⟨?_, agree (_, v) (mem_labelled.2 ⟨i, h.left, hv⟩) (_, w)
      (mem_labelled.2 ⟨j, h.right, hw⟩) rfl⟩
    intro l hl m hm named
    obtain ⟨k, hk, value⟩ := mem_labelled.1 hm
    by_cases here : k = j
    · subst here
      rw [getElem?_renamed_self h.right, Option.some.injEq] at hk
      obtain ⟨p, hp, -⟩ := mem_labelled.1 hl
      have there : l.1.name ∈ s.names := List.mem_map_of_mem (List.mem_of_getElem? hp)
      rw [named, ← hk] at there
      exact absurd there fresh
    · rw [getElem?_renamed_ne here] at hk
      exact agree l hl m (mem_labelled.2 ⟨k, hk, value⟩) named
  · rintro ⟨agree, rfl⟩ l hl m hm named
    obtain ⟨k, hk, value⟩ := mem_labelled.1 hm
    by_cases here : k = j
    · subst here
      rw [h.right, Option.some.injEq] at hk
      obtain ⟨p, hp, found⟩ := mem_labelled.1 hl
      rw [h.eq_left hp (by rw [named, ← hk])] at found
      exact Option.some.inj (found.symm.trans (hv.trans (hw.symm.trans value)))
    · refine agree l hl m (mem_labelled.2 ⟨k, ?_, value⟩) named
      rw [getElem?_renamed_ne here, hk]

section Joined
variable {α : Type} {xs ys : List α} {v : α} {τ : ColumnType}

theorem left_of_joined (hxs : xs.length = s.length) (hys : ys.length = t.length)
    (hv : (⟨x, τ⟩, v) ∈ (s.joined (t.renamed j y)).labelled
      (xs ++ s.unshared (t.renamed j y) ys)) : τ = type ∧ xs[i]? = some v := by
  rw [labelled_joined hxs (hys.trans (length_renamed t j y).symm)] at hv
  rcases List.mem_append.1 hv with hv | hv
  · obtain ⟨k, hk, value⟩ := mem_labelled.1 hv
    obtain rfl := h.eq_left hk rfl
    cases h.left.symm.trans hk
    exact ⟨rfl, value⟩
  · have absent := (List.mem_filter.1 hv).2
    have there : s.has ⟨x, τ⟩ = true := has_iff.2 ⟨_, List.mem_of_getElem? h.left, rfl⟩
    simp [there] at absent

theorem right_of_joined (fresh : y ∉ s.names) (fresh' : y ∉ t.names) (hxs : xs.length = s.length)
    (hys : ys.length = t.length)
    (hv : (⟨y, τ⟩, v) ∈ (s.joined (t.renamed j y)).labelled
      (xs ++ s.unshared (t.renamed j y) ys)) : τ = type ∧ ys[j]? = some v := by
  rw [labelled_joined hxs (hys.trans (length_renamed t j y).symm)] at hv
  rcases List.mem_append.1 hv with hv | hv
  · obtain ⟨k, hk, -⟩ := mem_labelled.1 hv
    exact absurd (List.mem_map_of_mem (List.mem_of_getElem? hk)) fresh
  · obtain ⟨k, hk, value⟩ := mem_labelled.1 (List.mem_of_mem_filter hv)
    by_cases here : k = j
    · subst here
      rw [getElem?_renamed_self h.right, Option.some.injEq] at hk
      cases hk
      exact ⟨rfl, value⟩
    · rw [getElem?_renamed_ne here] at hk
      exact absurd (List.mem_map_of_mem (List.mem_of_getElem? hk)) fresh'

end Joined

theorem unshared_renamed (fresh : y ∉ s.names) (only : ∀ p ∈ s.sharedPositions t, p = (i, j)) :
    ∀ p, p ∉ s.sharedPositions (t.renamed j y) := by
  rintro ⟨k, m⟩ shared
  obtain ⟨a, b, ha, hb, named⟩ := mem_sharedPositions.1 shared
  by_cases here : m = j
  · subst here
    rw [getElem?_renamed_self h.right, Option.some.injEq] at hb
    subst hb
    have there : a.name ∈ s.names := List.mem_map_of_mem (List.mem_of_getElem? ha)
    rw [named] at there
    exact fresh there
  · rw [getElem?_renamed_ne here] at hb
    cases only _ (mem_sharedPositions.2 ⟨a, b, ha, hb, named⟩)
    exact here rfl

theorem resolve_left (y : String) : ∃ k, (s.joined (t.renamed j y)).resolve x = .ok (k, type) ∧
    ∀ xs ys : List Value, xs.length = s.length → ys.length = t.length →
      (xs ++ s.unshared (t.renamed j y) ys)[k]? = xs[i]? := by
  rw [← length_renamed t j y]
  refine exists_resolve_joined ?_ (fun xs _ => xs[i]?) fun xs ys τ v hxs hys => ?_
  · exact mem_names_joined.2 (.inl (List.mem_map_of_mem (List.mem_of_getElem? h.left)))
  · exact h.left_of_joined hxs (hys.trans (length_renamed t j y))

theorem resolve_right (fresh : y ∉ s.names) (fresh' : y ∉ t.names) :
    ∃ k, (s.joined (t.renamed j y)).resolve y = .ok (k, type) ∧
      ∀ xs ys : List Value, xs.length = s.length → ys.length = t.length →
        (xs ++ s.unshared (t.renamed j y) ys)[k]? = ys[j]? := by
  rw [← length_renamed t j y]
  refine exists_resolve_joined ?_ (fun _ ys => ys[j]?) fun xs ys τ v hxs hys => ?_
  · have last := List.mem_of_getElem? (getElem?_renamed_self (y := y) h.right)
    exact mem_names_joined.2 (.inr (List.mem_map_of_mem last))
  · exact h.right_of_joined fresh fresh' hxs (hys.trans (length_renamed t j y))

end SharedOnce
end Schema

namespace Table

open Schema (SharedOnce)

variable {t u : Table} {i j : Nat} {x y : String}

/-- The table with another name for the column at a position. -/
def renamed (t : Table) (j : Nat) (y : String) : Table := ⟨t.schema.renamed j y, t.rows⟩

/-- The pairs of rows that agree, in the order of the first table, then of the second. -/
def joining (t u : Table) : List (Row × Row) :=
  (t.rows ×ˢ u.rows).filter fun p => t.schema.agree u.schema p.1.values p.2.values

def glue (t u : Table) (p : Row × Row) : Row :=
  p.1.extended (t.schema.unshared u.schema p.2.values)

theorem rows_merge_joining (t u : Table) : (t.merge u).rows = (t.joining u).map (t.glue u) := by
  simp [joining, merge, glue, SProd.sprod, List.product, List.filter_flatMap, List.filter_map,
    List.map_flatMap, Function.comp_def]

theorem joining_of_unshared (unshared : ∀ p, p ∉ t.schema.sharedPositions u.schema) :
    t.joining u = t.rows ×ˢ u.rows :=
  List.filter_eq_self.2 fun _ _ => Schema.agree_of_unshared unshared

/-- Equality of a column of the first table and a renamed column of the second is resolved, and
tests on a joined row the two cells it was made of. -/
theorem test_crossed (h : t.schema.SharedOnce u.schema i j x .float) (fresh : y ∉ t.schema.names)
    (fresh' : y ∉ u.schema.names) :
    ∃ test, Test.resolve (t.merge (u.renamed j y)).schema ⟨x, .eq, .column y⟩ = .ok test ∧
      test.comparison = .eq ∧ test.textual = false ∧
      ∀ (r q : Row) (v w : Value), r.length = t.schema.length → q.length = u.schema.length →
        r.read i = .ok v → q.read j = .ok w →
        test.passes (t.glue (u.renamed j y) (r, q)) = test.compares v w := by
  obtain ⟨k, hk, left⟩ := h.resolve_left y
  obtain ⟨m, hm, right⟩ := h.resolve_right fresh fresh'
  refine ⟨⟨k, .eq, .column m, false⟩, ?_, rfl, rfl, fun r q v w hr hq hv hw => ?_⟩
  · exact Test.resolve_eq_ok.2 ⟨k, .float, .column m, some .float, hk,
      bind_eq_ok.2 ⟨_, hm, rfl⟩, by simp, rfl⟩
  · have first : (t.glue (u.renamed j y) (r, q)).read k = .ok v :=
      Row.read_eq_ok.2 ((left r.values q.values hr hq).trans (Row.read_eq_ok.1 hv))
    have second : (t.glue (u.renamed j y) (r, q)).read m = .ok w :=
      Row.read_eq_ok.2 ((right r.values q.values hr hq).trans (Row.read_eq_ok.1 hw))
    simp only [Test.passes, Test.Operand.value, first, second]
    rfl

/-- A table that a database holds after some run. -/
def Reachable (t : Table) : Prop :=
  ∃ directory es name, ((Database.fresh directory).run es).catalog.get? name = some t

theorem Reachable.storable (h : t.Reachable) : t.Storable := by
  obtain ⟨directory, es, name, bound⟩ := h
  exact Database.storable_run directory es name t bound

/-- The texts of the cells that a pair of rows has at two positions, if both are literals. -/
def textsAt? (i j : Nat) (p : Row × Row) : Option (String × String) :=
  match p.1.read i, p.2.read j with
  | .ok (.literal l), .ok (.literal m) => some (l, m)
  | _, _ => none

theorem textsAt?_eq_some {p : Row × Row} {l m : String} : textsAt? i j p = some (l, m) ↔
    p.1.read i = .ok (.literal l) ∧ p.2.read j = .ok (.literal m) := by
  unfold textsAt?
  split
  · next first second => simp [first, second]
  · next other =>
    refine ⟨nofun, ?_⟩
    rintro ⟨first, second⟩
    exact absurd second (other l m first)

def equalAt (i j : Nat) (p : Row × Row) : Bool :=
  (textsAt? i j p).any fun texts => texts.1 = texts.2 ∨ OppositeZeros texts.1 texts.2

section Pairs
variable (ht : t.Storable) (hu : u.Storable) (h : t.schema.SharedOnce u.schema i j x .float)
  (fresh : y ∉ t.schema.names)
include ht hu h fresh

theorem passes_crossed (fresh' : y ∉ u.schema.names) :
    ∃ test, Test.resolve (t.merge (u.renamed j y)).schema ⟨x, .eq, .column y⟩ = .ok test ∧
      ∀ r ∈ t.rows, ∀ q ∈ u.rows,
        test.passes (t.glue (u.renamed j y) (r, q)) = .ok (equalAt i j (r, q)) := by
  obtain ⟨test, resolved, asked, numeric, passes⟩ := test_crossed h fresh fresh'
  refine ⟨test, resolved, fun r hr q hq => ?_⟩
  obtain ⟨v, hv, storedv⟩ := ht.cells.exists_read h.left hr
  obtain ⟨w, hw, storedw⟩ := hu.cells.exists_read h.right hq
  rw [passes r q v w (ht.cells.fits r hr) (hu.cells.fits q hq) hv hw]
  cases v with
  | noValue => simp [Test.compares, equalAt, textsAt?, hv]
  | literal l =>
    cases w with
    | noValue => simp [Test.compares, equalAt, textsAt?, hv, hw]
    | literal m =>
      rw [Test.compares_stored asked numeric storedv storedw, equalAt,
        textsAt?_eq_some.2 ⟨hv, hw⟩]
      rfl

theorem agree_iff_read {r q : Row} (hr : r ∈ t.rows) (hq : q ∈ u.rows) :
    t.schema.agree u.schema r.values q.values = true ↔
      t.schema.agree (u.renamed j y).schema r.values q.values = true ∧ r.read i = q.read j := by
  obtain ⟨v, hv, -⟩ := ht.cells.exists_read h.left hr
  obtain ⟨w, hw, -⟩ := hu.cells.exists_read h.right hq
  rw [h.agree_iff fresh (Row.read_eq_ok.1 hv) (Row.read_eq_ok.1 hw), hv, hw, Except.ok.injEq]
  rfl

theorem selects_glue (fresh' : y ∉ u.schema.names) {p : Row × Row}
    (hp : p ∈ t.rows ×ˢ u.rows) :
    Condition.selects ⟨x, .eq, .column y⟩ (t.merge (u.renamed j y)).schema
      (t.glue (u.renamed j y) p) = equalAt i j p := by
  obtain ⟨test, resolved, passes⟩ := passes_crossed ht hu h fresh fresh'
  obtain ⟨hr, hq⟩ := List.mem_product.1 hp
  have passed := passes p.1 hr p.2 hq
  exact Except.ok.inj ((Test.passes_eq_selects resolved ⟨_, passed⟩).symm.trans passed)

/-- The condition can be tested on all pairs, and keeps the rows of those that it selects. -/
theorem filter_crossed (fresh' : y ∉ u.schema.names) :
    let c : Condition := ⟨x, .eq, .column y⟩
    let crossed := t.merge (u.renamed j y)
    crossed.filter (some c) = .ok ⟨crossed.schema,
      ((t.joining (u.renamed j y)).filter fun p =>
        c.selects crossed.schema (t.glue (u.renamed j y) p)).map (t.glue (u.renamed j y))⟩ := by
  intro c crossed
  obtain ⟨test, resolved, passes⟩ := passes_crossed ht hu h fresh fresh'
  have tested : ∀ r ∈ crossed.rows, ∃ passed, test.passes r = .ok passed := by
    intro r hr
    rw [rows_merge_joining] at hr
    obtain ⟨p, hp, rfl⟩ := List.mem_map.1 hr
    obtain ⟨hr, hq⟩ := List.mem_product.1 (List.mem_of_mem_filter hp)
    exact ⟨_, passes p.1 hr p.2 hq⟩
  rw [filter_of_passes resolved tested, rows_merge_joining, List.filter_map]
  rfl

/-- Of the pairs with two literals, those agree that are equal as numbers, but for the zeros. -/
theorem joining_eq :
    (t.joining u).filter (fun p => (textsAt? i j p).isSome) =
      ((t.joining (u.renamed j y)).filter (equalAt i j)).filter fun p =>
        !(textsAt? i j p).any fun texts => OppositeZeros texts.1 texts.2 := by
  -- both sides are filters of the same list of all pairs
  simp only [joining, List.filter_filter]
  refine List.filter_congr fun p hp => ?_
  obtain ⟨hr, hq⟩ := List.mem_product.1 hp
  have agree := agree_iff_read ht hu h fresh hr hq
  cases texts : textsAt? i j p with
  | none => simp [equalAt, texts]
  | some found =>
    obtain ⟨l, m⟩ := found
    obtain ⟨hl, hm⟩ := textsAt?_eq_some.1 texts
    rw [hl, hm, Except.ok.injEq, Value.literal.injEq] at agree
    have apart : OppositeZeros l m → l ≠ m := OppositeZeros.ne
    rw [Bool.eq_iff_iff]
    simp only [equalAt, texts, Option.isSome_some, Option.any_some, Bool.true_and, agree,
      Bool.and_eq_true, Bool.not_eq_true', decide_eq_true_iff, decide_eq_false_iff_not]
    tauto

/-- Two rows that agree have two literals in the column, or no value in both. -/
theorem noValue_of_joining {p : Row × Row} (hp : p ∈ t.joining u) (noTexts : textsAt? i j p = none) :
    p.1.read i = .ok .noValue ∧ p.2.read j = .ok .noValue := by
  obtain ⟨inside, agree⟩ := List.mem_filter.1 hp
  obtain ⟨hr, hq⟩ := List.mem_product.1 inside
  have same := ((agree_iff_read ht hu h fresh hr hq).1 agree).2
  obtain ⟨v, hv, -⟩ := ht.cells.exists_read h.left hr
  rw [hv] at same
  cases v with
  | noValue => exact ⟨hv, same.symm⟩
  | literal l =>
    rw [textsAt?_eq_some.2 ⟨hv, same.symm⟩] at noTexts
    cases noTexts

end Pairs

/-- Rows are joined on a float column by text, and a condition compares the cells as numbers. The
comparison never fails, and it tells apart what the texts tell apart, except that it takes the two
zeros for equal. So the join on a float column pairs those of the rows with values in it that the
condition keeps when the column is renamed and so not joined on, except for a zero and its opposite.
All other pairs of the join have no value in the column, and the condition keeps none of these. -/
theorem merge_of_float_column (ht : t.Reachable) (hu : u.Reachable)
    (hi : t.schema.attributes[i]? = some ⟨x, .float⟩)
    (hj : u.schema.attributes[j]? = some ⟨x, .float⟩) :
    (∀ r ∈ t.rows, ∀ q ∈ u.rows, ∀ l m,
      r.read i = .ok (.literal l) → q.read j = .ok (.literal m) →
      ∃ equal, Test.compares ⟨i, .eq, .column j, false⟩ (.literal l) (.literal m) = .ok equal ∧
        (l = m ↔ equal = true ∧ ¬ OppositeZeros l m) ∧ (OppositeZeros l m → equal = true)) ∧
    ∀ y, y ∉ t.schema.names → y ∉ u.schema.names →
      (∀ k, (k, j) ∈ t.schema.sharedPositions u.schema → k = i) →
      let c : Condition := ⟨x, .eq, .column y⟩
      let crossed := t.merge (u.renamed j y)
      let kept := (t.joining (u.renamed j y)).filter fun p =>
        c.selects crossed.schema (t.glue (u.renamed j y) p)
      crossed.filter (some c) = .ok ⟨crossed.schema, kept.map (t.glue (u.renamed j y))⟩ ∧
        (t.merge u).rows = (t.joining u).map (t.glue u) ∧
        (t.joining u).filter (fun p => (textsAt? i j p).isSome) =
          kept.filter (fun p =>
            !(textsAt? i j p).any fun texts => OppositeZeros texts.1 texts.2) ∧
        (∀ p ∈ kept, (textsAt? i j p).isSome = true) ∧
        (∀ p ∈ t.joining u, textsAt? i j p = none →
          p.1.read i = .ok .noValue ∧ p.2.read j = .ok .noValue) ∧
        ((∀ p ∈ t.schema.sharedPositions u.schema, p = (i, j)) →
          t.joining (u.renamed j y) = t.rows ×ˢ u.rows) := by
  have st := ht.storable
  have su := hu.storable
  refine ⟨fun r hr q hq l m hl hm => ?_, fun y fresh fresh' once => ?_⟩
  · have first : Value.Stored .float (.literal l) := st.cells.read hi hr hl
    have second : Value.Stored .float (.literal m) := su.cells.read hj hq hm
    refine ⟨_, Test.compares_stored rfl rfl first second, ?_, ?_⟩
    · have apart : OppositeZeros l m → l ≠ m := OppositeZeros.ne
      rw [decide_eq_true_iff]
      tauto
    · exact fun zeros => decide_eq_true (.inr zeros)
  · have h : t.schema.SharedOnce u.schema i j x .float := ⟨hi, hj, once⟩
    intro c crossed kept
    have selected : kept = (t.joining (u.renamed j y)).filter (equalAt i j) :=
      List.filter_congr fun p hp => selects_glue st su h fresh fresh' (List.mem_of_mem_filter hp)
    refine ⟨filter_crossed st su h fresh fresh', rows_merge_joining t u, ?_, fun p hp => ?_,
      fun p hp => noValue_of_joining st su h fresh hp, fun only => ?_⟩
    · rw [selected]
      exact joining_eq st su h fresh
    · rw [selected] at hp
      have equal := (List.mem_filter.1 hp).2
      unfold equalAt at equal
      cases texts : textsAt? i j p with
      | none => simp [texts] at equal
      | some found => rfl
    · exact joining_of_unshared (h.unshared_renamed fresh only)

/-- The two zeros are not joined, and the condition takes them for equal. -/
theorem not_same_text_of_zeros :
    ¬ ∀ (t u : Table) (x : String) (i j : Nat), t.Reachable → u.Reachable →
      t.schema.attributes[i]? = some ⟨x, .float⟩ → u.schema.attributes[j]? = some ⟨x, .float⟩ →
      ∀ r ∈ t.rows, ∀ q ∈ u.rows, ∀ l m,
        r.read i = .ok (.literal l) → q.read j = .ok (.literal m) →
        ColumnType.ofLiteral? l = some .float → ColumnType.ofLiteral? m = some .float →
        (l = m ↔
          Test.compares ⟨i, .eq, .column j, false⟩ (.literal l) (.literal m) = .ok true) := by
  intro agree
  let t : Table := ⟨⟨[⟨"x", .float⟩]⟩, [⟨[.literal "0.000"]⟩]⟩
  let u : Table := ⟨⟨[⟨"x", .float⟩]⟩, [⟨[.literal "-0.000"]⟩]⟩
  have ht : t.Reachable := ⟨{}, [⟨"create table a (x float);", .ok [], .ok ()⟩,
    ⟨"insert into a values (0.0);", .ok [], .ok ()⟩], "a", by decide +kernel⟩
  have hu : u.Reachable := ⟨{}, [⟨"create table b (x float);", .ok [], .ok ()⟩,
    ⟨"insert into b values (-0.0);", .ok [], .ok ()⟩], "b", by decide +kernel⟩
  have same := agree t u "x" 0 0 ht hu rfl rfl _ List.mem_cons_self _ List.mem_cons_self
    "0.000" "-0.000" rfl rfl (by decide +kernel) (by decide +kernel)
  exact absurd (same.2 (by decide +kernel)) (by decide)

/-- Two literals that are stored as the same number are joined, a zero and its opposite are not, and
rows without a value are paired by the join only. -/
theorem merge_of_float_column_of_zeros :
    let t : Table := ⟨⟨[⟨"x", .float⟩]⟩,
      [⟨[.literal "0.300"]⟩, ⟨[.literal "-0.000"]⟩, ⟨[.noValue]⟩]⟩
    let u : Table := ⟨⟨[⟨"n", .int⟩, ⟨"x", .float⟩]⟩, [⟨[.literal "1", .literal "0.000"]⟩,
      ⟨[.literal "2", .literal "0.300"]⟩, ⟨[.literal "3", .noValue]⟩]⟩
    let c : Condition := ⟨"x", .eq, .column "y"⟩
    t.Reachable ∧ u.Reachable ∧
      (∃ v, (t.merge (u.renamed 1 "y")).filter (some c) = .ok v ∧
        v.rows = [⟨[.literal "0.300", .literal "2", .literal "0.300"]⟩,
          ⟨[.literal "-0.000", .literal "1", .literal "0.000"]⟩]) ∧
      (t.merge u).rows = [⟨[.literal "0.300", .literal "2"]⟩, ⟨[.noValue, .literal "3"]⟩] ∧
      t.joining (u.renamed 1 "y") = t.rows ×ˢ u.rows := by
  intro t u c
  have ht : t.Reachable := ⟨{}, [⟨"load t;",
    .ok (Bytes.ofText "x float\n0.3\n-0.0004\nNOVALUE\n"), .ok ()⟩], "t", by decide +kernel⟩
  have hu : u.Reachable := ⟨{}, [⟨"load u;",
    .ok (Bytes.ofText "n int,x float\n1,0.0\n2,0.29999\n3,NOVALUE\n"), .ok ()⟩], "u",
    by decide +kernel⟩
  have shared : t.schema.sharedPositions u.schema = [(0, 1)] := by decide
  have joined := (merge_of_float_column (i := 0) (j := 1) (x := "x") ht hu rfl rfl).2 "y"
    (by decide) (by decide) (by simp [shared])
  obtain ⟨filtered, rows, -, -, -, everyPair⟩ := joined
  refine ⟨ht, hu, ⟨_, filtered, by decide +kernel⟩, ?_, everyPair (by simp [shared])⟩
  rw [rows]
  decide +kernel

end Table
end Relational
