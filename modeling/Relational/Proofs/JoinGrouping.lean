import Mathlib.Data.List.Basic
import Mathlib.Data.List.Zip
import Relational.Proofs.Indexing

/-!
# The grouping of joins

Tables can be joined in any grouping, as long as their order stays. Three rows are joined to the same
row, or to none, whichever two of them come first. For where all three tables have a column of some
name, two agreements make the third; and a column of the last table is left out if its name stands
anywhere before it.
-/
namespace Relational

namespace Schema

variable {α : Type} {s t u : Schema}

def joined (s t : Schema) : Schema := ⟨s.attributes ++ s.unshared t t.attributes⟩

def has (s : Schema) (a : Attribute) : Bool := s.names.contains a.name

/-- The values of a row, each with its column. -/
def labelled (s : Schema) (xs : List α) : List (Attribute × α) := s.attributes.zip xs

@[simp] theorem attributes_joined (s t : Schema) :
    (s.joined t).attributes = s.attributes ++ s.unshared t t.attributes := rfl

theorem has_iff {a : Attribute} : s.has a = true ↔ ∃ b ∈ s.attributes, b.name = a.name := by
  simp [has, names]

theorem has_congr {a b : Attribute} (h : a.name = b.name) : s.has a = s.has b := by
  simp [has, h]

theorem map_fst_labelled {xs : List α} (length : xs.length = s.length) :
    (s.labelled xs).map Prod.fst = s.attributes :=
  List.map_fst_zip (Nat.le_of_eq length.symm)

theorem exists_mem_labelled {xs : List α} (length : xs.length = s.length) {a : Attribute}
    (h : s.has a = true) : ∃ x ∈ s.labelled xs, x.1.name = a.name := by
  obtain ⟨b, hb, named⟩ := has_iff.1 h
  rw [← map_fst_labelled length] at hb
  obtain ⟨x, hx, rfl⟩ := List.mem_map.1 hb
  exact ⟨x, hx, named⟩

theorem unshared_eq (s t : Schema) (xs : List α) :
    s.unshared t xs = ((t.labelled xs).filter fun x => !s.has x.1).map Prod.snd := rfl

theorem map_fst_filter_labelled {xs : List α} (length : xs.length = t.length)
    (p : Attribute → Bool) :
    ((t.labelled xs).filter fun x => p x.1).map Prod.fst = t.attributes.filter p := by
  rw [← map_fst_labelled length, List.filter_map]
  rfl

theorem unshared_attributes (s t : Schema) :
    s.unshared t t.attributes = t.attributes.filter fun a => !s.has a := by
  have sameLength : t.attributes.length = t.length := rfl
  rw [← map_fst_filter_labelled sameLength, unshared_eq, labelled]
  apply List.map_congr_left
  intro x hx
  obtain ⟨i, hi, rfl⟩ := List.getElem_of_mem (List.mem_of_mem_filter hx)
  simp

theorem labelled_unshared {xs : List α} (length : xs.length = t.length) :
    (⟨s.unshared t t.attributes⟩ : Schema).labelled (s.unshared t xs) =
      (t.labelled xs).filter fun x => !s.has x.1 := by
  refine (List.zip_of_prod ?_ (unshared_eq s t xs).symm).symm
  rw [map_fst_filter_labelled length fun a => !s.has a, unshared_attributes]

theorem labelled_joined {xs ys : List α} (hxs : xs.length = s.length) (hys : ys.length = t.length) :
    (s.joined t).labelled (xs ++ s.unshared t ys) =
      s.labelled xs ++ (t.labelled ys).filter fun y => !s.has y.1 := by
  rw [← labelled_unshared hys]
  exact List.zip_append hxs.symm

theorem length_joined {xs ys : List α} (hxs : xs.length = s.length) (hys : ys.length = t.length) :
    (xs ++ s.unshared t ys).length = (s.joined t).length := by
  have kept := congrArg List.length (map_fst_filter_labelled hys fun a => !s.has a)
  rw [List.length_map] at kept
  rw [List.length_append, hxs, unshared_eq, List.length_map, kept, ← unshared_attributes]
  exact List.length_append.symm

theorem has_joined (s t : Schema) (a : Attribute) :
    (s.joined t).has a = (s.has a || t.has a) := by
  rw [Bool.eq_iff_iff, Bool.or_eq_true, has_iff, attributes_joined, unshared_attributes]
  constructor
  · rintro ⟨b, hb, named⟩
    rcases List.mem_append.1 hb with hb | hb
    · exact .inl (has_iff.2 ⟨b, hb, named⟩)
    · exact .inr (has_iff.2 ⟨b, List.mem_of_mem_filter hb, named⟩)
  · intro h
    by_cases first : s.has a = true
    · obtain ⟨b, hb, named⟩ := has_iff.1 first
      exact ⟨b, List.mem_append_left _ hb, named⟩
    · obtain ⟨b, hb, named⟩ := has_iff.1 (h.resolve_left first)
      have left : (!s.has b) = true := by simpa [has_congr named] using first
      exact ⟨b, List.mem_append_right _ (List.mem_filter.2 ⟨hb, left⟩), named⟩

/-- What is left out of the last of three rows does not depend on the grouping. -/
theorem unshared_joined {ys zs : List α} (hys : ys.length = t.length) (hzs : zs.length = u.length) :
    s.unshared (t.joined u) (ys ++ t.unshared u zs) =
      s.unshared t ys ++ (s.joined t).unshared u zs := by
  rw [unshared_eq, labelled_joined hys hzs, List.filter_append, List.map_append, List.filter_filter,
    unshared_eq s t, unshared_eq (s.joined t)]
  simp only [has_joined, Bool.not_or]

theorem joined_assoc (s t u : Schema) : (s.joined t).joined u = s.joined (t.joined u) := by
  have last : s.unshared (t.joined u) (t.joined u).attributes =
      s.unshared t t.attributes ++ (s.joined t).unshared u u.attributes := unshared_joined rfl rfl
  rw [joined, attributes_joined, List.append_assoc, ← last]
  rfl

def Agree (xs ys : List (Attribute × Value)) : Prop :=
  ∀ x ∈ xs, ∀ y ∈ ys, x.1.name = y.1.name → x.2 = y.2

theorem agree_iff_labelled {xs ys : List Value} :
    s.agree t xs ys = true ↔ Agree (s.labelled xs) (t.labelled ys) := by
  simp [agree, Agree, labelled, ← imp_iff_not_or]

/-- Of three rows, the first two and then the last agree if the last two and then the first do. -/
theorem agree_joined {xs ys zs : List Value} (hxs : xs.length = s.length)
    (hys : ys.length = t.length) (hzs : zs.length = u.length) :
    (s.agree t xs ys && (s.joined t).agree u (xs ++ s.unshared t ys) zs) =
      (t.agree u ys zs && s.agree (t.joined u) xs (ys ++ t.unshared u zs)) := by
  rw [Bool.eq_iff_iff, Bool.and_eq_true, Bool.and_eq_true, agree_iff_labelled, agree_iff_labelled,
    agree_iff_labelled, agree_iff_labelled, labelled_joined hxs hys, labelled_joined hys hzs]
  constructor
  · rintro ⟨first, last⟩
    constructor
    · intro y hy z hz named
      by_cases shared : s.has y.1 = true
      · -- the first row has the name too, and its value is that of both others
        obtain ⟨x, hx, same⟩ := exists_mem_labelled hxs shared
        have left := first x hx y hy same
        have right := last x (List.mem_append_left _ hx) z hz (same.trans named)
        exact left.symm.trans right
      · have kept : (!s.has y.1) = true := by simpa using shared
        exact last y (List.mem_append_right _ (List.mem_filter.2 ⟨hy, kept⟩)) z hz named
    · intro x hx y hy named
      rcases List.mem_append.1 hy with hy | hz
      · exact first x hx y hy named
      · exact last x (List.mem_append_left _ hx) y (List.mem_of_mem_filter hz) named
  · rintro ⟨last, first⟩
    constructor
    · exact fun x hx y hy => first x hx y (List.mem_append_left _ hy)
    · intro x hx z hz named
      rcases List.mem_append.1 hx with hx | hy
      · by_cases shared : t.has z.1 = true
        · obtain ⟨y, hy, same⟩ := exists_mem_labelled hys shared
          have left := first x hx y (List.mem_append_left _ hy) (named.trans same.symm)
          exact left.trans (last y hy z hz same)
        · have kept : (!t.has z.1) = true := by simpa using shared
          exact first x hx z (List.mem_append_right _ (List.mem_filter.2 ⟨hz, kept⟩)) named
      · exact last x (List.mem_of_mem_filter hy) z hz named

end Schema

namespace Row

variable {s t u : Schema} {r q p : Row}

/-- Two rows as one, if they agree. -/
def join? (s t : Schema) (r q : Row) : Option Row :=
  if s.agree t r.values q.values then some (r.extended (s.unshared t q.values)) else none

/-- Three rows make the same row in either grouping, or none in both. -/
theorem join?_assoc (hr : r.length = s.length) (hq : q.length = t.length)
    (hp : p.length = u.length) :
    ((r.join? s t q).bind fun x => x.join? (s.joined t) u p) =
      (q.join? t u p).bind fun x => r.join? s (t.joined u) x := by
  have agrees := Schema.agree_joined hr hq hp
  have rest := Schema.unshared_joined (s := s) hq hp
  unfold join?
  cases first : s.agree t r.values q.values <;> cases last : t.agree u q.values p.values <;>
    simp_all [extended]

end Row

namespace Table

variable {t u v : Table}

theorem schema_merge (t u : Table) : (t.merge u).schema = t.schema.joined u.schema := rfl

theorem rows_merge (t u : Table) : (t.merge u).rows =
    t.rows.flatMap fun r => u.rows.filterMap (r.join? t.schema u.schema) := by
  apply List.flatMap_congr
  intro r _
  induction u.rows with
  | nil => rfl
  | cons q qs ih =>
    rw [List.filter_cons, List.filterMap_cons, Row.join?]
    split
    · rw [List.map_cons, ih]
    · exact ih

theorem flatMap_filterMap {α β γ δ : Type} (xs : List α) (ys : List γ) (f : α → Option β)
    (g : β → γ → Option δ) : ((xs.filterMap f).flatMap fun b => ys.filterMap (g b)) =
      xs.flatMap fun a => ys.filterMap fun c => (f a).bind fun b => g b c := by
  induction xs with
  | nil => rfl
  | cons a xs ih =>
    rw [List.filterMap_cons, List.flatMap_cons, ← ih]
    cases f a with
    | none => simp
    | some b => simp

theorem merge_assoc (ht : t.Fits) (hu : u.Fits) (hv : v.Fits) :
    (t.merge u).merge v = t.merge (u.merge v) := by
  have rows : ((t.merge u).merge v).rows = (t.merge (u.merge v)).rows := by
    calc
      _ = t.rows.flatMap fun r => (u.rows.filterMap (r.join? t.schema u.schema)).flatMap fun x =>
            v.rows.filterMap (x.join? (t.schema.joined u.schema) v.schema) := by
        rw [rows_merge, rows_merge t u, List.flatMap_assoc]
        rfl
      _ = t.rows.flatMap fun r => u.rows.flatMap fun q => v.rows.filterMap fun p =>
            (r.join? t.schema u.schema q).bind fun x =>
              x.join? (t.schema.joined u.schema) v.schema p := by
        simp only [flatMap_filterMap]
      _ = t.rows.flatMap fun r => u.rows.flatMap fun q => v.rows.filterMap fun p =>
            (q.join? u.schema v.schema p).bind fun x =>
              r.join? t.schema (u.schema.joined v.schema) x := by
        refine List.flatMap_congr fun r hr => List.flatMap_congr fun q hq => ?_
        exact List.filterMap_congr fun p hp => Row.join?_assoc (ht r hr) (hu q hq) (hv p hp)
      _ = _ := by
        rw [rows_merge t, rows_merge u v]
        simp only [List.filterMap_flatMap, List.filterMap_filterMap]
        rfl
  exact congrArg₂ Table.mk (Schema.joined_assoc t.schema u.schema v.schema) rows

/-- Joining more tables to a join is joining their join to the first table. -/
theorem foldl_merge {ts : List Table} (ht : t.Fits) (hu : u.Fits) (h : ∀ x ∈ ts, x.Fits) :
    ts.foldl merge (t.merge u) = t.merge (ts.foldl merge u) := by
  induction ts generalizing u with
  | nil => rfl
  | cons x ts ih =>
    have hx := h x List.mem_cons_self
    rw [List.foldl_cons, List.foldl_cons, merge_assoc ht hu hx]
    exact ih (hu.merge hx) fun y hy => h y (List.mem_cons_of_mem x hy)

theorem mergeAll?_append {ts us : List Table} (hts : ∀ x ∈ ts, x.Fits) (hus : ∀ x ∈ us, x.Fits)
    (ht : mergeAll? ts = some t) (hu : mergeAll? us = some u) :
    mergeAll? (ts ++ us) = some (t.merge u) := by
  cases ts with
  | nil => cases ht
  | cons x ts =>
    cases us with
    | nil => cases hu
    | cons y us =>
      cases hu
      have first : t.Fits := Fits.mergeAll hts ht
      cases ht
      have second := hus y List.mem_cons_self
      rw [List.cons_append, mergeAll?, List.foldl_append, List.foldl_cons]
      exact congrArg some
        (foldl_merge first second fun z hz => hus z (List.mem_cons_of_mem y hz))

theorem exists_mergeAll? {ts : List Table} (h : ts ≠ []) : ∃ t, mergeAll? ts = some t := by
  cases ts with
  | nil => exact absurd rfl h
  | cons t ts => exact ⟨_, rfl⟩

/-- A block of the tables can be replaced by its join. -/
theorem mergeAll?_block {front block : List Table} (hfront : ∀ x ∈ front, x.Fits)
    (hblock : ∀ x ∈ block, x.Fits) (h : mergeAll? block = some t) (back : List Table) :
    mergeAll? (front ++ block ++ back) = mergeAll? (front ++ t :: back) := by
  cases block with
  | nil => cases h
  | cons x block =>
    cases h
    cases front with
    | nil => simp [mergeAll?]
    | cons y front =>
      have first : (front.foldl merge y).Fits := Fits.mergeAll hfront rfl
      have joined := foldl_merge first (hblock x List.mem_cons_self)
        fun z hz => hblock z (List.mem_cons_of_mem x hz)
      simp [mergeAll?, joined]

end Table

/-- Tables put together two by two, in any grouping. -/
inductive Grouping where
  | table (t : Table)
  | join (left right : Grouping)

namespace Grouping

def tables : Grouping → List Table
  | .table t => [t]
  | .join left right => left.tables ++ right.tables

def merged : Grouping → Except Error Table
  | .table t => .ok t
  | .join left right => do (← left.merged).mergeByPosition (← right.merged)

theorem exists_merged {g : Grouping} (h : ∀ t ∈ g.tables, t.Fits) :
    ∃ t, t.Fits ∧ g.merged = .ok t ∧ Table.mergeAll? g.tables = some t := by
  induction g with
  | table t => exact ⟨t, h t List.mem_cons_self, rfl, rfl⟩
  | join left right ihl ihr =>
    have hl : ∀ t ∈ left.tables, t.Fits := fun t ht => h t (List.mem_append_left _ ht)
    have hr : ∀ t ∈ right.tables, t.Fits := fun t ht => h t (List.mem_append_right _ ht)
    obtain ⟨t, ht, mergedLeft, allLeft⟩ := ihl hl
    obtain ⟨u, hu, mergedRight, allRight⟩ := ihr hr
    refine ⟨t.merge u, ht.merge hu, ?_, Table.mergeAll?_append hl hr allLeft allRight⟩
    rw [merged, mergedLeft, mergedRight]
    exact Table.mergeByPosition_eq ht hu

/-- Two joins of three tables come to the same, whichever is made first. So does any grouping of any
number of tables, and it comes to what joining them from left to right does. -/
theorem merged_of_any_grouping :
    (∀ t u v : Table, t.Fits → u.Fits → v.Fits →
      ∃ w, (t.mergeByPosition u >>= fun x => x.mergeByPosition v) = .ok w ∧
        (u.mergeByPosition v >>= fun x => t.mergeByPosition x) = .ok w) ∧
    ∀ g : Grouping, (∀ t ∈ g.tables, t.Fits) →
      ∃ w, g.merged = .ok w ∧ Table.mergeAllByPosition? g.tables = .ok (some w) := by
  constructor
  · intro t u v ht hu hv
    refine ⟨(t.merge u).merge v, ?_, ?_⟩
    · rw [Table.mergeByPosition_eq ht hu]
      exact Table.mergeByPosition_eq (ht.merge hu) hv
    · rw [Table.mergeByPosition_eq hu hv, Table.merge_assoc ht hu hv]
      exact Table.mergeByPosition_eq ht (hu.merge hv)
  · intro g h
    obtain ⟨w, -, merged, inOrder⟩ := exists_merged h
    refine ⟨w, merged, ?_⟩
    rw [Table.mergeAllByPosition?_eq h, inOrder]

theorem merged_of_shared_columns :
    let t : Table := ⟨⟨[⟨"x", .int⟩, ⟨"y", .string⟩]⟩, [⟨[.literal "1", .literal "'a'"]⟩,
      ⟨[.literal "1", .literal "'a'"]⟩, ⟨[.noValue, .literal "'b'"]⟩]⟩
    let u : Table := ⟨⟨[⟨"y", .string⟩, ⟨"z", .int⟩, ⟨"y", .string⟩]⟩,
      [⟨[.literal "'b'", .literal "5", .literal "'b'"]⟩,
        ⟨[.literal "'a'", .noValue, .literal "'a'"]⟩,
        ⟨[.literal "'a'", .noValue, .literal "'b'"]⟩]⟩
    let v : Table := ⟨⟨[⟨"z", .float⟩, ⟨"x", .int⟩, ⟨"w", .int⟩, ⟨"w", .int⟩]⟩,
      [⟨[.noValue, .literal "1", .literal "7", .literal "8"]⟩,
        ⟨[.literal "5", .noValue, .noValue, .literal "9"]⟩]⟩
    let w : Table := ⟨⟨[⟨"x", .int⟩, ⟨"y", .string⟩, ⟨"z", .int⟩, ⟨"w", .int⟩, ⟨"w", .int⟩]⟩,
      [⟨[.literal "1", .literal "'a'", .noValue, .literal "7", .literal "8"]⟩,
        ⟨[.literal "1", .literal "'a'", .noValue, .literal "7", .literal "8"]⟩,
        ⟨[.noValue, .literal "'b'", .literal "5", .noValue, .literal "9"]⟩]⟩
    (t.Fits ∧ u.Fits ∧ v.Fits) ∧
      (t.mergeByPosition u >>= fun x => x.mergeByPosition v) = .ok w ∧
        (u.mergeByPosition v >>= fun x => t.mergeByPosition x) = .ok w := by
  intro t u v w
  have ht : t.Fits := by unfold Table.Fits; decide
  have hu : u.Fits := by unfold Table.Fits; decide
  have hv : v.Fits := by unfold Table.Fits; decide
  have computed : (t.mergeByPosition u >>= fun x => x.mergeByPosition v) = .ok w := by
    decide +kernel
  obtain ⟨x, first, last⟩ := merged_of_any_grouping.1 t u v ht hu hv
  cases first.symm.trans computed
  exact ⟨⟨ht, hu, hv⟩, first, last⟩

end Grouping
end Relational
