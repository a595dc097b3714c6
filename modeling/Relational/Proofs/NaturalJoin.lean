import Mathlib.Data.Multiset.Bind
import Relational.Proofs.JoinGrouping

/-!
# The join of named tuples

Without the order of its columns, a row is a tuple of values under names. Two rows that agree are
joined to the union of their tuples. So a join has every tuple as often as the parts of the tuple make
a pair of rows, and it is the same in both directions but for the order of rows and columns.
-/
namespace Relational

section Lists
variable {α β γ : Type}

theorem countP_flatMap_filterMap {xs : List α} {ys : List β} {f : α → β → Option γ}
    {p : γ → Bool} {pa : α → Bool} {pb : β → Bool}
    (h : ∀ a ∈ xs, ∀ b ∈ ys, (f a b).any p = (pa a && pb b)) :
    (xs.flatMap fun a => ys.filterMap (f a)).countP p = xs.countP pa * ys.countP pb := by
  induction xs with
  | nil => simp
  | cons a xs ih =>
    have rest := ih fun b hb => h b (List.mem_cons_of_mem a hb)
    have first : (ys.filterMap (f a)).countP p = ys.countP fun b => pa a && pb b := by
      rw [List.countP_filterMap]
      refine List.countP_congr fun b hb => ?_
      rw [← h a List.mem_cons_self b hb]
      cases f a b <;> simp
    rw [List.flatMap_cons, List.countP_append, rest, first, List.countP_cons]
    cases pa a
    · simp
    · simp [Nat.add_mul, Nat.add_comm]

/-- The pairs of two lists, in the order of the one or of the other. -/
theorem flatMap_filterMap_perm (xs : List α) (ys : List β) (f : α → β → Option γ) :
    (xs.flatMap fun a => ys.filterMap (f a)).Perm
      (ys.flatMap fun b => xs.filterMap fun a => f a b) := by
  simp only [List.filterMap_eq_flatMap_toList]
  rw [← Multiset.coe_eq_coe]
  simp only [← Multiset.coe_bind]
  exact Multiset.bind_bind _ _

end Lists

namespace Schema

variable {α : Type} {s t : Schema} {xs ys : List α} {n : String} {x : Attribute × α}

/-- What stands first under a name in a row, with its column. -/
def first? (s : Schema) (xs : List α) (n : String) : Option (Attribute × α) :=
  (s.labelled xs).find? fun x => x.1.name == n

theorem mem_of_first? (h : s.first? xs n = some x) : x ∈ s.labelled xs ∧ x.1.name = n := by
  have named := List.find?_some h
  exact ⟨List.mem_of_find?_eq_some h, beq_iff_eq.1 named⟩

theorem exists_first? (length : xs.length = s.length) (h : n ∈ s.names) :
    ∃ x, s.first? xs n = some x := by
  obtain ⟨a, ha, rfl⟩ := List.mem_map.1 h
  obtain ⟨x, hx, named⟩ := exists_mem_labelled length (has_iff.2 ⟨a, ha, rfl⟩)
  exact Option.isSome_iff_exists.1 (List.find?_isSome.2 ⟨x, hx, beq_iff_eq.2 named⟩)

theorem first?_eq_none (h : n ∉ s.names) : s.first? xs n = none := by
  refine List.find?_eq_none.2 fun x hx named => h ?_
  rw [← beq_iff_eq.1 named]
  exact List.mem_map_of_mem (List.of_mem_zip hx).1

theorem first?_joined (hxs : xs.length = s.length) (hys : ys.length = t.length) :
    (s.joined t).first? (xs ++ s.unshared t ys) n = (s.first? xs n).or (t.first? ys n) := by
  rw [first?, labelled_joined hxs hys, List.find?_append, List.find?_filter]
  by_cases shared : n ∈ s.names
  · obtain ⟨x, hx⟩ := exists_first? hxs shared
    rw [← first?, hx]
    rfl
  · -- nothing under this name has been left out
    have kept : ∀ y : Attribute × α,
        decide ((!s.has y.1) = true ∧ (y.1.name == n) = true) = (y.1.name == n) := by
      intro y
      by_cases named : y.1.name = n
      · subst named
        simp [has, shared]
      · simp [named]
    simp only [kept]
    rfl

end Schema

namespace Row

variable {s t : Schema} {r q x : Row} {n : String} {v : Value}

/-- The row as a tuple of values under the names of its columns. -/
def tuple (s : Schema) (r : Row) (n : String) : Option Value :=
  ((s.labelled r.values).find? fun x => x.1.name == n).map Prod.snd

theorem exists_of_tuple (h : r.tuple s n = some v) :
    ∃ a, (a, v) ∈ s.labelled r.values ∧ a.name = n := by
  obtain ⟨x, found, rfl⟩ := Option.map_eq_some_iff.1 h
  exact ⟨x.1, Schema.mem_of_first? found⟩

theorem exists_tuple (hr : r.length = s.length) (h : n ∈ s.names) : ∃ v, r.tuple s n = some v := by
  have length : r.values.length = s.length := hr
  obtain ⟨x, found⟩ := Schema.exists_first? length h
  exact ⟨x.2, congrArg (Option.map Prod.snd) found⟩

theorem mem_names_of_tuple (h : r.tuple s n = some v) : n ∈ s.names := by
  obtain ⟨a, ha, rfl⟩ := exists_of_tuple h
  exact List.mem_map_of_mem (List.of_mem_zip ha).1

theorem tuple_eq_none (h : n ∉ s.names) : r.tuple s n = none :=
  congrArg (Option.map Prod.snd) (Schema.first?_eq_none h)

/-- If no two columns have the same name, a value is found under the name of its column. -/
theorem tuple_of_mem (hr : r.length = s.length) (distinct : s.names.Nodup) {a : Attribute}
    (h : (a, v) ∈ s.labelled r.values) : r.tuple s a.name = some v := by
  have there : a.name ∈ s.names := List.mem_map_of_mem (List.of_mem_zip h).1
  obtain ⟨w, found⟩ := exists_tuple hr there
  obtain ⟨b, hb, named⟩ := exists_of_tuple found
  have once : ((s.labelled r.values).map fun x => x.1.name).Nodup := by
    have names : (s.labelled r.values).map (fun x => x.1.name) = s.names := by
      have length : r.values.length = s.length := hr
      rw [Schema.names, ← Schema.map_fst_labelled length, List.map_map]
      rfl
    exact names ▸ distinct
  have same : (b, w) = (a, v) := List.inj_on_of_nodup_map once hb h named
  cases same
  exact found

/-- The tuple of a joined row is the union of the two tuples. -/
theorem tuple_extended (hr : r.length = s.length) (hq : q.length = t.length) :
    (r.extended (s.unshared t q.values)).tuple (s.joined t) n =
      (r.tuple s n).or (q.tuple t n) :=
  (congrArg (Option.map Prod.snd) (Schema.first?_joined hr hq)).trans Option.map_or

theorem tuple_eq_of_agree (agree : s.agree t r.values q.values = true) {w : Value}
    (hv : r.tuple s n = some v) (hw : q.tuple t n = some w) : v = w := by
  obtain ⟨a, ha, named⟩ := exists_of_tuple hv
  obtain ⟨b, hb, same⟩ := exists_of_tuple hw
  exact Schema.agree_iff_labelled.1 agree _ ha _ hb (named.trans same.symm)

theorem agree_iff_tuple (hr : r.length = s.length) (hq : q.length = t.length)
    (hs : s.names.Nodup) (ht : t.names.Nodup) :
    s.agree t r.values q.values = true ↔
      ∀ n v w, r.tuple s n = some v → q.tuple t n = some w → v = w := by
  constructor
  · exact fun agree _ _ _ hv hw => tuple_eq_of_agree agree hv hw
  · rw [Schema.agree_iff_labelled]
    rintro compatible ⟨a, v⟩ ha ⟨b, w⟩ hb (named : a.name = b.name)
    have first := tuple_of_mem hr hs ha
    have second := tuple_of_mem hq ht hb
    exact compatible a.name v w first (named ▸ second)

theorem map_tuple_join? (hr : r.length = s.length) (hq : q.length = t.length) :
    (r.join? s t q).map (tuple (s.joined t)) =
      if s.agree t r.values q.values then some fun n => (r.tuple s n).or (q.tuple t n)
      else none := by
  unfold join?
  split
  · exact congrArg some (funext fun n => tuple_extended hr hq)
  · rfl

/-- Two rows are joined to the same tuple in both directions, or to none. -/
theorem map_tuple_join?_comm (hr : r.length = s.length) (hq : q.length = t.length)
    (hs : s.names.Nodup) (ht : t.names.Nodup) :
    (r.join? s t q).map (tuple (s.joined t)) = (q.join? t s r).map (tuple (t.joined s)) := by
  have forward := agree_iff_tuple hr hq hs ht
  have backward := agree_iff_tuple hq hr ht hs
  have same : s.agree t r.values q.values = t.agree s q.values r.values := by
    rw [Bool.eq_iff_iff, forward, backward]
    exact ⟨fun h n v w hv hw => (h n w v hw hv).symm, fun h n v w hv hw => (h n w v hw hv).symm⟩
  rw [map_tuple_join? hr hq, map_tuple_join? hq hr, ← same]
  split
  case isFalse => rfl
  case isTrue agree =>
    refine congrArg some (funext fun n => ?_)
    cases hv : r.tuple s n with
    | none => simp
    | some v =>
      cases hw : q.tuple t n with
      | none => simp
      | some w => rw [forward.1 agree n v w hv hw]

/-- The row has under each name of its columns the value that is assigned to the name. -/
def Reads (s : Schema) (σ : String → Value) (r : Row) : Prop :=
  ∀ n ∈ s.names, r.tuple s n = some (σ n)

instance (s : Schema) (σ : String → Value) (r : Row) : Decidable (r.Reads s σ) :=
  inferInstanceAs (Decidable (∀ n ∈ s.names, r.tuple s n = some (σ n)))

end Row

namespace Schema

theorem names_joined (s t : Schema) :
    (s.joined t).names = s.names ++ t.names.filter fun n => !s.names.contains n := by
  rw [names, attributes_joined, unshared_attributes, List.map_append, names, names, List.filter_map]
  rfl

theorem mem_names_joined {s t : Schema} {n : String} :
    n ∈ (s.joined t).names ↔ n ∈ s.names ∨ n ∈ t.names := by
  by_cases shared : n ∈ s.names <;> simp [names_joined, shared]

theorem nodup_names_joined {s t : Schema} (hs : s.names.Nodup) (ht : t.names.Nodup) :
    (s.joined t).names.Nodup := by
  rw [names_joined]
  refine hs.append (ht.filter _) fun n hn left => ?_
  have other := (List.mem_filter.1 left).2
  simp [hn] at other

end Schema

namespace Row

variable {s t : Schema} {r q : Row} {σ : String → Value}

theorem reads_extended (hr : r.length = s.length) (hq : q.length = t.length)
    (compatible : ∀ n v w, r.tuple s n = some v → q.tuple t n = some w → v = w) :
    (r.extended (s.unshared t q.values)).Reads (s.joined t) σ ↔ r.Reads s σ ∧ q.Reads t σ := by
  simp only [Reads, tuple_extended hr hq, Schema.mem_names_joined]
  constructor
  · intro reads
    constructor
    · intro n hn
      obtain ⟨v, hv⟩ := exists_tuple hr hn
      have here := reads n (.inl hn)
      rwa [hv, Option.some_or, ← hv] at here
    · intro n hn
      obtain ⟨w, hw⟩ := exists_tuple hq hn
      have here := reads n (.inr hn)
      cases hv : r.tuple s n with
      | none => rwa [hv, Option.none_or] at here
      | some v =>
        rw [hv, Option.some_or] at here
        rw [hw, ← compatible n v w hv hw, here]
  · rintro ⟨first, second⟩ n hn
    by_cases shared : n ∈ s.names
    · rw [first n shared, Option.some_or]
    · rw [tuple_eq_none shared, second n (hn.resolve_left shared), Option.none_or]

theorem Reads.agree (hr : r.length = s.length) (hq : q.length = t.length)
    (hs : s.names.Nodup) (ht : t.names.Nodup) (first : r.Reads s σ) (second : q.Reads t σ) :
    s.agree t r.values q.values = true := by
  refine (agree_iff_tuple hr hq hs ht).2 fun n v w hv hw => ?_
  have left := hv.symm.trans (first n (mem_names_of_tuple hv))
  have right := hw.symm.trans (second n (mem_names_of_tuple hw))
  exact Option.some.inj (left.trans right.symm)

/-- Two rows make a row that reads as an assignment if each of them does. -/
theorem any_reads_join? (hr : r.length = s.length) (hq : q.length = t.length)
    (hs : s.names.Nodup) (ht : t.names.Nodup) :
    (r.join? s t q).any (fun x => x.Reads (s.joined t) σ) =
      (decide (r.Reads s σ) && decide (q.Reads t σ)) := by
  rw [Bool.eq_iff_iff, Bool.and_eq_true, decide_eq_true_iff, decide_eq_true_iff, join?]
  split
  case isTrue agree =>
    rw [Option.any_some, decide_eq_true_iff]
    exact reads_extended hr hq ((agree_iff_tuple hr hq hs ht).1 agree)
  case isFalse differ =>
    have conflict : ¬ (r.Reads s σ ∧ q.Reads t σ) := by
      rintro ⟨first, second⟩
      exact differ (first.agree hr hq hs ht second)
    simpa using conflict

end Row

namespace Table

variable {t u : Table}

/-- The tuples of the rows, each as often as there are rows of it. -/
def tuples (t : Table) : List (String → Option Value) := t.rows.map (Row.tuple t.schema)

def countReading (t : Table) (σ : String → Value) : Nat :=
  t.rows.countP fun r => r.Reads t.schema σ

theorem countReading_merge (ht : t.Fits) (hu : u.Fits) (dt : t.schema.names.Nodup)
    (du : u.schema.names.Nodup) (σ : String → Value) :
    (t.merge u).countReading σ = t.countReading σ * u.countReading σ := by
  rw [countReading, schema_merge, rows_merge]
  exact countP_flatMap_filterMap fun r hr q hq => Row.any_reads_join? (ht r hr) (hu q hq) dt du

theorem tuples_merge_comm (ht : t.Fits) (hu : u.Fits) (dt : t.schema.names.Nodup)
    (du : u.schema.names.Nodup) : (t.merge u).tuples.Perm (u.merge t).tuples := by
  calc
    _ = t.rows.flatMap fun r => u.rows.filterMap fun q =>
          (r.join? t.schema u.schema q).map (Row.tuple (t.schema.joined u.schema)) := by
      rw [tuples, schema_merge, rows_merge, List.map_flatMap]
      simp only [List.map_filterMap]
    _ = t.rows.flatMap fun r => u.rows.filterMap fun q =>
          (q.join? u.schema t.schema r).map (Row.tuple (u.schema.joined t.schema)) := by
      refine List.flatMap_congr fun r hr => List.filterMap_congr fun q hq => ?_
      exact Row.map_tuple_join?_comm (ht r hr) (hu q hq) dt du
    List.Perm _ (u.rows.flatMap fun q => t.rows.filterMap fun r =>
          (q.join? u.schema t.schema r).map (Row.tuple (u.schema.joined t.schema))) :=
      flatMap_filterMap_perm _ _ _
    _ = _ := by
      rw [tuples, schema_merge, rows_merge, List.map_flatMap]
      simp only [List.map_filterMap]

/-- The natural join, on tuples of named values. An assignment of values to the names of both tables
is read from as many rows of the join as there are pairs of rows it is read from in the tables, and
the join in the other direction has the same tuples as often. -/
theorem mergeByPosition_tuples (ht : t.Fits) (hu : u.Fits) (dt : t.schema.names.Nodup)
    (du : u.schema.names.Nodup) :
    ∃ w w', t.mergeByPosition u = .ok w ∧ u.mergeByPosition t = .ok w' ∧
      w.schema.names.Nodup ∧
      (∀ n, n ∈ w.schema.names ↔ n ∈ t.schema.names ∨ n ∈ u.schema.names) ∧
      (∀ σ, w.countReading σ = t.countReading σ * u.countReading σ) ∧
      w.tuples.Perm w'.tuples :=
  ⟨t.merge u, u.merge t, mergeByPosition_eq ht hu, mergeByPosition_eq hu ht,
    Schema.nodup_names_joined dt du, fun _ => Schema.mem_names_joined,
    countReading_merge ht hu dt du, tuples_merge_comm ht hu dt du⟩

theorem mergeByPosition_tuples_of_shared_columns :
    let t : Table := ⟨⟨[⟨"a", .int⟩, ⟨"b", .string⟩, ⟨"c", .int⟩]⟩,
      [⟨[.literal "1", .literal "'x'", .noValue]⟩, ⟨[.literal "2", .noValue, .literal "5"]⟩,
        ⟨[.literal "1", .literal "'x'", .noValue]⟩]⟩
    let u : Table := ⟨⟨[⟨"b", .string⟩, ⟨"d", .int⟩, ⟨"a", .int⟩]⟩,
      [⟨[.literal "'x'", .literal "7", .literal "1"]⟩, ⟨[.noValue, .literal "8", .literal "2"]⟩,
        ⟨[.literal "'x'", .literal "7", .literal "1"]⟩]⟩
    let σ : String → Value := fun n =>
      if n = "a" then .literal "1" else if n = "b" then .literal "'x'"
      else if n = "c" then .noValue else .literal "7"
    (t.Fits ∧ u.Fits ∧ t.schema.names.Nodup ∧ u.schema.names.Nodup) ∧
      ∃ w w', t.mergeByPosition u = .ok w ∧ u.mergeByPosition t = .ok w' ∧
        w.countReading σ = 4 ∧ w.tuples.Perm w'.tuples := by
  intro t u σ
  have ht : t.Fits := by unfold Table.Fits; decide
  have hu : u.Fits := by unfold Table.Fits; decide
  have dt : t.schema.names.Nodup := by decide
  have du : u.schema.names.Nodup := by decide
  obtain ⟨w, w', first, second, -, -, count, same⟩ := mergeByPosition_tuples ht hu dt du
  exact ⟨⟨ht, hu, dt, du⟩, w, w', first, second, (count σ).trans (by decide), same⟩

end Table
end Relational
