import Relational.Proofs.NaturalJoin
import Relational.Proofs.Selections

/-!
# Filters and joins

A condition whose columns all belong to one of two tables can be asked of this table before the join
or of the join. Its names may stand elsewhere there. The columns of the second table come after those
of the first, and a shared column is the one of the first table. But rows that are joined agree in
it, so a name finds the same value as before. And as a shared column has one type, the condition is
refused by the join exactly if it is refused by the table, and for the same reason.
-/
namespace Relational

section Lists
variable {α β γ : Type}

theorem filter_flatMap_eq {xs : List α} {f : α → List β} {p : β → Bool} {pa : α → Bool}
    (h : ∀ a ∈ xs, ∀ b ∈ f a, p b = pa a) : (xs.flatMap f).filter p = (xs.filter pa).flatMap f := by
  induction xs with
  | nil => rfl
  | cons a xs ih =>
    have rest := ih fun b hb => h b (List.mem_cons_of_mem a hb)
    have here := h a List.mem_cons_self
    rw [List.flatMap_cons, List.filter_append, rest, List.filter_cons]
    cases kept : pa a with
    | true =>
      rw [List.filter_eq_self.2 fun b hb => (here b hb).trans kept]
      rfl
    | false =>
      rw [List.filter_eq_nil_iff.2 fun b hb => by rw [here b hb, kept]; decide]
      rfl

theorem filter_map_filter {ys : List β} {f : β → γ} {p : γ → Bool} {agree pb : β → Bool}
    (h : ∀ b ∈ ys, agree b = true → p (f b) = pb b) :
    ((ys.filter agree).map f).filter p = ((ys.filter pb).filter agree).map f := by
  rw [List.filter_map, List.filter_filter, List.filter_filter]
  refine congrArg (List.map f) (List.filter_congr fun b hb => ?_)
  cases both : agree b with
  | true => simpa using h b hb both
  | false => simp

end Lists

def Condition.columns (c : Condition) : List String :=
  match c.right with
  | .column name => [c.column, name]
  | _ => [c.column]

namespace Schema

variable {s t w : Schema} {n : String} {R : Row → Row → Prop}

/-- Equally named columns of the two schemas have one type. -/
def SameTypes (s t : Schema) : Prop :=
  ∀ a ∈ s.attributes, ∀ b ∈ t.attributes, a.name = b.name → a.type = b.type

instance (s t : Schema) : Decidable (s.SameTypes t) :=
  inferInstanceAs (Decidable (∀ a ∈ s.attributes, ∀ b ∈ t.attributes, a.name = b.name →
    a.type = b.type))

theorem first?_of_resolve {α : Type} (xs : List α) (length : xs.length = s.length) {i : Nat}
    {type : ColumnType} (h : s.resolve n = .ok (i, type)) :
    ∃ a v, s.first? xs n = some (a, v) ∧ a.type = type ∧ xs[i]? = some v := by
  unfold resolve at h
  split at h
  · cases h
  · next j hj =>
    split at h
    · cases h
    · next a ha =>
      cases h
      rw [position?, List.findIdx?_eq_some_iff_getElem] at hj
      obtain ⟨bound, named, before⟩ := hj
      obtain ⟨_, rfl⟩ := List.getElem?_eq_some_iff.1 ha
      have inside : i < xs.length := length ▸ bound
      refine ⟨_, xs[i], ?_, rfl, List.getElem?_eq_getElem inside⟩
      rw [first?, List.find?_eq_some_iff_getElem]
      refine ⟨named, i, by simpa [labelled, bound] using inside, by simp [labelled], ?_⟩
      intro k hk
      simpa [labelled] using before k hk

/-- Two schemas have columns of one name and one type, and two rows that are related have the same
value there. -/
def FoundAlike (s w : Schema) (R : Row → Row → Prop) (n : String) : Prop :=
  ∃ i k type, s.resolve n = .ok (i, type) ∧ w.resolve n = .ok (k, type) ∧
    ∀ r x, R r x → r.read i = x.read k

/-- A name is found alike if the first columns of the name have one type, and related rows are one
tuple at this name. -/
theorem foundAlike (hs : n ∈ s.names) (hw : n ∈ w.names)
    (types : ∀ x ∈ s.first? s.attributes n, ∀ z ∈ w.first? w.attributes n, x.1.type = z.1.type)
    (rows : ∀ r x, R r x → r.length = s.length ∧ x.length = w.length ∧ r.tuple s n = x.tuple w n) :
    s.FoundAlike w R n := by
  obtain ⟨i, type, hi⟩ := exists_resolve hs
  obtain ⟨k, other, hk⟩ := exists_resolve hw
  have same : type = other := by
    obtain ⟨a, x, first, rfl, -⟩ := first?_of_resolve s.attributes rfl hi
    obtain ⟨b, z, second, rfl, -⟩ := first?_of_resolve w.attributes rfl hk
    exact types _ first _ second
  refine ⟨i, k, type, hi, same ▸ hk, fun r x related => ?_⟩
  obtain ⟨hr, hx, tuples⟩ := rows r x related
  obtain ⟨a, v, first, -, hv⟩ := first?_of_resolve r.values hr hi
  obtain ⟨b, z, second, -, hz⟩ := first?_of_resolve x.values hx hk
  have found : some v = some z :=
    (congrArg (Option.map Prod.snd) first).symm.trans
      (tuples.trans (congrArg (Option.map Prod.snd) second))
  rw [Row.read_eq_ok.2 hv, Row.read_eq_ok.2 hz, Option.some.inj found]

/-- The row is joined with some row of the second schema. -/
def JoinedAfter (s t : Schema) (r x : Row) : Prop :=
  ∃ q : Row, r.length = s.length ∧ q.length = t.length ∧ x = r.extended (s.unshared t q.values)

def JoinedBefore (s t : Schema) (q x : Row) : Prop :=
  ∃ r : Row, r.length = s.length ∧ q.length = t.length ∧ s.agree t r.values q.values = true ∧
    x = r.extended (s.unshared t q.values)

theorem foundAlike_after (h : n ∈ s.names) : s.FoundAlike (s.joined t) (s.JoinedAfter t) n := by
  refine foundAlike h (mem_names_joined.2 (.inl h)) ?_ ?_
  · intro x hx z hz
    have attributes : (s.first? s.attributes n).or (t.first? t.attributes n) = some z :=
      (first?_joined rfl rfl).symm.trans hz
    rw [Option.mem_def.1 hx, Option.some_or] at attributes
    rw [Option.some.inj attributes]
  · rintro r _ ⟨q, hr, hq, rfl⟩
    obtain ⟨v, hv⟩ := Row.exists_tuple hr h
    refine ⟨hr, length_joined hr hq, ?_⟩
    rw [Row.tuple_extended hr hq, hv]
    rfl

theorem foundAlike_before (same : s.SameTypes t) (h : n ∈ t.names) :
    t.FoundAlike (s.joined t) (s.JoinedBefore t) n := by
  refine foundAlike h (mem_names_joined.2 (.inr h)) ?_ ?_
  · intro y hy z hz
    have attributes : (s.first? s.attributes n).or (t.first? t.attributes n) = some z :=
      (first?_joined rfl rfl).symm.trans hz
    cases shared : s.first? s.attributes n with
    | none =>
      rw [shared, Option.none_or, hy] at attributes
      rw [Option.some.inj attributes]
    | some x =>
      rw [shared, Option.some_or] at attributes
      obtain ⟨inside, named⟩ := mem_of_first? shared
      obtain ⟨inside', named'⟩ := mem_of_first? hy
      rw [← Option.some.inj attributes]
      exact (same _ (List.of_mem_zip inside).1 _ (List.of_mem_zip inside').1
        (named.trans named'.symm)).symm
  · rintro q _ ⟨r, hr, hq, agree, rfl⟩
    refine ⟨hq, length_joined hr hq, ?_⟩
    rw [Row.tuple_extended hr hq]
    cases hv : r.tuple s n with
    | none => rfl
    | some v =>
      obtain ⟨w, hw⟩ := Row.exists_tuple hq h
      rw [Option.some_or, hw, Row.tuple_eq_of_agree agree hv hw]

end Schema

namespace Test

variable {s w : Schema} {c : Condition} {R : Row → Row → Prop}

/-- If the names of a condition are found alike, it is refused by both schemas for one reason, or
its tests have one result. -/
theorem resolve_alike (h : ∀ n ∈ c.columns, s.FoundAlike w R n) :
    (∃ e, resolve s c = .error e ∧ resolve w c = .error e) ∨
      ∃ test other, resolve s c = .ok test ∧ resolve w c = .ok other ∧
        ∀ r x, R r x → test.passes r = other.passes x := by
  obtain ⟨column, comparison, right⟩ := c
  have here : column ∈ (Condition.mk column comparison right).columns := by
    cases right <;> exact List.mem_cons_self
  obtain ⟨i, k, type, hi, hk, left⟩ := h column here
  cases right with
  | column name =>
    obtain ⟨j, m, other, hj, hm, value⟩ := h name (List.mem_cons_of_mem _ List.mem_cons_self)
    simp only [resolve, Operand.resolve, hi, hk, hj, hm, bind, Except.bind, pure, Except.pure]
    split
    · refine .inr ⟨_, _, rfl, rfl, fun r x related => ?_⟩
      simp only [passes, Operand.value, left r x related, value r x related]
      rfl
    · exact .inl ⟨_, rfl, rfl⟩
  | literal v =>
    simp only [resolve, Operand.resolve, hi, hk, bind, Except.bind, pure, Except.pure]
    split
    · refine .inr ⟨_, _, rfl, rfl, fun r x related => ?_⟩
      simp only [passes, Operand.value, left r x related]
      rfl
    · exact .inl ⟨_, rfl, rfl⟩
  | binary l operation r =>
    simp only [resolve, Operand.resolve, hi, hk, bind, Except.bind]
    exact .inl ⟨_, rfl, rfl⟩

/-- What is resolved alike is refused alike, or selects related rows alike. -/
theorem selects_alike (h : ∀ n ∈ c.columns, s.FoundAlike w R n) :
    (∃ e, resolve s c = .error e ∧ resolve w c = .error e) ∨
      (∃ test other, resolve s c = .ok test ∧ resolve w c = .ok other) ∧
        ∀ r x, R r x → c.selects w x = c.selects s r := by
  refine (resolve_alike h).imp_right ?_
  rintro ⟨test, other, hs, hw, same⟩
  refine ⟨⟨test, other, hs, hw⟩, fun r x related => ?_⟩
  simp only [Condition.selects, hs, hw, same r x related]

end Test

namespace Table

variable {t u : Table} {c : Condition}

theorem rows_merge_filter_left {p pr : Row → Bool}
    (h : ∀ r ∈ t.rows, ∀ q ∈ u.rows, p (r.extended (t.schema.unshared u.schema q.values)) = pr r) :
    (t.merge u).rows.filter p = (merge ⟨t.schema, t.rows.filter pr⟩ u).rows := by
  refine filter_flatMap_eq fun r hr x hx => ?_
  obtain ⟨q, hq, rfl⟩ := List.mem_map.1 hx
  exact h r hr q (List.mem_of_mem_filter hq)

theorem rows_merge_filter_right {p pq : Row → Bool}
    (h : ∀ r ∈ t.rows, ∀ q ∈ u.rows, t.schema.agree u.schema r.values q.values = true →
      p (r.extended (t.schema.unshared u.schema q.values)) = pq q) :
    (t.merge u).rows.filter p = (t.merge ⟨u.schema, u.rows.filter pq⟩).rows := by
  unfold merge
  rw [List.filter_flatMap]
  exact List.flatMap_congr fun r hr => filter_map_filter fun q hq agree => h r hr q hq agree

theorem filter_merge_left (ht : t.Typed) (hu : u.Typed)
    (own : ∀ n ∈ c.columns, n ∈ t.schema.names) :
    (t.merge u).filter (some c) = (t.filter (some c)).map fun w => w.merge u := by
  have joined : (t.merge u).Typed := Cells.merge ht hu
  rw [joined.filter_eq, ht.filter_eq, schema_merge]
  rcases Test.selects_alike fun n hn => Schema.foundAlike_after (t := u.schema) (own n hn) with
    ⟨e, here, there⟩ | ⟨⟨test, other, here, there⟩, same⟩
  · rw [here, there]
    rfl
  · rw [here, there]
    refine congrArg Except.ok (congrArg (Table.mk _) ?_)
    exact rows_merge_filter_left fun r hr q hq =>
      same r _ ⟨q, ht.fits r hr, hu.fits q hq, rfl⟩

theorem filter_merge_right (ht : t.Typed) (hu : u.Typed) (types : t.schema.SameTypes u.schema)
    (own : ∀ n ∈ c.columns, n ∈ u.schema.names) :
    (t.merge u).filter (some c) = (u.filter (some c)).map fun w => t.merge w := by
  have joined : (t.merge u).Typed := Cells.merge ht hu
  rw [joined.filter_eq, hu.filter_eq, schema_merge]
  rcases Test.selects_alike fun n hn => Schema.foundAlike_before types (own n hn) with
    ⟨e, here, there⟩ | ⟨⟨test, other, here, there⟩, same⟩
  · rw [here, there]
    rfl
  · rw [here, there]
    refine congrArg Except.ok (congrArg (Table.mk _) ?_)
    exact rows_merge_filter_right fun r hr q hq agree =>
      same q _ ⟨r, ht.fits r hr, hu.fits q hq, agree, rfl⟩

/-- A condition that looks up columns of one table only can be asked before the join or after it. The
outcome is one table with one order of rows, or one error. -/
theorem filter_of_joined (ht : t.Typed) (hu : u.Typed) (types : t.schema.SameTypes u.schema)
    (c : Condition) :
    ((∀ n ∈ c.columns, n ∈ t.schema.names) →
      (t.mergeByPosition u >>= fun w => w.filter (some c)) =
        (t.filter (some c) >>= fun w => w.mergeByPosition u)) ∧
    ((∀ n ∈ c.columns, n ∈ u.schema.names) →
      (t.mergeByPosition u >>= fun w => w.filter (some c)) =
        (u.filter (some c) >>= fun w => t.mergeByPosition w)) := by
  have joined : (t.mergeByPosition u >>= fun w => w.filter (some c)) =
      (t.merge u).filter (some c) := by
    rw [mergeByPosition_eq ht.fits hu.fits]
    rfl
  rw [joined]
  constructor
  · intro own
    rw [filter_merge_left ht hu own]
    cases kept : t.filter (some c) with
    | error e => rfl
    | ok w => exact (mergeByPosition_eq (ht.fits.filter kept) hu.fits).symm
  · intro own
    rw [filter_merge_right ht hu types own]
    cases kept : u.filter (some c) with
    | error e => rfl
    | ok w => exact (mergeByPosition_eq ht.fits (hu.fits.filter kept)).symm

/-- The column `y` is shared and stands twice in the second table, where the first one counts. -/
theorem filter_of_joined_of_shared_column :
    let t : Table := ⟨⟨[⟨"x", .int⟩, ⟨"y", .string⟩]⟩, [⟨[.literal "1", .literal "'b'"]⟩,
      ⟨[.literal "2", .literal "'a'"]⟩, ⟨[.literal "3", .literal "'a'"]⟩]⟩
    let u : Table := ⟨⟨[⟨"y", .string⟩, ⟨"z", .string⟩, ⟨"y", .string⟩]⟩,
      [⟨[.literal "'a'", .literal "'c'", .literal "'a'"]⟩,
        ⟨[.literal "'b'", .literal "'a'", .literal "'b'"]⟩,
        ⟨[.literal "'a'", .noValue, .literal "'a'"]⟩,
        ⟨[.literal "'b'", .literal "'c'", .literal "'b'"]⟩]⟩
    let w : Table := ⟨⟨[⟨"x", .int⟩, ⟨"y", .string⟩, ⟨"z", .string⟩]⟩,
      [⟨[.literal "1", .literal "'b'", .literal "'c'"]⟩,
        ⟨[.literal "2", .literal "'a'", .literal "'c'"]⟩,
        ⟨[.literal "3", .literal "'a'", .literal "'c'"]⟩]⟩
    let c : Condition := ⟨"y", .lt, .column "z"⟩
    let d : Condition := ⟨"y", .eq, .column "x"⟩
    let conflict : Error := .typeConflict .comparedKinds
    (t.Typed ∧ u.Typed ∧ t.schema.SameTypes u.schema ∧ (∀ n ∈ c.columns, n ∈ u.schema.names) ∧
      ∀ n ∈ d.columns, n ∈ t.schema.names) ∧
      (u.filter (some c) >>= fun v => t.mergeByPosition v) = .ok w ∧
      (t.mergeByPosition u >>= fun v => v.filter (some c)) = .ok w ∧
      (t.filter (some d) >>= fun v => v.mergeByPosition u) = .error conflict ∧
      (t.mergeByPosition u >>= fun v => v.filter (some d)) = .error conflict := by
  intro t u w c d conflict
  have ht : t.Typed := by unfold Typed Cells; decide
  have hu : u.Typed := by unfold Typed Cells; decide
  have types : t.schema.SameTypes u.schema := by decide
  have ownRight : ∀ n ∈ c.columns, n ∈ u.schema.names := by decide
  have ownLeft : ∀ n ∈ d.columns, n ∈ t.schema.names := by decide
  have kept : (u.filter (some c) >>= fun v => t.mergeByPosition v) = .ok w := by decide +kernel
  have refused : (t.filter (some d) >>= fun v => v.mergeByPosition u) = .error conflict := by
    decide
  refine ⟨⟨ht, hu, types, ownRight, ownLeft⟩, kept, ?_, refused, ?_⟩
  · exact ((filter_of_joined ht hu types c).2 ownRight).trans kept
  · exact ((filter_of_joined ht hu types d).1 ownLeft).trans refused

end Table
end Relational
