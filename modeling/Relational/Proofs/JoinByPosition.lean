import Relational.Proofs.Cells

/-!
# The join by position is the join

For tables that fit their schemas, every position that the join reads is there. The marks fall on
the columns whose names the first table has too, in the schema and in every row alike, so what is
computed by position is the natural join.
-/
namespace Relational

section Marks

theorem markPositions_eq_ok {marks : List Bool} {ps : List (Nat × Nat)}
    (h : ∀ p ∈ ps, p.2 < marks.length) :
    ∃ marked, markPositions marks ps = .ok marked ∧ marked.length = marks.length ∧
      ∀ j < marks.length, (marked[j]? = some true ↔ marks[j]? = some true ∨ ∃ i, (i, j) ∈ ps) := by
  induction ps generalizing marks with
  | nil => exact ⟨marks, rfl, rfl, by simp⟩
  | cons p ps ih =>
    obtain ⟨i, k⟩ := p
    have hk : k < marks.length := h (i, k) List.mem_cons_self
    have rest : ∀ p ∈ ps, p.2 < (marks.set k true).length := by
      intro p hp
      rw [List.length_set]
      exact h p (List.mem_cons_of_mem _ hp)
    obtain ⟨marked, run, length, spec⟩ := ih rest
    rw [List.length_set] at length spec
    refine ⟨marked, ?_, length, ?_⟩
    · rw [markPositions, if_pos hk, run]
    · intro j hj
      rw [spec j hj]
      by_cases hjk : j = k
      · subst hjk
        simp [hj]
      · simp [List.getElem?_set_ne (Ne.symm hjk), hjk]

theorem unmarked_eq_ok {marks : List Bool} {xs : List α} {j : Nat}
    (h : j + xs.length ≤ marks.length) :
    unmarked marks j xs = .ok ((((marks.drop j).zip xs).filter fun x => !x.1).map Prod.snd) := by
  induction xs generalizing j with
  | nil => simp [unmarked]
  | cons x xs ih =>
    rw [List.length_cons] at h
    have hj : j < marks.length := by omega
    rw [unmarked, List.getElem?_eq_getElem hj, List.drop_eq_getElem_cons hj, List.zip_cons_cons,
      List.filter_cons]
    simp only [ih (show j + 1 + xs.length ≤ marks.length by omega)]
    cases marks[j] <;> rfl

end Marks

namespace Schema

theorem mem_sharedPositions {s t : Schema} {i j : Nat} :
    (i, j) ∈ s.sharedPositions t ↔
      ∃ a b, s.attributes[i]? = some a ∧ t.attributes[j]? = some b ∧ a.name = b.name := by
  simp only [sharedPositions, List.mem_flatMap, List.mem_map, List.mem_filter,
    List.mem_zipIdx_iff_getElem?, Prod.exists, Prod.mk.injEq, beq_iff_eq]
  constructor
  · rintro ⟨a, _, ha, b, _, ⟨hb, named⟩, rfl, rfl⟩
    exact ⟨a, b, ha, hb, named⟩
  · rintro ⟨a, b, ha, hb, named⟩
    exact ⟨a, i, ha, b, j, ⟨hb, named⟩, rfl, rfl⟩

/-- For each column of `t`, whether `s` has a column of its name. -/
def marksOf (s t : Schema) : List Bool := t.attributes.map fun a => s.names.contains a.name

@[simp] theorem length_marksOf (s t : Schema) : (s.marksOf t).length = t.length := by
  simp [marksOf, length]

theorem markPositions_shared (s t : Schema) :
    markPositions (List.replicate t.length false) (s.sharedPositions t) = .ok (s.marksOf t) := by
  have bounds : ∀ p ∈ s.sharedPositions t, p.2 < (List.replicate t.length false).length := by
    rintro ⟨i, j⟩ hp
    obtain ⟨_, b, _, hb, _⟩ := mem_sharedPositions.1 hp
    rw [List.length_replicate]
    exact (List.getElem?_eq_some_iff.1 hb).1
  obtain ⟨marked, run, size, spec⟩ := markPositions_eq_ok bounds
  rw [List.length_replicate] at size spec
  have same : marked = s.marksOf t := by
    apply List.ext_getElem (by simp [size])
    intro j hj _
    have hj : j < t.length := size ▸ hj
    have here := spec j hj
    rw [List.getElem?_eq_getElem (size ▸ hj), List.getElem?_replicate, if_pos hj] at here
    simp only [marksOf, List.getElem_map]
    rw [Bool.eq_iff_iff, List.contains_iff_mem, ← Option.some.injEq, here]
    constructor
    · rintro (h | ⟨i, hi⟩)
      · cases h
      · obtain ⟨a, b, ha, hb, named⟩ := mem_sharedPositions.1 hi
        obtain ⟨_, hb⟩ := List.getElem?_eq_some_iff.1 hb
        rw [hb, ← named]
        exact List.mem_map_of_mem (List.mem_of_getElem? ha)
    · intro h
      obtain ⟨a, ha, named⟩ := List.mem_map.1 h
      obtain ⟨i, hi, rfl⟩ := List.getElem_of_mem ha
      exact .inr ⟨i, mem_sharedPositions.2
        ⟨_, _, List.getElem?_eq_getElem hi, List.getElem?_eq_getElem hj, named⟩⟩
  rw [run, same]

/-- Leaving out what is marked leaves what belongs to the columns that are not shared. -/
theorem unmarked_marksOf {s t : Schema} {xs : List α} (h : xs.length = t.length) :
    unmarked (s.marksOf t) 0 xs = .ok (s.unshared t xs) := by
  rw [unmarked_eq_ok (by simp [h]), List.drop_zero, unshared, marksOf]
  congr 1
  clear h
  generalize t.attributes = as
  induction xs generalizing as with
  | nil => simp
  | cons x xs ih =>
    cases as with
    | nil => rfl
    | cons a as =>
      rw [List.map_cons, List.zip_cons_cons, List.zip_cons_cons, List.filter_cons, List.filter_cons]
      cases s.names.contains a.name with
      | true => exact ih as
      | false => exact congrArg (x :: ·) (ih as)

theorem agree_iff {s t : Schema} {xs ys : List Value} :
    s.agree t xs ys = true ↔
      ∀ (i : Nat) (a : Attribute) (x : Value) (j : Nat) (b : Attribute) (y : Value),
      s.attributes[i]? = some a → xs[i]? = some x →
      t.attributes[j]? = some b → ys[j]? = some y → a.name = b.name → x = y := by
  simp only [agree, List.all_eq_true, Bool.or_eq_true, bne_iff_ne, beq_iff_eq, Prod.forall]
  constructor
  · intro h i a x j b y ha hx hb hy named
    have first := List.mem_of_getElem? (List.getElem?_zip_eq_some.2 ⟨ha, hx⟩ :
      (s.attributes.zip xs)[i]? = some (a, x))
    have second := List.mem_of_getElem? (List.getElem?_zip_eq_some.2 ⟨hb, hy⟩ :
      (t.attributes.zip ys)[j]? = some (b, y))
    exact (h a x first b y second).resolve_left fun hne => hne named
  · intro h a x first b y second
    obtain ⟨i, first⟩ := List.mem_iff_getElem?.1 first
    obtain ⟨j, second⟩ := List.mem_iff_getElem?.1 second
    obtain ⟨ha, hx⟩ := List.getElem?_zip_eq_some.1 first
    obtain ⟨hb, hy⟩ := List.getElem?_zip_eq_some.1 second
    by_cases named : a.name = b.name
    · exact .inr (h i a x j b y ha hx hb hy named)
    · exact .inl named

end Schema

namespace Row

theorem agreesAt_eq_ok {r q : Row} {ps : List (Nat × Nat)}
    (h : ∀ p ∈ ps, p.1 < r.length ∧ p.2 < q.length) :
    r.agreesAt q ps = .ok (ps.all fun p => r.values[p.1]? == q.values[p.2]?) := by
  induction ps with
  | nil => rfl
  | cons p ps ih =>
    obtain ⟨i, j⟩ := p
    obtain ⟨hi, hj⟩ := h (i, j) List.mem_cons_self
    have rest := ih fun p hp => h p (List.mem_cons_of_mem _ hp)
    have first : r.values[i]? = some (r.values.get ⟨i, hi⟩) := List.getElem?_eq_getElem hi
    have second : q.values[j]? = some (q.values.get ⟨j, hj⟩) := List.getElem?_eq_getElem hj
    rw [agreesAt, read_of_lt hi, read_of_lt hj, List.all_cons, first, second]
    by_cases same : r.values.get ⟨i, hi⟩ = q.values.get ⟨j, hj⟩
    · simp only [bind, Except.bind, same, if_true, rest, beq_self_eq_true, Bool.true_and]
    · have differ : (some (r.values.get ⟨i, hi⟩) == some (q.values.get ⟨j, hj⟩)) = false := by
        simpa using same
      simp only [bind, Except.bind, same, if_false, differ, Bool.false_and]
      rfl

theorem agreesAt_shared {s t : Schema} {r q : Row} (hr : r.length = s.length)
    (hq : q.length = t.length) :
    r.agreesAt q (s.sharedPositions t) = .ok (s.agree t r.values q.values) := by
  have bounds : ∀ p ∈ s.sharedPositions t, p.1 < r.length ∧ p.2 < q.length := by
    rintro ⟨i, j⟩ hp
    obtain ⟨a, b, ha, hb, -⟩ := Schema.mem_sharedPositions.1 hp
    rw [hr, hq]
    exact ⟨(List.getElem?_eq_some_iff.1 ha).1, (List.getElem?_eq_some_iff.1 hb).1⟩
  rw [agreesAt_eq_ok bounds]
  congr 1
  rw [Bool.eq_iff_iff, Schema.agree_iff, List.all_eq_true]
  constructor
  · intro h i a x j b y ha hx hb hy named
    have same := h (i, j) (Schema.mem_sharedPositions.2 ⟨a, b, ha, hb, named⟩)
    rw [beq_iff_eq, hx, hy] at same
    exact Option.some.inj same
  · rintro h ⟨i, j⟩ hp
    obtain ⟨a, b, ha, hb, named⟩ := Schema.mem_sharedPositions.1 hp
    obtain ⟨hi, hj⟩ := bounds (i, j) hp
    have first : r.values[i]? = some r.values[i] := List.getElem?_eq_getElem hi
    have second : q.values[j]? = some q.values[j] := List.getElem?_eq_getElem hj
    rw [beq_iff_eq, first, second, h i a _ j b _ ha first hb second named]

theorem joinedWith_eq_ok {s t : Schema} {r : Row} {qs : List Row} (hr : r.length = s.length)
    (hqs : ∀ q ∈ qs, q.length = t.length) :
    r.joinedWith (s.sharedPositions t) (s.marksOf t) qs =
      .ok ((qs.filter fun q => s.agree t r.values q.values).map fun q =>
        r.extended (s.unshared t q.values)) := by
  induction qs with
  | nil => rfl
  | cons q qs ih =>
    have hq := hqs q List.mem_cons_self
    have rest := ih fun q hq => hqs q (List.mem_cons_of_mem _ hq)
    rw [joinedWith, agreesAt_shared hr hq, Schema.unmarked_marksOf (s := s) hq, rest,
      List.filter_cons]
    cases s.agree t r.values q.values <;> rfl

end Row

namespace Table

theorem mergeByPosition_eq {t u : Table} (ht : t.Fits) (hu : u.Fits) :
    t.mergeByPosition u = .ok (t.merge u) := by
  have rows : t.rows.mapM (fun r => r.joinedWith (t.schema.sharedPositions u.schema)
      (t.schema.marksOf u.schema) u.rows) = .ok (t.rows.map fun r =>
        (u.rows.filter fun q => t.schema.agree u.schema r.values q.values).map fun q =>
          r.extended (t.schema.unshared u.schema q.values)) := by
    rw [mapM_eq_ok, List.forall₂_map_right_iff, List.forall₂_same]
    exact fun r hr => Row.joinedWith_eq_ok (ht r hr) hu
  refine bind_eq_ok.2 ⟨_, Schema.markPositions_shared t.schema u.schema, ?_⟩
  refine bind_eq_ok.2 ⟨_, Schema.unmarked_marksOf rfl, ?_⟩
  refine bind_eq_ok.2 ⟨_, rows, ?_⟩
  rw [merge, List.flatMap_def]
  rfl

theorem Fits.merge {t u : Table} (ht : t.Fits) (hu : u.Fits) : (t.merge u).Fits :=
  (Cells.merge (fits_iff_cells.1 ht) (fits_iff_cells.1 hu)).fits

theorem mergeAllByPosition?_eq {ts : List Table} (h : ∀ t ∈ ts, t.Fits) :
    mergeAllByPosition? ts = .ok (mergeAll? ts) := by
  have fold : ∀ {ts : List Table} {t : Table}, t.Fits → (∀ u ∈ ts, u.Fits) →
      ts.foldlM mergeByPosition t = .ok (ts.foldl merge t) := by
    intro ts
    induction ts with
    | nil => exact fun _ _ => rfl
    | cons u us ih =>
      intro t ht hts
      have hu := hts u List.mem_cons_self
      rw [foldlM_cons_eq_ok]
      refine ⟨_, mergeByPosition_eq ht hu, ?_⟩
      exact ih (ht.merge hu) fun v hv => hts v (List.mem_cons_of_mem _ hv)
  cases ts with
  | nil => rfl
  | cons t ts =>
    have rest := fold (h t List.mem_cons_self) fun u hu => h u (List.mem_cons_of_mem _ hu)
    rw [mergeAllByPosition?, rest]
    rfl

end Table
end Relational
