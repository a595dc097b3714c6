import Relational.Proofs.ReadableNumbers

/-!
# What a filter selects

A condition is checked against the schema, and a condition that passes this check can be tested on
every row of typed cells. So filtering is resolving the condition, and then keeping the rows that
satisfy it. Two values that are there always stand to each other in one of three ways, and which way
it is does not depend on the comparison that asks. So the six comparisons of two sides divide the
rows among them. Only a literal that no query can write, the number without a place in the order, is
in none of the three ways.
-/
namespace Relational

/-- Whether a row satisfies a condition. A condition that does not fit the schema is satisfied by no
row. -/
def Condition.selects (c : Condition) (s : Schema) (r : Row) : Bool :=
  match Test.resolve s c with
  | .ok test => decide (test.passes r = .ok true)
  | .error _ => false

/-- The right side of a condition as queries have it: any column, or a literal that can be read. -/
inductive Expr.Readable : Expr → Prop
  | column (name : String) : Readable (.column name)
  | literal {text : String} {values : List Value} {v : Value} :
    Query.readLiterals text = .ok values → v ∈ values → Readable (.literal v)

namespace Test

variable {s : Schema} {c : Condition} {test : Test} {t : Table} {r : Row}

theorem resolve_eq_ok : resolve s c = .ok test ↔
    ∃ i type operand type?, s.resolve c.column = .ok (i, type) ∧
      Operand.resolve s c.right = .ok (operand, type?) ∧
      (∀ other ∈ type?, other = .string ↔ type = .string) ∧
      test = ⟨i, c.comparison, operand, decide (type = .string)⟩ := by
  have agree (type : ColumnType) (type? : Option ColumnType) :
      (type?.all fun other => decide (other = .string) == decide (type = .string)) = true ↔
        ∀ other ∈ type?, other = .string ↔ type = .string := by
    cases type? <;> simp
  constructor
  · intro h
    obtain ⟨⟨i, type⟩, left, h⟩ := bind_eq_ok.1 h
    obtain ⟨⟨operand, type?⟩, right, h⟩ := bind_eq_ok.1 h
    dsimp only at h
    split at h
    · next same =>
      cases h
      exact ⟨i, type, operand, type?, left, right, (agree type type?).1 same, rfl⟩
    · cases h
  · rintro ⟨i, type, operand, type?, left, right, same, rfl⟩
    refine bind_eq_ok.2 ⟨_, left, bind_eq_ok.2 ⟨_, right, ?_⟩⟩
    exact if_pos ((agree type type?).2 same)

theorem resolve_comparison {name : String} {asked : Comparison} {right : Expr} (other : Comparison)
    (h : resolve s ⟨name, asked, right⟩ = .ok test) :
    resolve s ⟨name, other, right⟩ = .ok { test with comparison := other } := by
  obtain ⟨i, type, operand, type?, left, right, same, rfl⟩ := resolve_eq_ok.1 h
  exact resolve_eq_ok.2 ⟨i, type, operand, type?, left, right, same, rfl⟩

def ordering (textual : Bool) (l m : String) : Except Error (Option Ordering) :=
  if textual then .ok (some (compare l m)) else do return (← number l).compare? (← number m)

theorem compares_literal (test : Test) (l m : String) :
    test.compares (.literal l) (.literal m) =
      (ordering test.textual l m).map test.comparison.holds := by
  cases kind : test.textual with
  | true => simp [compares, ordering, kind, Except.map]
  | false =>
    simp only [compares, ordering, kind]
    cases number l with
    | error e => rfl
    | ok x => cases number m <;> rfl

theorem compares_missing (test : Test) {l m : Value} (h : l = .noValue ∨ m = .noValue) :
    test.compares l m = .ok false := by
  rcases h with rfl | rfl
  · rfl
  · cases l <;> rfl

theorem exists_ordering {textual : Bool} {l m : String}
    (hl : textual = false → ∃ x, number l = .ok x)
    (hm : textual = false → ∃ x, number m = .ok x) : ∃ o, ordering textual l m = .ok o := by
  cases textual with
  | true => exact ⟨_, rfl⟩
  | false =>
    obtain ⟨x, hx⟩ := hl rfl
    obtain ⟨y, hy⟩ := hm rfl
    exact ⟨x.compare? y, by simp [ordering, hx, hy, bind, Except.bind, pure, Except.pure]⟩

theorem isSome_ordering {textual : Bool} {l m : String} {o : Option Ordering}
    (hl : textual = false → IsOrdered l) (hm : textual = false → IsOrdered m)
    (h : ordering textual l m = .ok o) : o.isSome = true := by
  cases textual with
  | true =>
    cases h
    rfl
  | false =>
    obtain ⟨x, i, hx, hi⟩ := hl rfl
    obtain ⟨y, j, hy, hj⟩ := hm rfl
    simp only [ordering, hx, hy, bind, Except.bind, pure, Except.pure] at h
    cases h
    simp [Binary64.compare?, hi, hj]

def BothPresent (test : Test) (r : Row) : Prop :=
  ∃ l m, r.read test.left = .ok (.literal l) ∧ test.right.value r = .ok (.literal m)

theorem exists_read (h : t.Typed) {name : String} {i : Nat} {type : ColumnType}
    (hi : t.schema.resolve name = .ok (i, type)) (hr : r ∈ t.rows) :
    ∃ v, r.read i = .ok v ∧ v.HasType type := by
  obtain ⟨a, ha, -, rfl⟩ := Schema.resolve_eq_ok hi
  exact h.exists_read ha hr

theorem isOrdered_of_hasType {v : Value} {type : ColumnType} {l : String} (h : v.HasType type)
    (numeric : type ≠ .string) (hl : l ∈ v.literal?) : IsOrdered l := by
  cases v with
  | noValue => cases hl
  | literal text =>
    cases hl
    exact isOrdered_of_ofLiteral? h numeric

/-- The right side has a value in a row of typed cells. If it has a type and is no string, it is
compared as a number. -/
theorem exists_value (h : t.Typed) {e : Expr} {operand : Operand} {type? : Option ColumnType}
    (he : Operand.resolve t.schema e = .ok (operand, type?)) (hr : r ∈ t.rows) :
    ∃ v, operand.value r = .ok v ∧ ∀ m ∈ v.literal?, ∃ type ∈ type?, type ≠ .string →
      (∃ x, number m = .ok x) ∧ (e.Readable → IsOrdered m) := by
  unfold Operand.resolve at he
  split at he
  · obtain ⟨⟨i, type⟩, hi, he⟩ := bind_eq_ok.1 he
    cases he
    obtain ⟨v, hv, typed⟩ := exists_read h hi hr
    refine ⟨v, hv, fun m hm => ⟨type, rfl, fun numeric => ?_⟩⟩
    have ordered := isOrdered_of_hasType typed numeric hm
    exact ⟨ordered.exists_number, fun _ => ordered⟩
  · next v =>
    cases he
    refine ⟨v, rfl, fun m hm => ?_⟩
    cases v with
    | noValue => cases hm
    | literal text =>
      cases hm
      refine ⟨_, rfl, fun numeric => ⟨exists_number_of_ofOperand numeric, fun readable => ?_⟩⟩
      cases readable with
      | literal read member =>
        have written := Query.written_of_readLiterals (K := fun _ => True) (fun _ _ => trivial) read
        exact isOrdered_of_written (written _ member) numeric
  · cases he

/-- A test of typed cells never goes wrong. If a side is missing no comparison holds, and otherwise
the two sides stand to each other in a way that does not depend on the comparison. -/
theorem passes_cases (h : t.Typed) (hc : resolve t.schema c = .ok test) (hr : r ∈ t.rows) :
    (¬ test.BothPresent r ∧
        ∀ other, ({ test with comparison := other } : Test).passes r = .ok false) ∨
      test.BothPresent r ∧ ∃ o : Option Ordering, (c.right.Readable → o.isSome = true) ∧
        ∀ other : Comparison,
          ({ test with comparison := other } : Test).passes r = .ok (other.holds o) := by
  obtain ⟨i, type, operand, type?, left, right, same, rfl⟩ := resolve_eq_ok.1 hc
  obtain ⟨v, hv, typed⟩ := exists_read h left hr
  obtain ⟨w, hw, comparable⟩ := exists_value h right hr
  have passes (test : Test) (hleft : test.left = i) (hright : test.right = operand) :
      test.passes r = test.compares v w := by
    subst hleft hright
    simp [Test.passes, hv, hw, bind, Except.bind]
  by_cases missing : v = .noValue ∨ w = .noValue
  · refine .inl ⟨?_, fun other => ?_⟩
    · rintro ⟨l, m, hl, hm⟩
      rcases missing with rfl | rfl
      · cases hv.symm.trans hl
      · cases hw.symm.trans hm
    · rw [passes _ rfl rfl, compares_missing _ missing]
  · cases v with
    | noValue => exact absurd (.inl rfl) missing
    | literal l =>
      cases w with
      | noValue => exact absurd (.inr rfl) missing
      | literal m =>
        obtain ⟨other, hother, numeric⟩ := comparable m rfl
        have strings : decide (type = .string) = false → type ≠ .string := of_decide_eq_false
        have leftOrdered := fun ht => isOrdered_of_hasType typed (strings ht) rfl
        have rightNumber := fun ht =>
          numeric fun string => strings ht ((same other hother).1 string)
        obtain ⟨o, ho⟩ := exists_ordering (fun ht => (leftOrdered ht).exists_number)
          fun ht => (rightNumber ht).1
        refine .inr ⟨⟨l, m, hv, hw⟩, o, fun readable => ?_, fun comparison => ?_⟩
        · exact isSome_ordering leftOrdered (fun ht => (rightNumber ht).2 readable) ho
        · rw [passes _ rfl rfl, compares_literal]
          simp [ho, Except.map]

theorem exists_passes (h : t.Typed) (hc : resolve t.schema c = .ok test) (hr : r ∈ t.rows) :
    ∃ passed, test.passes r = .ok passed := by
  rcases passes_cases h hc hr with ⟨-, failed⟩ | ⟨-, o, -, passed⟩
  · exact ⟨_, failed test.comparison⟩
  · exact ⟨_, passed test.comparison⟩

theorem passes_eq_selects (hc : resolve s c = .ok test)
    (h : ∃ passed, test.passes r = .ok passed) : test.passes r = .ok (c.selects s r) := by
  obtain ⟨passed, hp⟩ := h
  simp only [Condition.selects, hc, hp]
  cases passed <;> rfl

theorem passes_eq (h : t.Typed) (hc : resolve t.schema c = .ok test) (hr : r ∈ t.rows) :
    test.passes r = .ok (c.selects t.schema r) :=
  passes_eq_selects hc (exists_passes h hc hr)

/-- A row in which a side is missing satisfies no comparison of the two sides. Any other row has
them in one order, and that decides all six. -/
theorem selects_cases (h : t.Typed) {name : String} {asked : Comparison} {right : Expr}
    (readable : right.Readable) (hc : resolve t.schema ⟨name, asked, right⟩ = .ok test)
    (hr : r ∈ t.rows) :
    (¬ test.BothPresent r ∧
        ∀ other, Condition.selects ⟨name, other, right⟩ t.schema r = false) ∨
      test.BothPresent r ∧ ∃ o : Ordering, ∀ other : Comparison,
        Condition.selects ⟨name, other, right⟩ t.schema r = other.holds (some o) := by
  have selects (other : Comparison) := passes_eq h (resolve_comparison other hc) hr
  rcases passes_cases h hc hr with ⟨missing, failed⟩ | ⟨present, o, ordered, passed⟩
  · exact .inl ⟨missing, fun other => Except.ok.inj ((selects other).symm.trans (failed other))⟩
  · obtain ⟨order, rfl⟩ := Option.isSome_iff_exists.1 (ordered readable)
    refine .inr ⟨present, order, fun other => ?_⟩
    exact Except.ok.inj ((selects other).symm.trans (passed other))

end Test

namespace Table

variable {t u : Table} {c : Condition} {test : Test}

theorem filter_zip_map {α : Type} (f : α → Bool) (xs : List α) :
    ((xs.zip (xs.map f)).filter Prod.snd).map Prod.fst = xs.filter f := by
  induction xs with
  | nil => rfl
  | cons x xs ih =>
    rw [List.map_cons, List.zip_cons_cons, List.filter_cons, List.filter_cons]
    cases f x <;> simp [ih]

section Tested
variable (hc : Test.resolve t.schema c = .ok test)
  (h : ∀ r ∈ t.rows, ∃ passed, test.passes r = .ok passed)
include hc h

theorem selection_of_passes : t.selection c = .ok (t.rows.map (c.selects t.schema)) := by
  refine bind_eq_ok.2 ⟨test, hc, mapM_eq_ok.2 ?_⟩
  rw [List.forall₂_map_right_iff, List.forall₂_same]
  exact fun r hr => Test.passes_eq_selects hc (h r hr)

theorem filter_of_passes :
    t.filter (some c) = .ok ⟨t.schema, t.rows.filter (c.selects t.schema)⟩ := by
  refine bind_eq_ok.2 ⟨_, selection_of_passes hc h, ?_⟩
  rw [filter_zip_map]
  rfl

end Tested

theorem Typed.selection_eq (h : t.Typed) (hc : Test.resolve t.schema c = .ok test) :
    t.selection c = .ok (t.rows.map (c.selects t.schema)) :=
  selection_of_passes hc fun _ hr => Test.exists_passes h hc hr

theorem Typed.filter_rows (h : t.Typed) (p : Row → Bool) : Typed ⟨t.schema, t.rows.filter p⟩ :=
  Cells.of_subset h rfl fun _ hr => List.mem_of_mem_filter hr

theorem Typed.filter_eq (h : t.Typed) (c : Condition) : t.filter (some c) =
    (Test.resolve t.schema c).map fun _ => ⟨t.schema, t.rows.filter (c.selects t.schema)⟩ := by
  cases hc : Test.resolve t.schema c with
  | error e => simp [filter, selection, hc, bind, Except.bind, Except.map]
  | ok test => exact filter_of_passes hc fun _ hr => Test.exists_passes h hc hr

theorem Typed.filter_eq_ok (h : t.Typed) : t.filter (some c) = .ok u ↔
    (∃ test, Test.resolve t.schema c = .ok test) ∧
      u = ⟨t.schema, t.rows.filter (c.selects t.schema)⟩ := by
  rw [h.filter_eq, map_eq_ok]
  constructor
  · rintro ⟨test, hc, rfl⟩
    exact ⟨⟨test, hc⟩, rfl⟩
  · rintro ⟨⟨test, hc⟩, rfl⟩
    exact ⟨test, hc, rfl⟩

/-- A condition that fits the schema is never refused on account of the rows, and one that does not
is refused whatever the rows are, even if there are none. -/
theorem filter_eq_error_iff (h : t.Typed) (c : Condition) :
    (∀ e, t.filter (some c) = .error e ↔ (empty t.schema).filter (some c) = .error e) ∧
      (∀ e, t.filter (some c) = .error e ↔ Test.resolve t.schema c = .error e) ∧
      ∀ test, Test.resolve t.schema c = .ok test →
        (∀ r ∈ t.rows, ∃ passed, test.passes r = .ok passed) ∧
          ∃ u, t.filter (some c) = .ok u := by
  have refused : ∀ w : Table, w.Typed → ∀ e,
      w.filter (some c) = .error e ↔ Test.resolve w.schema c = .error e := by
    intro w hw e
    rw [hw.filter_eq, map_eq_error]
  refine ⟨fun e => ?_, refused t h, fun test hc => ⟨fun r hr => ?_, ?_⟩⟩
  · rw [refused t h, refused _ (typed_empty t.schema), schema_empty]
  · exact Test.exists_passes h hc hr
  · exact ⟨_, h.filter_eq_ok.2 ⟨⟨test, hc⟩, rfl⟩⟩

/-- A type conflict is found without rows, and a number is compared however it is written. -/
theorem filter_eq_error_of_mixed_kinds :
    let t : Table := ⟨⟨[⟨"s", .string⟩, ⟨"n", .int⟩]⟩, [⟨[.literal "'7'", .literal "+7"]⟩]⟩
    let conflict : Error := .typeConflict .comparedKinds
    t.Typed ∧ (empty t.schema).filter (some ⟨"s", .eq, .column "n"⟩) = .error conflict ∧
      t.filter (some ⟨"s", .eq, .column "n"⟩) = .error conflict ∧
      ∃ u, t.filter (some ⟨"n", .lt, .literal (.literal " 7e0 ")⟩) = .ok u := by
  intro t conflict
  have typed : t.Typed := by unfold Typed Cells; decide
  have onEmpty : (empty t.schema).filter (some ⟨"s", .eq, .column "n"⟩) = .error conflict := by
    decide
  refine ⟨typed, onEmpty, ((filter_eq_error_iff typed _).1 conflict).2 onEmpty, ?_⟩
  exact ((filter_eq_error_iff typed _).2.2 ⟨1, .lt, .literal (.literal " 7e0 "), false⟩
    (by decide +kernel)).2

/-- The six comparisons of two sides divide the rows among them. Each of the rows in which both
sides have a value is selected by exactly one of `<`, `==` and `>`, and the other rows by none of
these; the other three comparisons select what two of these do. What is selected comes in the order
of the table, and selecting it again changes nothing. -/
theorem filter_partition (h : t.Typed) {name : String} {asked : Comparison} {right : Expr}
    (readable : right.Readable) (hc : Test.resolve t.schema ⟨name, asked, right⟩ = .ok test) :
    let selected (c : Comparison) (r : Row) : Bool := Condition.selects ⟨name, c, right⟩ t.schema r
    (∀ c, t.selection ⟨name, c, right⟩ = .ok (t.rows.map (selected c)) ∧
      ∃ u, t.filter (some ⟨name, c, right⟩) = .ok u ∧ u.schema = t.schema ∧
        u.rows = t.rows.filter (selected c) ∧ u.rows.Sublist t.rows ∧
        u.filter (some ⟨name, c, right⟩) = .ok u) ∧
    ∀ r ∈ t.rows,
      (selected .lt r = true ∨ selected .eq r = true ∨ selected .gt r = true ↔
        test.BothPresent r) ∧
      ¬ (selected .lt r = true ∧ selected .eq r = true) ∧
      ¬ (selected .eq r = true ∧ selected .gt r = true) ∧
      ¬ (selected .lt r = true ∧ selected .gt r = true) ∧
      selected .le r = (selected .lt r || selected .eq r) ∧
      selected .ge r = (selected .gt r || selected .eq r) ∧
      selected .ne r = (selected .lt r || selected .gt r) := by
  intro selected
  constructor
  · intro c
    have resolved := Test.resolve_comparison c hc
    have filtered : t.filter (some ⟨name, c, right⟩) = .ok ⟨t.schema, t.rows.filter (selected c)⟩ :=
      h.filter_eq_ok.2 ⟨⟨_, resolved⟩, rfl⟩
    refine ⟨h.selection_eq resolved, _, filtered, rfl, rfl, List.filter_sublist, ?_⟩
    refine (h.filter_rows (selected c)).filter_eq_ok.2 ⟨⟨_, resolved⟩, ?_⟩
    rw [List.filter_filter]
    simp only [selected, Bool.and_self]
  · intro r hr
    rcases Test.selects_cases h readable hc hr with ⟨missing, unordered⟩ | ⟨present, o, ordered⟩
    · simp [selected, unordered, missing]
    · cases o <;> simp [selected, ordered, present, Comparison.holds]

theorem filter_partition_of_int_and_float :
    let rows : List Row := [⟨[.literal "1", .literal "1.000"]⟩, ⟨[.literal "2", .noValue]⟩,
      ⟨[.literal "-3", .literal "0.500"]⟩, ⟨[.literal "007", .literal "6.999"]⟩]
    let t : Table := ⟨⟨[⟨"n", .int⟩, ⟨"x", .float⟩]⟩, rows⟩
    let c (comparison : Comparison) : Condition := ⟨"n", comparison, .column "x"⟩
    t.Typed ∧ (c .eq).right.Readable ∧
      Test.resolve t.schema (c .eq) = .ok ⟨0, .eq, .column 1, false⟩ ∧
      (∃ u, t.filter (some (c .ne)) = .ok u ∧ u.rows = [rows[2], rows[3]] ∧
        u.filter (some (c .ne)) = .ok u) ∧
      ∀ r ∈ t.rows, (c .ne).selects t.schema r =
        ((c .lt).selects t.schema r || (c .gt).selects t.schema r) := by
  intro rows t c
  have typed : t.Typed := by unfold Typed Cells; decide +kernel
  have resolved : Test.resolve t.schema (c .eq) = .ok ⟨0, .eq, .column 1, false⟩ := by decide
  obtain ⟨selections, divided⟩ := filter_partition typed (.column "x") resolved
  obtain ⟨-, u, filtered, -, kept, -, again⟩ := selections .ne
  refine ⟨typed, .column "x", resolved, ⟨u, filtered, ?_, again⟩, ?_⟩
  · rw [kept]
    decide +kernel
  · intro r hr
    obtain ⟨-, -, -, -, -, -, differ⟩ := divided r hr
    exact differ

end Table
end Relational
