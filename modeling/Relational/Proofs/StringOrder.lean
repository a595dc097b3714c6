import Mathlib.Data.String.Basic
import Relational.Proofs.Indexing

/-!
# Comparing strings

Strings are stored with their quotes, and it is the stored texts that a condition compares. The
quotes at the front make no difference. The quote at the end of a string that the other one goes on
after stands against the next character of the other, and the other one comes first if that
character is before the quote: a space is, and so are `!`, `"`, `#`, `$`, `%` and `&`. In all other
cases the order of the stored texts is that of the contents.
-/
namespace Relational

/-- What a comparison says of two texts. Texts are in the order of their code points, and a text
comes before all texts that go on after it. -/
def Comparison.Relates : Comparison → String → String → Prop
  | .eq, u, v => u = v
  | .ne, u, v => u ≠ v
  | .le, u, v => u ≤ v
  | .ge, u, v => v ≤ u
  | .lt, u, v => u < v
  | .gt, u, v => v < u

instance (u v : String) : (c : Comparison) → Decidable (c.Relates u v)
  | .eq => inferInstanceAs (Decidable (u = v))
  | .ne => inferInstanceAs (Decidable (u ≠ v))
  | .le => inferInstanceAs (Decidable (u ≤ v))
  | .ge => inferInstanceAs (Decidable (v ≤ u))
  | .lt => inferInstanceAs (Decidable (u < v))
  | .gt => inferInstanceAs (Decidable (v < u))

theorem Comparison.holds_compare_iff (c : Comparison) (u v : String) :
    c.holds (some (compare u v)) = true ↔ c.Relates u v := by
  rcases lt_trichotomy u v with less | rfl | greater
  · have order : compare u v = .lt := compare_lt_iff_lt.2 less
    cases c <;> simp [holds, order, Relates, less, less.le, less.ne, less.not_ge, less.not_gt]
  · cases c <;> simp [holds, Relates]
  · have order : compare u v = .gt := compare_gt_iff_gt.2 greater
    cases c <;>
      simp [holds, order, Relates, greater, greater.le, greater.ne', greater.not_ge, greater.not_gt]

/-- The second text goes on where the first one ends, with a character that comes before a quote. -/
def Overtakes (u v : List Char) : Prop := ∃ c rest, v = u ++ c :: rest ∧ c < '\''

section Overtakes
variable {a b : Char} {u v : List Char}

theorem overtakes_nil_cons : Overtakes [] (b :: v) ↔ b < '\'' := by
  simp [Overtakes]

theorem not_overtakes_nil : ¬ Overtakes u [] := by
  simp [Overtakes]

theorem overtakes_cons_cons : Overtakes (a :: u) (b :: v) ↔ a = b ∧ Overtakes u v := by
  simp only [Overtakes, List.cons_append, List.cons.injEq]
  constructor
  · rintro ⟨c, rest, ⟨rfl, rfl⟩, below⟩
    exact ⟨rfl, c, rest, rfl, below⟩
  · rintro ⟨rfl, c, rest, rfl, below⟩
    exact ⟨c, rest, ⟨rfl, rfl⟩, below⟩

instance decidableOvertakes : (u v : List Char) → Decidable (Overtakes u v)
  | _, [] => .isFalse not_overtakes_nil
  | [], b :: _ => decidable_of_iff (b < '\'') overtakes_nil_cons.symm
  | a :: u, b :: v =>
    have := decidableOvertakes u v
    decidable_of_iff (a = b ∧ Overtakes u v) overtakes_cons_cons.symm

theorem Overtakes.lt (h : Overtakes u v) : u < v := by
  obtain ⟨c, rest, rfl, -⟩ := h
  have longer : u ++ [] < u ++ c :: rest := List.append_left_lt (List.nil_lt_cons c rest)
  simpa using longer

/-- With a quote at their ends, two texts change places exactly where one overtakes the other. -/
theorem ended_lt_ended_iff (hu : '\'' ∉ u) (hv : '\'' ∉ v) :
    u ++ ['\''] < v ++ ['\''] ↔ u < v ∧ ¬ Overtakes u v ∨ Overtakes v u := by
  induction u generalizing v with
  | nil =>
    cases v with
    | nil => simp [not_overtakes_nil]
    | cons b v =>
      have other : '\'' ≠ b := fun same => hv (same ▸ List.mem_cons_self)
      have order : '\'' < b ↔ ¬ b < '\'' := by grind
      simp [List.cons_lt_cons_iff, overtakes_nil_cons, not_overtakes_nil, other, order]
  | cons a u ih =>
    cases v with
    | nil =>
      have other : a ≠ '\'' := fun same => hu (same ▸ List.mem_cons_self)
      simp [List.cons_lt_cons_iff, overtakes_nil_cons, not_overtakes_nil, other]
    | cons b v =>
      have hu' : '\'' ∉ u := fun h => hu (List.mem_cons_of_mem a h)
      have hv' : '\'' ∉ v := fun h => hv (List.mem_cons_of_mem b h)
      rw [List.cons_append, List.cons_append, List.cons_lt_cons_iff, List.cons_lt_cons_iff,
        ih hu' hv', overtakes_cons_cons, overtakes_cons_cons]
      rcases lt_trichotomy a b with less | rfl | greater
      · simp [less, less.ne, less.ne']
      · simp
      · simp [greater.not_gt, greater.ne, greater.ne']

end Overtakes

section Quoted
variable {u v : String}

theorem toList_quoted (u : String) : ("'" ++ u ++ "'").toList = '\'' :: (u.toList ++ ['\'']) := by
  simp

theorem quoted_lt_quoted_iff (hu : '\'' ∉ u.toList) (hv : '\'' ∉ v.toList) :
    "'" ++ u ++ "'" < "'" ++ v ++ "'" ↔
      u < v ∧ ¬ Overtakes u.toList v.toList ∨ Overtakes v.toList u.toList := by
  rw [String.lt_iff_toList_lt, String.lt_iff_toList_lt, toList_quoted, toList_quoted,
    List.cons_lt_cons_iff, ← ended_lt_ended_iff hu hv]
  simp

/-- A comparison of the stored texts says of the contents what it should, unless it asks for their
order and one overtakes the other. -/
theorem Comparison.relates_quoted_iff (c : Comparison) (hu : '\'' ∉ u.toList)
    (hv : '\'' ∉ v.toList) :
    (c.Relates ("'" ++ u ++ "'") ("'" ++ v ++ "'") ↔ c.Relates u v) ↔
      c = .eq ∨ c = .ne ∨ ¬ Overtakes u.toList v.toList ∧ ¬ Overtakes v.toList u.toList := by
  have order := quoted_lt_quoted_iff hu hv
  have reverse := quoted_lt_quoted_iff hv hu
  by_cases ahead : Overtakes u.toList v.toList
  · have less : u < v := String.lt_iff_toList_lt.2 ahead.lt
    have behind : ¬ Overtakes v.toList u.toList := fun h => absurd h.lt ahead.lt.not_gt
    simp only [ahead, behind, not_true, and_false, or_false, or_true] at order reverse
    cases c <;> simp [Relates, ← not_lt, order, reverse, ahead, less, less.not_gt]
  · by_cases behind : Overtakes v.toList u.toList
    · have greater : v < u := String.lt_iff_toList_lt.2 behind.lt
      simp only [ahead, behind, not_true, and_false, or_false, or_true] at order reverse
      cases c <;> simp [Relates, ← not_lt, order, reverse, behind, greater, greater.not_gt]
    · simp only [ahead, behind, not_false_eq_true, and_true, or_false] at order reverse
      cases c <;> simp [Relates, ← not_lt, order, reverse, ahead, behind]

theorem Binary64.read?_quote {s : String} {cs : List Char} (h : s.toList = '\'' :: cs) :
    read? s = none := by
  simp [read?, h, splitSign, readDecimal?, splitFraction, ofName?]

theorem Text.trim_quoted (u : String) : trim ("'" ++ u ++ "'") = "'" ++ u ++ "'" := by
  have visible : isBlank '\'' = false := by decide
  rw [← String.toList_inj, toList_trim, toList_quoted]
  simp [dropBlanks_cons, visible]

theorem ColumnType.ofOperand_quoted (u : String) : ofOperand ("'" ++ u ++ "'") = .string := by
  unfold ofOperand
  rw [Text.trim_quoted, Binary64.read?_quote (toList_quoted u)]

end Quoted

namespace Test

variable {s : Schema} {r : Row} {c : Condition} {i : Nat} {u v : String}

/-- The right side of a condition is a string: a literal, or a column that has it in the row. -/
inductive IsString (s : Schema) (r : Row) (v : String) : Expr → Prop
  | literal : IsString s r v (.literal (.ofString v))
  | column {name : String} {j : Nat} : s.resolve name = .ok (j, .string) →
    r.get? j = some (.ofString v) → IsString s r v (.column name)

theorem IsString.resolve {e : Expr} (h : IsString s r v e) :
    ∃ operand, Operand.resolve s e = .ok (operand, some .string) ∧
      operand.value r = .ok (.ofString v) := by
  cases h with
  | literal =>
    refine ⟨.literal (.ofString v), ?_, rfl⟩
    simp [Operand.resolve, Value.ofString, Value.literal?, ColumnType.ofOperand_quoted]
  | @column name j hj hv =>
    refine ⟨.column j, bind_eq_ok.2 ⟨_, hj, rfl⟩, ?_⟩
    simp [Operand.value, Row.read, hv]

theorem passes_ofString (left : s.resolve c.column = .ok (i, .string))
    (cell : r.get? i = some (.ofString u)) (right : IsString s r v c.right) :
    ∃ test, resolve s c = .ok test ∧ test.passes r =
      .ok (c.comparison.holds (some (compare ("'" ++ u ++ "'") ("'" ++ v ++ "'")))) := by
  obtain ⟨operand, resolved, value⟩ := right.resolve
  refine ⟨⟨i, c.comparison, operand, true⟩, ?_, ?_⟩
  · refine bind_eq_ok.2 ⟨_, left, bind_eq_ok.2 ⟨_, resolved, ?_⟩⟩
    rfl
  · have read : r.read i = .ok (.ofString u) := by simp [Row.read, cell]
    exact bind_eq_ok.2 ⟨_, read, bind_eq_ok.2 ⟨_, value, rfl⟩⟩

/-- Whether a row passes a comparison of strings. It is as the contents of the strings stand to each
other, whenever the comparison asks whether they are equal, and whenever no content overtakes the
other. Where one does, the four other comparisons come out the wrong way. -/
theorem passes_iff_relates (left : s.resolve c.column = .ok (i, .string))
    (cell : r.get? i = some (.ofString u)) (right : IsString s r v c.right)
    (hu : '\'' ∉ u.toList) (hv : '\'' ∉ v.toList) :
    ∃ test passed, resolve s c = .ok test ∧ test.passes r = .ok passed ∧
      ((passed = true ↔ c.comparison.Relates u v) ↔
        c.comparison = .eq ∨ c.comparison = .ne ∨
          ¬ Overtakes u.toList v.toList ∧ ¬ Overtakes v.toList u.toList) := by
  obtain ⟨test, resolved, passed⟩ := passes_ofString left cell right
  refine ⟨test, _, resolved, passed, ?_⟩
  rw [Comparison.holds_compare_iff]
  exact c.comparison.relates_quoted_iff hu hv

theorem passes_iff_relates_of_two_columns :
    let s : Schema := ⟨[⟨"s", .string⟩, ⟨"t", .string⟩]⟩
    let r : Row := ⟨[.ofString "fig", .ofString "fig jam"]⟩
    (∃ test, resolve s ⟨"s", .lt, .column "t"⟩ = .ok test ∧ test.passes r = .ok false) ∧
      ∃ test, resolve s ⟨"t", .lt, .literal (.ofString "figs")⟩ = .ok test ∧
        test.passes r = .ok true := by
  intro s r
  constructor
  · obtain ⟨test, passed, resolved, outcome, agree⟩ :=
      passes_iff_relates (s := s) (r := r) (c := ⟨"s", .lt, .column "t"⟩) (i := 0) (u := "fig")
        (v := "fig jam") (by decide) rfl (.column (j := 1) (by decide) rfl) (by decide) (by decide)
    have wrong := mt agree.1 (by decide)
    cases passed with
    | false => exact ⟨test, resolved, outcome⟩
    | true => exact absurd (iff_of_true rfl (by decide)) wrong
  · obtain ⟨test, passed, resolved, outcome, agree⟩ :=
      passes_iff_relates (s := s) (r := r) (c := ⟨"t", .lt, .literal (.ofString "figs")⟩) (i := 1)
        (u := "fig jam") (v := "figs") (by decide) rfl .literal (by decide) (by decide)
    have right := agree.2 (by decide)
    cases right.2 (by decide)
    exact ⟨test, resolved, outcome⟩

/-- A space comes before the quote that ends the shorter string. -/
theorem not_passes_of_beginning :
    ¬ ∀ (s : Schema) (r : Row) (c : Condition) (i : Nat) (u v : String),
      s.resolve c.column = .ok (i, .string) → r.get? i = some (.ofString u) →
      IsString s r v c.right → '\'' ∉ u.toList → '\'' ∉ v.toList →
      ∃ test passed, resolve s c = .ok test ∧ test.passes r = .ok passed ∧
        (passed = true ↔ c.comparison.Relates u v) := by
  intro lexicographic
  obtain ⟨test, passed, resolved, outcome, agree⟩ :=
    lexicographic ⟨[⟨"s", .string⟩]⟩ ⟨[.ofString "a"]⟩ ⟨"s", .lt, .literal (.ofString "a b")⟩ 0
      "a" "a b" (by decide) rfl .literal (by decide) (by decide)
  have less : passed = true := agree.2 (show "a" < "a b" by decide)
  cases less
  have found : resolve ⟨[⟨"s", .string⟩]⟩ ⟨"s", .lt, .literal (.ofString "a b")⟩ =
      .ok ⟨0, .lt, .literal (.ofString "a b"), true⟩ := by decide
  cases resolved.symm.trans found
  exact absurd outcome (by decide)

end Test
end Relational
