import Relational.Number.Shortest
import Relational.Proofs.Rounding

/-!
# The shortest decimal

A decimal that reads back as a magnitude is one whose nearest magnitude it is. The shortest decimal
reads back, and it lies on every grid of powers of ten that holds such a decimal: the search begins
on a grid that is too coarse for any.
-/
namespace Relational.Binary64

/-- How many steps make two units. -/
def stepsPerUnits : Nat := 2 * 5 ^ places

theorem stepsPerUnits_pos : 0 < stepsPerUnits := Nat.mul_pos (by decide) (Nat.pow_pos (by decide))

theorem lowerMidpoint_eq (k : Nat) :
    lowerMidpoint k = (units (k - 1) + units k) * 5 ^ places := by
  rw [lowerMidpoint, pow_eq]

theorem upperMidpoint_eq (k : Nat) :
    upperMidpoint k = (units k + units (k + 1)) * 5 ^ places := by
  rw [upperMidpoint, pow_eq]

theorem steps_eq (k : Nat) : steps k = units k * stepsPerUnits := by
  rw [steps, stepsPerUnits, pow_eq]
  ring

theorem readsBack_iff {k decimal : Nat} :
    readsBack k decimal = true ↔ Nearest k decimal stepsPerUnits := by
  have double (u : Nat) : u * stepsPerUnits = 2 * (u * 5 ^ places) := by
    unfold stepsPerUnits
    ring
  have nearest : Nearest k decimal stepsPerUnits ↔ lowerMidpoint k ≤ decimal ∧
      decimal ≤ upperMidpoint k ∧
      (k % 2 = 1 → lowerMidpoint k ≠ decimal ∧ decimal ≠ upperMidpoint k) := by
    rw [lowerMidpoint_eq, upperMidpoint_eq]
    constructor
    · rintro ⟨lower, upper, odd⟩
      rw [double] at lower upper
      rw [double, double] at odd
      exact ⟨by omega, by omega, fun h => ⟨by have := odd h; omega, by have := odd h; omega⟩⟩
    · rintro ⟨lower, upper, odd⟩
      refine ⟨by rw [double]; omega, by rw [double]; omega, fun h => ?_⟩
      have strict := odd h
      rw [double, double]
      omega
  rw [nearest]
  unfold readsBack
  split
  · next even =>
    rw [Bool.and_eq_true, decide_eq_true_eq, decide_eq_true_eq]
    omega
  · next odd =>
    rw [Bool.and_eq_true, decide_eq_true_eq, decide_eq_true_eq]
    omega

theorem readsBack_steps (k : Nat) : readsBack k (steps k) = true := by
  rw [readsBack_iff, steps_eq]
  exact nearest_units k stepsPerUnits_pos

theorem onGrid?_eq (k j : Nat) : onGrid? k j =
    if readsBack k (steps k / 10 ^ j * 10 ^ j) &&
        (!readsBack k (steps k / 10 ^ j * 10 ^ j + 10 ^ j) ||
          2 * (steps k - steps k / 10 ^ j * 10 ^ j) < 10 ^ j) then
      some (steps k / 10 ^ j * 10 ^ j)
    else if readsBack k (steps k / 10 ^ j * 10 ^ j + 10 ^ j) then
      some (steps k / 10 ^ j * 10 ^ j + 10 ^ j)
    else none := rfl

theorem onGrid?_eq_some {k j decimal : Nat} (h : onGrid? k j = some decimal) :
    10 ^ j ∣ decimal ∧ readsBack k decimal = true := by
  rw [onGrid?_eq] at h
  split at h
  · next below =>
    cases h
    exact ⟨Nat.dvd_mul_left _ _, (Bool.and_eq_true _ _ ▸ below).1⟩
  · split at h
    · next above =>
      cases h
      exact ⟨Nat.dvd_add (Nat.dvd_mul_left _ _) (Nat.dvd_refl _), above⟩
    · cases h

/-- A grid that offers nothing has no multiple that reads back: one of the two around the magnitude
would do so as well. -/
theorem readsBack_of_onGrid?_eq_none {k j : Nat} (h : onGrid? k j = none) (m : Nat) :
    readsBack k (m * 10 ^ j) = false := by
  by_contra reads
  rw [Bool.not_eq_false, readsBack_iff] at reads
  have middle := readsBack_iff.1 (readsBack_steps k)
  have floor : steps k / 10 ^ j * 10 ^ j ≤ steps k := Nat.div_mul_le_self _ _
  have ceiling : steps k < steps k / 10 ^ j * 10 ^ j + 10 ^ j :=
    Nat.lt_div_mul_add (Nat.pow_pos (by decide))
  have around : readsBack k (steps k / 10 ^ j * 10 ^ j) = true ∨
      readsBack k (steps k / 10 ^ j * 10 ^ j + 10 ^ j) = true := by
    rw [readsBack_iff, readsBack_iff]
    rcases Nat.lt_or_ge (steps k / 10 ^ j) m with high | low
    · have next : steps k / 10 ^ j * 10 ^ j + 10 ^ j ≤ m * 10 ^ j := by
        rw [← Nat.succ_mul]
        exact Nat.mul_le_mul_right _ high
      exact .inr (middle.between reads ceiling.le next)
    · exact .inl (reads.between middle (Nat.mul_le_mul_right _ low) floor)
  rw [onGrid?_eq] at h
  split at h
  · cases h
  · next notBelow =>
    split at h
    · cases h
    · next notAbove =>
      rw [Bool.not_eq_true] at notAbove
      rcases around with below | above
      · simp [below, notAbove] at notBelow
      · exact absurd above (by simp [notAbove])

/-- The search from grid number `top` downwards finds a decimal that reads back, and passes by no
grid that holds one. -/
theorem coarsest_spec (k top : Nat) : readsBack k (coarsest k top) = true ∧
    ∃ j, 10 ^ j ∣ coarsest k top ∧
      ∀ i, j < i → i ≤ top → ∀ m, readsBack k (m * 10 ^ i) = false := by
  induction top with
  | zero => exact ⟨readsBack_steps k, 0, Nat.one_dvd _, fun i h h' => by omega⟩
  | succ top ih =>
    rw [coarsest]
    cases found : onGrid? k (top + 1) with
    | some decimal =>
      obtain ⟨grid, reads⟩ := onGrid?_eq_some found
      exact ⟨reads, top + 1, grid, fun i h h' => by omega⟩
    | none =>
      obtain ⟨reads, j, grid, empty⟩ := ih
      refine ⟨reads, j, grid, fun i hj hi => ?_⟩
      rcases Nat.lt_or_eq_of_le hi with below | rfl
      · exact empty i hj (Nat.le_of_lt_succ below)
      · exact readsBack_of_onGrid?_eq_none found

theorem readsBack_shortest (k : Nat) : readsBack k (shortest k) = true := by
  unfold shortest
  split
  · next zero =>
    rw [zero, readsBack_iff]
    simpa using nearest_units 0 stepsPerUnits_pos
  · exact (coarsest_spec k _).1

/-- No power of ten that is at most `n` is beyond a third of its binary logarithm. -/
theorem le_log2_div_three {p n : Nat} (h : 10 ^ p ≤ n) : p ≤ Nat.log2 n / 3 := by
  have eight : 2 ^ (3 * p) ≤ n := by
    rw [Nat.pow_mul]
    exact (Nat.pow_le_pow_left (by decide) p).trans h
  have nonzero : n ≠ 0 := by
    have := Nat.pow_pos (n := p) (show 0 < 10 by decide)
    omega
  have := (Nat.le_log2 nonzero).2 eight
  omega

/-- The shortest decimal is on every grid that holds a decimal that reads back. -/
theorem dvd_shortest {k p m : Nat} (h : readsBack k (m * 10 ^ p) = true) : 10 ^ p ∣ shortest k := by
  unfold shortest
  split
  · exact Nat.dvd_zero _
  · next positive =>
    obtain ⟨-, j, grid, empty⟩ := coarsest_spec k (Nat.log2 (upperMidpoint k) / 3 + 1)
    rcases Nat.lt_or_ge j p with fine | coarse
    · have reads := readsBack_iff.1 h
      have nonzero : m ≠ 0 := by
        rintro rfl
        have := units_strictMono (Nat.pos_of_ne_zero positive)
        have lower := reads.lower
        rw [Nat.zero_mul, Nat.mul_zero, Nat.le_zero, Nat.mul_eq_zero] at lower
        have := stepsPerUnits_pos
        omega
      have bound : 10 ^ p ≤ upperMidpoint k := by
        have upper := reads.upper
        have double : (units k + units (k + 1)) * stepsPerUnits = 2 * upperMidpoint k := by
          rw [stepsPerUnits, upperMidpoint_eq]
          ring
        have single := Nat.le_mul_of_pos_left (10 ^ p) (Nat.pos_of_ne_zero nonzero)
        omega
      have reached : p ≤ Nat.log2 (upperMidpoint k) / 3 + 1 :=
        (le_log2_div_three bound).trans (Nat.le_succ _)
      exact absurd h (by rw [empty p fine reached m]; decide)
    · exact (Nat.pow_dvd_pow 10 coarse).trans grid

end Relational.Binary64
