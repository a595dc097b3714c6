import Mathlib.Tactic.Ring
import Mathlib.Tactic.Linarith
import Relational.Number.Binary64

/-!
# Rounding to the nearest magnitude

Neighbouring magnitudes are a power of two apart, and so the magnitudes grow with their numbers. The
number that is computed for a quotient is the only one whose midpoints to both neighbours enclose
the quotient; a midpoint itself belongs to the even one of the two.
-/
namespace Relational.Binary64

theorem pow_eq (b n : Nat) : Nat.pow b n = b ^ n := rfl

theorem scale_eq (k : Nat) : scale k = k / 2 ^ 52 - 1 := rfl

theorem significand_eq (k : Nat) : significand k = k - scale k * 2 ^ 52 := rfl

theorem units_eq (k : Nat) : units k = significand k * 2 ^ scale k := rfl

theorem nearestRank_eq (num den : Nat) : nearestRank num den =
    roundQuotient num (den * 2 ^ (Nat.log2 (num / den) - 52)) +
      (Nat.log2 (num / den) - 52) * 2 ^ 52 := rfl

theorem scale_mono {j k : Nat} (h : j ≤ k) : scale j ≤ scale k :=
  Nat.sub_le_sub_right (Nat.div_le_div_right h) 1

theorem scale_add {r doublings : Nat} (lower : doublings = 0 ∨ 2 ^ 52 ≤ r) (upper : r < 2 ^ 53) :
    scale (r + doublings * 2 ^ 52) = doublings := by
  rw [scale_eq]
  omega

theorem units_add {r doublings : Nat} (lower : doublings = 0 ∨ 2 ^ 52 ≤ r) (upper : r ≤ 2 ^ 53) :
    units (r + doublings * 2 ^ 52) = r * 2 ^ doublings := by
  rcases Nat.lt_or_eq_of_le upper with below | rfl
  · rw [units_eq, significand_eq, scale_add lower below, Nat.add_sub_cancel]
  · have scale : scale (2 ^ 53 + doublings * 2 ^ 52) = doublings + 1 := by
      rw [scale_eq]
      omega
    have left : 2 ^ 53 + doublings * 2 ^ 52 - (doublings + 1) * 2 ^ 52 = 2 ^ 52 := by omega
    rw [units_eq, significand_eq, scale, left, Nat.pow_succ]
    ring

theorem exists_significand (k : Nat) : ∃ r doublings, k = r + doublings * 2 ^ 52 ∧
    (doublings = 0 ∨ 2 ^ 52 ≤ r) ∧ r < 2 ^ 53 := by
  have scale := scale_eq k
  have significand := significand_eq k
  exact ⟨Binary64.significand k, Binary64.scale k, by omega, by omega, by omega⟩

theorem units_succ (k : Nat) : units (k + 1) = units k + 2 ^ scale k := by
  obtain ⟨r, doublings, rfl, lower, upper⟩ := exists_significand k
  have next : r + doublings * 2 ^ 52 + 1 = (r + 1) + doublings * 2 ^ 52 := by omega
  rw [next, units_add (lower.imp_right Nat.le_succ_of_le) upper,
    units_add lower (Nat.le_of_lt upper), scale_add lower upper]
  exact Nat.succ_mul r (2 ^ doublings)

theorem units_lt_succ (k : Nat) : units k < units (k + 1) := by
  have := Nat.two_pow_pos (scale k)
  rw [units_succ]
  omega

theorem units_strictMono : StrictMono units := strictMono_nat_of_lt_succ units_lt_succ

theorem units_mono {j k : Nat} (h : j ≤ k) : units j ≤ units k := units_strictMono.monotone h

theorem units_succ_le_of_lt {k top : Nat} (h : k < top) :
    units (k + 1) ≤ units k + 2 ^ scale (top - 1) := by
  rw [units_succ]
  exact Nat.add_le_add_left (Nat.pow_le_pow_right (by decide) (scale_mono (by omega))) _

/-- Rounding a quotient is off by a half at most, and by a half only to reach an even number. -/
theorem roundQuotient_spec (num : Nat) {den : Nat} (pos : 0 < den) :
    2 * roundQuotient num den * den ≤ 2 * num + den ∧
      2 * num ≤ (2 * roundQuotient num den + 1) * den ∧
      (roundQuotient num den % 2 = 1 → 2 * roundQuotient num den * den ≠ 2 * num + den ∧
        2 * num ≠ (2 * roundQuotient num den + 1) * den) := by
  have small := Nat.mod_lt num pos
  have whole := Nat.div_add_mod num den
  unfold roundQuotient
  dsimp only
  generalize num / den = q at whole ⊢
  generalize num % den = m at whole small ⊢
  have product (r : Nat) : 2 * r * den = 2 * (den * r) := by ring
  have next (r : Nat) : den * (r + 1) = den * r + den := Nat.mul_succ den r
  have half (r : Nat) : (2 * r + 1) * den = 2 * (den * r) + den := by ring
  split
  · rw [product, half]
    omega
  · split
    · rw [product, half, next]
      omega
    · -- halfway, where the even one of both is taken
      rcases Nat.mod_two_eq_zero_or_one q with even | odd
      · rw [even, Nat.add_zero, product, half]
        omega
      · rw [odd, product, half, next]
        omega

/-- The midpoints between magnitude number `k` and its neighbours enclose the quotient. -/
structure Nearest (k num den : Nat) : Prop where
  lower : (units (k - 1) + units k) * den ≤ 2 * num
  upper : 2 * num ≤ (units k + units (k + 1)) * den
  odd : k % 2 = 1 → (units (k - 1) + units k) * den ≠ 2 * num ∧
    2 * num ≠ (units k + units (k + 1)) * den

theorem roundQuotient_mem (num den : Nat) :
    roundQuotient num den = num / den ∨ roundQuotient num den = num / den + 1 := by
  unfold roundQuotient
  dsimp only
  split
  · exact .inl rfl
  · split
    · exact .inr rfl
    · rcases Nat.mod_two_eq_zero_or_one (num / den) with even | odd
      · exact .inl (by rw [even, Nat.add_zero])
      · exact .inr (by rw [odd])

/-- So many doublings leave a quotient of 53 bits, or none are needed. -/
theorem quotient_bounds (num den : Nat) :
    (Nat.log2 (num / den) - 52 = 0 ∨ 2 ^ 52 ≤ num / (den * 2 ^ (Nat.log2 (num / den) - 52))) ∧
      num / (den * 2 ^ (Nat.log2 (num / den) - 52)) < 2 ^ 53 := by
  rw [← Nat.div_div_eq_div_mul]
  generalize num / den = q
  constructor
  · rcases Nat.eq_zero_or_pos (Nat.log2 q - 52) with none | some
    · exact .inl none
    · refine .inr ((Nat.le_div_iff_mul_le (Nat.two_pow_pos _)).2 ?_)
      have whole : 52 + (Nat.log2 q - 52) = Nat.log2 q := by omega
      have nonzero : q ≠ 0 := by
        rintro rfl
        simp at some
      rw [← Nat.pow_add, whole]
      exact Nat.log2_self_le nonzero
  · rw [Nat.div_lt_iff_lt_mul (Nat.two_pow_pos _), ← Nat.pow_add]
    refine Nat.lt_of_lt_of_le Nat.lt_log2_self (Nat.pow_le_pow_right (by decide) ?_)
    omega

/-- Rounding finds the nearest magnitude. -/
theorem nearest_nearestRank (num : Nat) {den : Nat} (pos : 0 < den) :
    Nearest (nearestRank num den) num den := by
  obtain ⟨lower, upper⟩ := quotient_bounds num den
  rw [nearestRank_eq]
  generalize Nat.log2 (num / den) - 52 = doublings at lower upper ⊢
  have scaled : 0 < den * 2 ^ doublings := Nat.mul_pos pos (Nat.two_pow_pos _)
  obtain ⟨below, above, odd⟩ := roundQuotient_spec num scaled
  have range := roundQuotient_mem num (den * 2 ^ doublings)
  have floor : num / (den * 2 ^ doublings) * (den * 2 ^ doublings) ≤ num := Nat.div_mul_le_self _ _
  generalize roundQuotient num (den * 2 ^ doublings) = r at below above odd range ⊢
  have large : doublings = 0 ∨ 2 ^ 52 ≤ r := by omega
  have small : r ≤ 2 ^ 53 := by omega
  have parity : (r + doublings * 2 ^ 52) % 2 = r % 2 := by omega
  have here := units_add large small
  have up : (2 * r + 1) * (den * 2 ^ doublings) ≤
      (units (r + doublings * 2 ^ 52) + units (r + doublings * 2 ^ 52 + 1)) * den := by
    have step : 2 ^ doublings ≤ 2 ^ scale (r + doublings * 2 ^ 52) := by
      apply Nat.pow_le_pow_right (by decide)
      rw [scale_eq]
      omega
    rw [units_succ, here]
    nlinarith
  -- the step down from the first significand of a scale is half as long as the other steps
  have down :
      (units (r + doublings * 2 ^ 52 - 1) + units (r + doublings * 2 ^ 52)) * den ≤ 2 * num ∧
        (r % 2 = 1 → (units (r + doublings * 2 ^ 52 - 1) + units (r + doublings * 2 ^ 52)) * den ≠
          2 * num) := by
    by_cases edge : doublings ≠ 0 ∧ r = 2 ^ 52
    · obtain ⟨doubled, rfl⟩ := edge
      have most : 2 ^ 52 * (den * 2 ^ doublings) ≤ num := by
        have := lower.resolve_left doubled
        exact (Nat.mul_le_mul_right _ this).trans floor
      have before := units_mono (Nat.sub_le (2 ^ 52 + doublings * 2 ^ 52) 1)
      rw [here] at before ⊢
      refine ⟨?_, fun odd => absurd odd (by decide)⟩
      nlinarith
    · rcases Nat.eq_zero_or_pos r with rfl | positive
      · obtain rfl : doublings = 0 := by omega
        simp
      · obtain ⟨q, rfl⟩ : ∃ q, r = q + 1 := ⟨r - 1, by omega⟩
        have previous : q + 1 + doublings * 2 ^ 52 - 1 = q + doublings * 2 ^ 52 := by omega
        have before : units (q + doublings * 2 ^ 52) = q * 2 ^ doublings :=
          units_add (by omega) (by omega)
        have sum : (q * 2 ^ doublings + (q + 1) * 2 ^ doublings) * den + den * 2 ^ doublings =
            2 * (q + 1) * (den * 2 ^ doublings) := by ring
        rw [previous, before, here]
        omega
  refine ⟨down.1, above.trans up, ?_⟩
  rw [parity]
  intro isOdd
  have strict := (odd isOdd).2
  exact ⟨down.2 isOdd, by omega⟩

theorem Nearest.mono {j k a b den : Nat} (pos : 0 < den) (hj : Nearest j a den)
    (hk : Nearest k b den) (h : a ≤ b) : j ≤ k := by
  by_contra! less
  have midpoints : (units k + units (k + 1)) * den ≤ (units (j - 1) + units j) * den := by
    apply Nat.mul_le_mul_right
    have below := units_mono (Nat.le_sub_one_of_lt less)
    have above : units (k + 1) ≤ units j := units_mono less
    omega
  have lower := hj.lower
  have upper := hk.upper
  have same : (units k + units (k + 1)) * den = (units (j - 1) + units j) * den := by omega
  have adjacent : j = k + 1 := by
    by_contra far
    have sums := Nat.eq_of_mul_eq_mul_right pos same
    have below := units_mono (Nat.le_sub_one_of_lt less)
    have above : units (k + 1) < units j := units_strictMono (by omega)
    omega
  rcases Nat.mod_two_eq_zero_or_one k with even | odd
  · exact (hj.odd (by omega)).1 (by omega)
  · exact (hk.odd odd).2 (by omega)

theorem Nearest.between {k a b c den : Nat} (ha : Nearest k a den) (hc : Nearest k c den)
    (hab : a ≤ b) (hbc : b ≤ c) : Nearest k b den := by
  have lower := ha.lower
  have upper := hc.upper
  refine ⟨by omega, by omega, fun odd => ?_⟩
  have first := (ha.odd odd).1
  have last := (hc.odd odd).2
  omega

theorem nearest_mul_iff {k num den c : Nat} (pos : 0 < c) :
    Nearest k (num * c) (den * c) ↔ Nearest k num den := by
  have left (u : Nat) : u * (den * c) = u * den * c := (Nat.mul_assoc u den c).symm
  have right : 2 * (num * c) = 2 * num * c := (Nat.mul_assoc 2 num c).symm
  constructor
  · rintro ⟨lower, upper, odd⟩
    rw [left, right] at lower upper
    simp only [left, right, ne_eq, Nat.mul_left_inj pos.ne'] at odd
    exact ⟨Nat.le_of_mul_le_mul_right lower pos, Nat.le_of_mul_le_mul_right upper pos, odd⟩
  · rintro ⟨lower, upper, odd⟩
    refine ⟨?_, ?_, ?_⟩
    · rw [left, right]
      exact Nat.mul_le_mul_right c lower
    · rw [left, right]
      exact Nat.mul_le_mul_right c upper
    · simpa only [left, right, ne_eq, Nat.mul_left_inj pos.ne'] using odd

theorem nearest_units (k : Nat) {den : Nat} (pos : 0 < den) : Nearest k (units k * den) den := by
  have below := units_mono (Nat.sub_le k 1)
  have above := units_lt_succ k
  have double : 2 * (units k * den) = (units k + units k) * den := by ring
  refine ⟨?_, ?_, fun odd => ?_⟩
  · rw [double]
    exact Nat.mul_le_mul_right den (by omega)
  · rw [double]
    exact Nat.mul_le_mul_right den (by omega)
  · have strict : units (k - 1) < units k := units_strictMono (by omega)
    rw [double, ne_eq, ne_eq, Nat.mul_left_inj pos.ne', Nat.mul_left_inj pos.ne']
    omega

theorem nearestRank_eq_iff {k num den : Nat} (pos : 0 < den) :
    nearestRank num den = k ↔ Nearest k num den := by
  have found := nearest_nearestRank num pos
  constructor
  · rintro rfl
    exact found
  · intro h
    exact Nat.le_antisymm (found.mono pos h (Nat.le_refl _)) (h.mono pos found (Nat.le_refl _))

end Relational.Binary64
