import Relational.Proofs.StoredFloats

/-!
# Whole numbers as floating-point numbers

A whole number with at most 53 binary digits, zeros at its end not counted, is a magnitude. Any other
is rounded, and what it is rounded to is whole again, since beyond `2 ^ 53` there are no magnitudes
between the whole numbers. Close to `2 ^ 63` the magnitudes are 1024 apart below and 2048 above.
-/
namespace Relational.Binary64

/-- Without the zeros at its end, the number has no more than 53 binary digits. -/
def IsShort (n : Nat) : Prop :=
  ∃ significand doublings, significand < 2 ^ 53 ∧ n = significand * 2 ^ doublings

theorem isShort_of_lt {n : Nat} (h : n < 2 ^ 53) : IsShort n := ⟨n, 0, h, by simp⟩

/-- A significand is doubled until it has all of its 53 digits, if there are doublings enough. -/
theorem exists_units_eq {m d : Nat} (small : m < 2 ^ 53) (many : 52 ≤ d) :
    ∃ k, units k = m * 2 ^ d := by
  rcases Nat.eq_zero_or_pos m with rfl | pos
  · exact ⟨0, by simp⟩
  · have lower : 2 ^ Nat.log2 m ≤ m := Nat.log2_self_le pos.ne'
    have upper : m < 2 ^ (Nat.log2 m + 1) := Nat.lt_log2_self
    have bits : Nat.log2 m < 53 := (Nat.log2_lt pos.ne').2 small
    obtain ⟨j, hj⟩ : ∃ j, Nat.log2 m + j = 52 := ⟨52 - Nat.log2 m, by omega⟩
    obtain ⟨e, rfl⟩ : ∃ e, d = j + e := ⟨d - j, by omega⟩
    have least : 2 ^ 52 ≤ m * 2 ^ j := by
      rw [← hj, pow_add]
      exact Nat.mul_le_mul_right _ lower
    have most : m * 2 ^ j < 2 ^ 53 := by
      have whole : 53 = Nat.log2 m + 1 + j := by omega
      rw [whole, pow_add]
      exact Nat.mul_lt_mul_of_pos_right upper (Nat.two_pow_pos j)
    refine ⟨m * 2 ^ j + e * 2 ^ 52, ?_⟩
    rw [units_add (.inr least) most.le, Nat.mul_assoc, ← pow_add]

theorem isShort_of_units {n k : Nat} (h : units k = n * unitsPerOne) : IsShort n := by
  obtain ⟨u, hu⟩ : ∃ u : Nat, 1074 = u := ⟨1074, rfl⟩
  obtain ⟨r, d, rfl, lower, upper⟩ := exists_significand k
  rw [units_add lower upper.le, unitsPerOne_eq_pow hu] at h
  rcases Nat.lt_or_ge d u with fine | coarse
  · obtain ⟨e, rfl⟩ : ∃ e, u = d + e := ⟨u - d, by omega⟩
    rw [pow_add, Nat.mul_comm (2 ^ d), ← Nat.mul_assoc] at h
    have whole : r = n * 2 ^ e := Nat.eq_of_mul_eq_mul_right (Nat.two_pow_pos d) h
    have least := Nat.le_mul_of_pos_right n (Nat.two_pow_pos e)
    exact isShort_of_lt (by omega)
  · obtain ⟨e, rfl⟩ : ∃ e, d = e + u := ⟨d - u, by omega⟩
    rw [pow_add, ← Nat.mul_assoc] at h
    exact ⟨r, e, upper, (Nat.eq_of_mul_eq_mul_right (Nat.two_pow_pos u) h).symm⟩

/-- The numbers that need no rounding. -/
theorem isShort_iff {n : Nat} : IsShort n ↔ ∃ k, units k = n * unitsPerOne := by
  constructor
  · rintro ⟨m, e, small, rfl⟩
    obtain ⟨u, hu, many⟩ : ∃ u : Nat, 1074 = u ∧ 52 ≤ u := ⟨1074, rfl, by decide⟩
    rw [unitsPerOne_eq_pow hu, Nat.mul_assoc, ← pow_add]
    exact exists_units_eq small (many.trans (Nat.le_add_left u e))
  · rintro ⟨k, hk⟩
    exact isShort_of_units hk

/-- The whole number nearest to `n` for which 53 binary digits are enough. -/
def nearestWhole (n : Nat) : Nat := units (nearestRank (n * unitsPerOne) 1) / unitsPerOne

theorem nearest_whole (n : Nat) : Nearest (nearestRank (n * unitsPerOne) 1) (n * unitsPerOne) 1 :=
  nearest_nearestRank _ Nat.one_pos

theorem nearestRank_of_units {n k : Nat} (h : units k = n * unitsPerOne) :
    nearestRank (n * unitsPerOne) 1 = k := by
  rw [nearestRank_eq_iff Nat.one_pos, ← h]
  simpa using nearest_units k Nat.one_pos

/-- A whole number is rounded to a whole number: from `2 ^ 53` on there are no other magnitudes. -/
theorem nearestWhole_mul (n : Nat) :
    nearestWhole n * unitsPerOne = units (nearestRank (n * unitsPerOne) 1) := by
  apply Nat.div_mul_cancel
  rcases Nat.lt_or_ge n (2 ^ 53) with small | large
  · obtain ⟨k, hk⟩ := isShort_iff.1 (isShort_of_lt small)
    rw [nearestRank_of_units hk, hk]
    exact Nat.dvd_mul_left _ _
  · have power := units_powerOfTwo 53
    have least : (53 + 1023) * 2 ^ 52 ≤ nearestRank (n * unitsPerOne) 1 := by
      rw [← nearestRank_of_units power]
      exact (nearest_whole _).mono Nat.one_pos (nearest_whole n) (Nat.mul_le_mul_right _ large)
    generalize nearestRank (n * unitsPerOne) 1 = k at least
    obtain ⟨u, hu, bound⟩ : ∃ u : Nat, 1074 = u ∧ u ≤ (53 + 1023) * 2 ^ 52 / 2 ^ 52 - 1 :=
      ⟨1074, rfl, by decide⟩
    have doublings : u ≤ scale k := bound.trans (scale_mono least)
    rw [unitsPerOne_eq_pow hu, units_eq]
    exact (Nat.pow_dvd_pow 2 doublings).trans (Nat.dvd_mul_left _ _)

theorem nearestWhole_eq_iff {n : Nat} : nearestWhole n = n ↔ IsShort n := by
  have whole := nearestWhole_mul n
  constructor
  · intro h
    rw [h] at whole
    exact isShort_of_units whole.symm
  · intro h
    obtain ⟨k, hk⟩ := isShort_iff.1 h
    rw [nearestRank_of_units hk, hk] at whole
    exact Nat.eq_of_mul_eq_mul_right unitsPerOne_pos whole

/-- The rank of `2 ^ 63`. -/
def edgeRank : Nat := (63 + 1023) * 2 ^ 52

theorem units_edgeRank : units edgeRank = 2 ^ 63 * unitsPerOne := units_powerOfTwo 63

theorem units_edgeRank_succ : units (edgeRank + 1) = (2 ^ 63 + 2048) * unitsPerOne := by
  obtain ⟨u, hu, scaled⟩ : ∃ u : Nat, 1074 = u ∧ scale edgeRank = u + 11 := ⟨1074, rfl, by decide⟩
  rw [units_succ, units_edgeRank, scaled, unitsPerOne_eq_pow hu]
  ring

theorem lastStep_eq : 2 ^ scale (edgeRank - 1) = 1024 * unitsPerOne := by
  obtain ⟨u, hu, scaled⟩ : ∃ u : Nat, 1074 = u ∧ scale (edgeRank - 1) = u + 10 :=
    ⟨1074, rfl, by decide⟩
  rw [scaled, unitsPerOne_eq_pow hu]
  ring

theorem units_edgeRank_pred : units (edgeRank - 1) + 1024 * unitsPerOne = 2 ^ 63 * unitsPerOne := by
  have next : edgeRank - 1 + 1 = edgeRank := by decide
  rw [← units_edgeRank, ← lastStep_eq, ← units_succ, next]

/-- What is rounded to `2 ^ 63`: half of the step before it and half of the step after it. -/
theorem nearest_edgeRank {n : Nat} (lower : 2 ^ 63 ≤ n + 512) (upper : n ≤ 2 ^ 63 + 1024) :
    Nearest edgeRank (n * unitsPerOne) 1 := by
  have before := units_edgeRank_pred
  have here := units_edgeRank
  have after := units_edgeRank_succ
  have least := Nat.mul_le_mul_right unitsPerOne lower
  rw [Nat.add_mul] at least
  have most := Nat.mul_le_mul_right unitsPerOne upper
  refine ⟨?_, ?_, fun odd => absurd odd (by decide)⟩
  · omega
  · omega

theorem nearestWhole_le_iff {n : Nat} : nearestWhole n ≤ 2 ^ 63 ↔ n ≤ 2 ^ 63 + 1024 := by
  have whole := nearestWhole_mul n
  have found := nearest_whole n
  generalize nearestRank (n * unitsPerOne) 1 = k at whole found
  have rank : nearestWhole n ≤ 2 ^ 63 ↔ k ≤ edgeRank := by
    rw [← Nat.mul_le_mul_right_iff unitsPerOne_pos, whole, ← units_edgeRank,
      units_strictMono.le_iff_le]
  rw [rank]
  constructor
  · intro h
    have upper := found.upper
    have here := units_mono h
    have next := units_mono (Nat.succ_le_succ h)
    rw [units_edgeRank] at here
    rw [Nat.succ_eq_add_one, Nat.succ_eq_add_one, units_edgeRank_succ] at next
    refine Nat.le_of_mul_le_mul_right ?_ unitsPerOne_pos
    omega
  · intro h
    have last : Nearest edgeRank ((2 ^ 63 + 1024) * unitsPerOne) 1 :=
      nearest_edgeRank (by omega) (Nat.le_refl _)
    exact found.mono Nat.one_pos last (Nat.mul_le_mul_right _ h)

/-- Up to `2 ^ 63` the magnitudes are no more than 1024 apart, and `2 ^ 63` is one of them. -/
theorem nearestWhole_near {n : Nat} (h : n ≤ 2 ^ 63) :
    n ≤ nearestWhole n + 512 ∧ nearestWhole n ≤ n + 512 := by
  have whole := nearestWhole_mul n
  obtain ⟨lower, upper, -⟩ := nearest_whole n
  have edge : Nearest edgeRank (2 ^ 63 * unitsPerOne) 1 := nearest_edgeRank (by omega) (by omega)
  have rank : nearestRank (n * unitsPerOne) 1 ≤ edgeRank :=
    (nearest_whole n).mono Nat.one_pos edge (Nat.mul_le_mul_right _ h)
  generalize nearestRank (n * unitsPerOne) 1 = k at whole lower upper rank
  rw [← whole] at lower upper
  have below : nearestWhole n * unitsPerOne ≤ units (k - 1) + 1024 * unitsPerOne := by
    rw [whole]
    rcases Nat.eq_zero_or_pos k with rfl | pos
    · rw [Nat.zero_sub]
      exact Nat.le_add_right _ _
    · have step := units_succ_le_of_lt (show k - 1 < edgeRank by omega)
      rwa [Nat.sub_add_cancel pos, lastStep_eq] at step
  constructor
  · rcases Nat.lt_or_eq_of_le rank with less | rfl
    · have step := units_succ_le_of_lt less
      rw [lastStep_eq, ← whole] at step
      refine Nat.le_of_mul_le_mul_right ?_ unitsPerOne_pos
      rw [Nat.add_mul]
      omega
    · rw [units_edgeRank] at whole
      have edge := Nat.eq_of_mul_eq_mul_right unitsPerOne_pos whole
      omega
  · refine Nat.le_of_mul_le_mul_right ?_ unitsPerOne_pos
    rw [Nat.add_mul]
    omega

theorem nearestWhole_edge {n : Nat} (lower : 2 ^ 63 ≤ n + 512) (upper : n ≤ 2 ^ 63 + 1024) :
    nearestWhole n = 2 ^ 63 := by
  have whole := nearestWhole_mul n
  rw [(nearestRank_eq_iff Nat.one_pos).2 (nearest_edgeRank lower upper), units_edgeRank] at whole
  exact Nat.eq_of_mul_eq_mul_right unitsPerOne_pos whole

theorem ofDecimal_whole (negative : Bool) {n : Nat} (h : n < 10 ^ 310) :
    ofDecimal negative n 0 = ofRank negative (nearestRank (n * unitsPerOne) 1) := by
  have short : (Nat.toDigits 10 n).length ≤ 310 := length_toDigits_le (by decide) h
  have long : 0 < (Nat.toDigits 10 n).length := Nat.length_toDigits_pos
  clear h
  unfold ofDecimal
  dsimp only
  rcases Nat.eq_zero_or_pos n with rfl | positive
  · have zeroth : nearestRank (0 * unitsPerOne) 1 = 0 := nearestRank_of_units (by simp)
    rw [if_pos (.inl rfl), zeroth]
    rfl
  · rw [if_neg (by omega), if_neg (by omega), if_pos (Int.le_refl 0), Int.toNat_zero, pow_eq,
      Nat.pow_zero, Nat.mul_one]
    rfl

theorem whole?_finite (negative : Bool) (rank : Fin finiteCount) {n : Nat}
    (h : n * unitsPerOne = units rank) :
    (finite negative rank).whole? = if n ≤ 2 ^ 63 then some (signed negative n) else none := by
  have quotient : units rank / unitsPerOne = n := by
    rw [← h, Nat.mul_div_cancel _ unitsPerOne_pos]
  have remainder : units rank % unitsPerOne = 0 := by rw [← h, Nat.mul_mod_left]
  unfold whole? signed
  dsimp only
  rw [quotient, remainder]
  simp

/-- Of the numbers that whole numbers are rounded to, those up to `2 ^ 63` count as integers. -/
theorem whole?_ofDecimal (negative : Bool) (n : Nat) : (ofDecimal negative n 0).whole? =
    if nearestWhole n ≤ 2 ^ 63 then some (signed negative (nearestWhole n)) else none := by
  rcases Nat.lt_or_ge n (10 ^ 310) with small | large
  · rw [ofDecimal_whole negative small]
    have whole := nearestWhole_mul n
    generalize nearestRank (n * unitsPerOne) 1 = k at whole
    rcases Nat.lt_or_ge k finiteCount with finite | beyond
    · rw [finite_of_le finite]
      exact whole?_finite negative ⟨k, finite⟩ whole
    · have edge : edgeRank < finiteCount := by decide
      have above := units_strictMono (Nat.lt_of_lt_of_le edge beyond)
      rw [units_edgeRank, ← whole] at above
      have large := Nat.lt_of_mul_lt_mul_right above
      rw [ofRank, dif_neg (Nat.not_lt.2 beyond), if_neg (Nat.not_le.2 large)]
      rfl
  · have many : 2 ^ 63 + 1024 < 10 ^ 310 := by decide +kernel
    rw [ofDecimal_of_large negative large (by decide) (by decide),
      if_neg fun h => absurd (nearestWhole_le_iff.1 h) (by omega)]
    rfl

end Relational.Binary64
