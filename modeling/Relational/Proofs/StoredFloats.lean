import Relational.Proofs.ShortestDecimal
import Relational.Proofs.StoredForm

/-!
# A stored float is stored again as it stands

Storing a number rounds its shortest decimal to thousandths. If the shortest decimal is a number of
thousandths, these read as the number itself. If it is not, the number is below `2 ^ 43`, where no
two numbers of thousandths read as the same number. Either way what is read has the same thousandths
again.
-/
namespace Relational.Binary64

/-- A unit fits into one so many times; the exponent may be split in any way. -/
theorem unitsPerOne_eq_pow {n : Nat} (h : 1074 = n) : unitsPerOne = 2 ^ n := by
  unfold unitsPerOne
  rw [h, pow_eq]

theorem unitsPerOne_pos : 0 < unitsPerOne := by
  obtain ⟨u, hu⟩ : ∃ u : Nat, 1074 = u := ⟨1074, rfl⟩
  rw [unitsPerOne_eq_pow hu]
  exact Nat.two_pow_pos u

theorem units_powerOfTwo (p : Nat) : units ((p + 1023) * 2 ^ 52) = 2 ^ p * unitsPerOne := by
  obtain ⟨d, hd, hu⟩ : ∃ d : Nat, 1023 = d + 1 ∧ 1074 = d + 52 := ⟨1022, rfl, rfl⟩
  have split : (p + 1023) * 2 ^ 52 = 2 ^ 52 + (p + d) * 2 ^ 52 := by
    rw [hd]
    ring
  rw [split, units_add (.inr (Nat.le_refl _)) (by decide), unitsPerOne_eq_pow hu]
  ring

def thousandth : Nat := 10 ^ (places - 3)

theorem thousandth_pos : 0 < thousandth := Nat.pow_pos (by decide)

theorem half_thousandth : 2 * (5 * 10 ^ (places - 4)) = thousandth := by
  have split : places - 3 = places - 4 + 1 := by decide
  rw [thousandth, split, Nat.pow_succ]
  ring

theorem thousandth_mul_four : thousandth * 4 = unitsPerOne * 5 ^ (places - 3) := by
  obtain ⟨p, hp⟩ : ∃ p, places = p + 3 := ⟨1072, rfl⟩
  have exponent : 1074 = p + 2 := Nat.succ.inj hp
  rw [thousandth, unitsPerOne_eq_pow exponent, hp, Nat.add_sub_cancel,
    show (10 : Nat) = 2 * 5 from rfl, Nat.mul_pow]
  ring

theorem stepsPerUnits_mul_four : stepsPerUnits * 4 = 1000 * 5 ^ (places - 3) := by
  obtain ⟨p, hp⟩ : ∃ p, places = p + 3 := ⟨1072, rfl⟩
  rw [stepsPerUnits, hp, Nat.add_sub_cancel]
  ring

theorem readsBack_thousandths_iff {k n : Nat} :
    readsBack k (n * thousandth) = true ↔ Nearest k (n * unitsPerOne) 1000 := by
  rw [readsBack_iff, ← nearest_mul_iff (show 0 < 4 by decide), stepsPerUnits_mul_four,
    Nat.mul_assoc, thousandth_mul_four, ← Nat.mul_assoc]
  exact nearest_mul_iff (Nat.pow_pos (by decide))

theorem thousandths_mul (n : Nat) : thousandths (n * thousandth) = n := by
  have half := half_thousandth
  have pos := thousandth_pos
  rw [thousandths, pow_eq, pow_eq, show 10 ^ (places - 3) = thousandth from rfl, Nat.mul_comm n,
    Nat.mul_add_div pos, Nat.div_eq_of_lt (by omega), Nat.add_zero]

theorem thousandths_le {decimal n : Nat} (h : decimal ≤ n * thousandth) :
    thousandths decimal ≤ n := by
  rw [← thousandths_mul n]
  unfold thousandths
  exact Nat.div_le_div_right (Nat.add_le_add_right h _)

theorem length_toDigits_le {n k : Nat} (pos : 0 < k) (h : n < 10 ^ k) :
    (Nat.toDigits 10 n).length ≤ k :=
  (Nat.length_toDigits_le_iff (by decide) pos).2 h

theorem ofDecimal_thousandths (negative : Bool) {n : Nat} (h : n < 10 ^ 313) :
    ofDecimal negative n (-3) = ofRank negative (nearestRank (n * unitsPerOne) 1000) := by
  have short : (Nat.toDigits 10 n).length ≤ 313 := length_toDigits_le (by decide) h
  have long : 0 < (Nat.toDigits 10 n).length := Nat.length_toDigits_pos
  clear h
  unfold ofDecimal
  dsimp only
  rcases Nat.eq_zero_or_pos n with rfl | positive
  · have zeroth : nearestRank (0 * unitsPerOne) 1000 = 0 := by
      rw [nearestRank_eq_iff (by decide), Nat.zero_mul]
      simpa using nearest_units 0 (show 0 < 1000 by decide)
    rw [if_pos (.inl rfl), zeroth]
    rfl
  · rw [if_neg (by omega), if_neg (by omega), if_neg (by decide)]
    rfl

theorem finite_of_le {rank : Nat} (h : rank < finiteCount) (negative : Bool) :
    ofRank negative rank = finite negative ⟨rank, h⟩ := dif_pos h

/-- The number of the magnitude `2 ^ 43`. -/
def coarseRank : Nat := 1066 * 2 ^ 52

theorem units_coarseRank : units coarseRank = 2 ^ 43 * unitsPerOne := units_powerOfTwo 43

theorem coarseRank_lt_finiteCount : coarseRank < finiteCount := by decide

theorem nearest_coarseRank : Nearest coarseRank (2 ^ 43 * 1000 * unitsPerOne) 1000 := by
  have self := nearest_units coarseRank (show 0 < 1000 by decide)
  rw [units_coarseRank] at self
  have same : 2 ^ 43 * unitsPerOne * 1000 = 2 ^ 43 * 1000 * unitsPerOne := by ring
  rwa [same] at self

/-- How far apart the magnitudes just below `2 ^ 43` are. -/
def spacing : Nat := 2 ^ scale (coarseRank - 1)

theorem unitsPerOne_eq : unitsPerOne = 1024 * spacing := by
  have exponent : 1074 = scale (coarseRank - 1) + 10 := by decide
  rw [unitsPerOne_eq_pow exponent, spacing, pow_add]
  ring

theorem units_succ_le {k : Nat} (h : k < coarseRank) : units (k + 1) ≤ units k + spacing :=
  units_succ_le_of_lt h

theorem units_le_pred {k : Nat} (h : k ≤ coarseRank) : units k ≤ units (k - 1) + spacing := by
  rcases Nat.eq_zero_or_pos k with rfl | positive
  · simp
  · have step := units_succ_le (show k - 1 < coarseRank by omega)
    rwa [Nat.sub_add_cancel positive] at step

/-- Up to `2 ^ 43` no two numbers of thousandths read as the same number. -/
theorem Nearest.thousandths_le {k a b : Nat} (h : k ≤ coarseRank)
    (ha : Nearest k (a * unitsPerOne) 1000) (hb : Nearest k (b * unitsPerOne) 1000) : a ≤ b := by
  have lower := hb.lower
  have upper := ha.upper
  have before := units_le_pred h
  have one := unitsPerOne_eq
  have pos : 0 < spacing := Nat.two_pow_pos _
  by_contra! less
  have apart : (b + 1) * unitsPerOne ≤ a * unitsPerOne := Nat.mul_le_mul_right _ less
  rcases Nat.lt_or_eq_of_le h with below | rfl
  · have after := units_succ_le below
    rw [Nat.succ_mul] at apart
    omega
  · -- the step up from here is twice as long, but this magnitude is itself a number of thousandths
    have scaled : scale coarseRank ≤ scale (coarseRank - 1) + 1 := by decide
    have after : units (coarseRank + 1) ≤ units coarseRank + 2 * spacing := by
      rw [units_succ, spacing, ← pow_succ']
      generalize scale (coarseRank - 1) + 1 = higher at scaled ⊢
      generalize scale coarseRank = lower at scaled ⊢
      exact Nat.add_le_add_left (Nat.pow_le_pow_right (by decide) scaled) _
    have here := units_coarseRank
    have most : a ≤ 2 ^ 43 * 1000 := by
      by_contra! more
      have beyond := Nat.mul_le_mul_right unitsPerOne (Nat.succ_le_of_lt more)
      rw [Nat.succ_mul] at beyond
      omega
    have least : 2 ^ 43 * 1000 ≤ b := by
      by_contra! fewer
      have beyond := Nat.mul_le_mul_right unitsPerOne (Nat.succ_le_of_lt fewer)
      rw [Nat.succ_mul] at beyond
      omega
    omega

theorem le_units_succ {k : Nat} (h : coarseRank ≤ k) : units k + 2 * spacing ≤ units (k + 1) := by
  have scaled : scale (coarseRank - 1) + 1 ≤ scale k := by
    have here : scale (coarseRank - 1) + 1 = scale coarseRank := by decide
    exact here ▸ scale_mono h
  rw [units_succ, spacing, ← pow_succ']
  exact Nat.add_le_add_left (Nat.pow_le_pow_right (by decide) scaled) _

/-- From `2 ^ 43` on every magnitude is read from some number of thousandths. -/
theorem exists_thousandths {k : Nat} (h : coarseRank ≤ k) :
    ∃ n, Nearest k (n * unitsPerOne) 1000 := by
  rcases Nat.lt_or_eq_of_le h with beyond | rfl
  · refine ⟨(units k * 1000 + 512 * spacing) / unitsPerOne, ?_⟩
    have one := unitsPerOne_eq
    have pos : 0 < spacing := Nat.two_pow_pos _
    have after := le_units_succ h
    have before := le_units_succ (show coarseRank ≤ k - 1 by omega)
    rw [Nat.sub_add_cancel (by omega)] at before
    have floor := Nat.div_mul_le_self (units k * 1000 + 512 * spacing) unitsPerOne
    have ceiling := Nat.lt_div_mul_add (a := units k * 1000 + 512 * spacing)
      (show 0 < unitsPerOne by omega)
    exact ⟨by omega, by omega, fun _ => ⟨by omega, by omega⟩⟩
  · exact ⟨_, nearest_coarseRank⟩

theorem units_finiteCount : units finiteCount = 2 ^ 1024 * unitsPerOne := by
  obtain ⟨e, u, top, exponent, one⟩ : ∃ e u, 1024 = 52 + e ∧ 2046 = e + u ∧ 1074 = u :=
    ⟨972, 1074, rfl, rfl, rfl⟩
  have split : finiteCount = 2 ^ 52 + (e + u) * 2 ^ 52 := by
    rw [finiteCount, pow_eq]
    omega
  rw [split, units_add (.inr (Nat.le_refl _)) (by decide), unitsPerOne_eq_pow one, top, pow_add,
    pow_add, Nat.mul_assoc]

theorem unitsPerOne_mul_stepsPerUnits : unitsPerOne * stepsPerUnits = 1000 * thousandth := by
  have steps := stepsPerUnits_mul_four
  have one := thousandth_mul_four
  apply Nat.eq_of_mul_eq_mul_right (show 0 < 4 by decide)
  calc unitsPerOne * stepsPerUnits * 4 = unitsPerOne * (1000 * 5 ^ (places - 3)) := by
        rw [Nat.mul_assoc, steps]
    _ = 1000 * (unitsPerOne * 5 ^ (places - 3)) := by ring
    _ = 1000 * thousandth * 4 := by rw [← one, Nat.mul_assoc]

theorem thousandths_shortest_le {k j n : Nat} (h : k < j) (whole : units j = n * unitsPerOne) :
    thousandths (shortest k) ≤ n * 1000 := by
  apply thousandths_le
  have upper := (readsBack_iff.1 (readsBack_shortest k)).upper
  have here : units k ≤ units j := units_mono h.le
  have next : units (k + 1) ≤ units j := units_mono h
  have both := Nat.mul_le_mul_right stepsPerUnits (Nat.add_le_add here next)
  have top : units j * stepsPerUnits = n * 1000 * thousandth := by
    rw [whole, Nat.mul_assoc, unitsPerOne_mul_stepsPerUnits, Nat.mul_assoc]
  rw [Nat.add_mul (units j), top] at both
  omega

theorem thousandths_shortest_lt (rank : Fin finiteCount) :
    thousandths (shortest rank) < 10 ^ 313 := by
  refine Nat.lt_of_le_of_lt (thousandths_shortest_le rank.isLt units_finiteCount) ?_
  decide +kernel

/-- If any thousandths read as a number, then its shortest decimal is some. -/
theorem shortest_eq_of_nearest {k n : Nat} (h : Nearest k (n * unitsPerOne) 1000) :
    ∃ m, shortest k = m * thousandth ∧ Nearest k (m * unitsPerOne) 1000 := by
  obtain ⟨m, hm⟩ : thousandth ∣ shortest k := dvd_shortest (readsBack_thousandths_iff.2 h)
  have product : shortest k = m * thousandth := by rw [hm, Nat.mul_comm]
  refine ⟨m, product, readsBack_thousandths_iff.1 ?_⟩
  rw [← product]
  exact readsBack_shortest k

theorem ofDecimal_thousandths_shortest (negative : Bool) (rank : Fin finiteCount) :
    ∃ again : Fin finiteCount,
      ofDecimal negative (thousandths (shortest rank)) (-3) = finite negative again ∧
        thousandths (shortest again) = thousandths (shortest rank) := by
  rw [ofDecimal_thousandths negative (thousandths_shortest_lt rank)]
  by_cases some : ∃ n, Nearest rank (n * unitsPerOne) 1000
  · -- the shortest decimal is a number of thousandths, and they read as the number itself
    obtain ⟨n, hn⟩ := some
    obtain ⟨m, hm, reads⟩ := shortest_eq_of_nearest hn
    have same : thousandths (shortest rank) = m := by rw [hm, thousandths_mul]
    refine ⟨rank, ?_, rfl⟩
    rw [same, (nearestRank_eq_iff (by decide)).2 reads]
    exact finite_of_le rank.isLt negative
  · -- no thousandths read as the number, so it is small
    have small : rank.val < coarseRank := by
      by_contra! large
      exact some (exists_thousandths large)
    have bound := thousandths_shortest_le small units_coarseRank
    generalize thousandths (shortest rank) = n at bound ⊢
    have found := nearest_nearestRank (n * unitsPerOne) (show 0 < 1000 by decide)
    have most : nearestRank (n * unitsPerOne) 1000 ≤ coarseRank :=
      found.mono (by decide) nearest_coarseRank (Nat.mul_le_mul_right _ bound)
    have isFinite := Nat.lt_of_le_of_lt most coarseRank_lt_finiteCount
    obtain ⟨m, hm, other⟩ := shortest_eq_of_nearest found
    have same : m = n :=
      Nat.le_antisymm (other.thousandths_le most found) (found.thousandths_le most other)
    refine ⟨⟨_, isFinite⟩, finite_of_le isFinite negative, ?_⟩
    show thousandths (shortest (nearestRank (n * unitsPerOne) 1000)) = n
    rw [hm, thousandths_mul, same]

end Relational.Binary64

namespace Relational.Value

open Binary64 (finite finiteCount)

theorem normalized_ofFloat (negative : Bool) (rank : Fin finiteCount) :
    (ofFloat (finite negative rank)).normalized .float = ofFloat (finite negative rank) := by
  obtain ⟨again, read, same⟩ := Binary64.ofDecimal_thousandths_shortest negative rank
  have float : (ofFloat (finite negative rank)).float? = some (finite negative again) := by
    rw [← read, ← Binary64.read?_storedText]
    rfl
  have text : (finite negative again).storedText = (finite negative rank).storedText := by
    rw [Binary64.storedText, Binary64.storedText, same]
  show (Option.map ofFloat (ofFloat (finite negative rank)).float?).getD _ = _
  rw [float]
  exact congrArg literal text

theorem normalized_infinite (negative : Bool) :
    (ofFloat (.infinite negative)).normalized .float = ofFloat (.infinite negative) := by
  cases negative <;> decide

theorem normalized_nan : (ofFloat .nan).normalized .float = ofFloat .nan := by decide

theorem normalized_normalized (v : Value) (type : ColumnType) :
    (v.normalized type).normalized type = v.normalized type := by
  cases type with
  | string => rfl
  | int => rfl
  | float =>
    cases read : v.float? with
    | none =>
      have kept : v.normalized .float = v := by simp [normalized, read]
      rw [kept, kept]
    | some x =>
      have stored : v.normalized .float = ofFloat x := by simp [normalized, read]
      rw [stored]
      cases x with
      | finite negative rank => exact normalized_ofFloat negative rank
      | infinite negative => exact normalized_infinite negative
      | nan => exact normalized_nan

end Relational.Value
