import Mathlib.Algebra.Order.Floor.Semifield
import Mathlib.Data.Nat.Digits.Defs
import Mathlib.Data.Rat.Floor
import Mathlib.Tactic.FieldSimp
import Relational.Proofs.Rounding
import Relational.Proofs.StoredForm

/-!
# Rounding a decimal on its digits

The thousandths of a number are computed with one division. The same digits come from the text of its
shortest decimal alone: they are kept up to the third place, and if the next one is five or more, the
kept ones are counted up by one. The carry goes through a run of nines, over the point and out in
front. Between the steps the digits stay the places of a number without a zero too many, and this
number is what is rounded down or up. So both ways end in the nearest thousandth, a half going up.
-/
namespace Relational

def splitPoint (cs : List Char) : List Char × List Char :=
  (cs.takeWhile (· != '.'), (cs.dropWhile (· != '.')).drop 1)

def decimalValue (cs : List Char) : ℚ :=
  digitsValue ((splitPoint cs).1 ++ (splitPoint cs).2) / 10 ^ (splitPoint cs).2.length

/-- The digits of a natural number, with no zero in front that could be left out. -/
structure IsWholePart (cs : List Char) : Prop where
  digits : ∀ c ∈ cs, c.isDigit = true
  nonempty : cs ≠ []
  shortest : cs.head? = some '0' → cs = ['0']

inductive IsDecimal : List Char → Prop
  | whole {cs} : IsWholePart cs → IsDecimal cs
  | point {cs fraction} : IsWholePart cs → (∀ c ∈ fraction, c.isDigit = true) →
      IsDecimal (cs ++ '.' :: fraction)

/-- The thousandth nearest to `x`, the upper one of two, written with all of its three places. -/
structure IsNearestThousandth (x : ℚ) (cs : List Char) : Prop where
  written : ∃ whole fraction, cs = whole ++ '.' :: fraction ∧ IsWholePart whole ∧
    fraction.length = 3 ∧ ∀ c ∈ fraction, c.isDigit = true
  value : decimalValue cs = ⌊1000 * x + 1 / 2⌋ / 1000

def digitValue (c : Char) : Nat := c.toNat - '0'.toNat

/-- Digits with the last one first, counted up by one. -/
def increment : List Nat → List Nat
  | [] => [1]
  | d :: ds => if d = 9 then 0 :: increment ds else (d + 1) :: ds

/-- The digits up to the third place after the point; zeros stand for those that are missing. -/
def keptDigits (whole fraction : List Char) : List Char :=
  whole ++ (fraction ++ List.replicate 3 '0').take 3

/-- Whether the first digit that is not kept is five or more. -/
def roundsUp (fraction : List Char) : Bool := (fraction[3]?).any ('5' ≤ ·)

def withPoint (digits : List Nat) : List Char :=
  let whole := digits.length - 3
  (digits.take whole).map Nat.digitChar ++ '.' :: (digits.drop whole).map Nat.digitChar

/-- A decimal rounded to three places, digit by digit. -/
def roundedDigits (cs : List Char) : List Char :=
  let (whole, fraction) := splitPoint cs
  let kept := (keptDigits whole fraction).map digitValue
  withPoint (if roundsUp fraction then (increment kept.reverse).reverse else kept)

theorem splitPoint_append {whole : List Char} (h : ∀ c ∈ whole, c.isDigit = true)
    (rest : List Char) (hr : ∀ c ∈ rest.head?, c = '.') :
    splitPoint (whole ++ rest) = (whole, rest.drop 1) := by
  have noPoint : ∀ c ∈ whole, (c != '.') = true := by
    intro c hc
    rw [bne_iff_ne]
    rintro rfl
    exact absurd (h _ hc) (by decide)
  unfold splitPoint
  rw [List.takeWhile_append_of_pos noPoint, List.dropWhile_append_of_pos noPoint]
  cases rest with
  | nil => simp
  | cons c rest =>
    cases hr c rfl
    simp

theorem IsWholePart.splitPoint {cs : List Char} (h : IsWholePart cs) :
    splitPoint cs = (cs, []) := by
  simpa using splitPoint_append h.digits [] (by simp)

theorem IsWholePart.splitPoint_point {cs fraction : List Char} (h : IsWholePart cs) :
    Relational.splitPoint (cs ++ '.' :: fraction) = (cs, fraction) :=
  splitPoint_append h.digits _ (by simp)

theorem IsDecimal.splitPoint {cs : List Char} (h : IsDecimal cs) :
    IsWholePart (splitPoint cs).1 ∧ ∀ c ∈ (splitPoint cs).2, c.isDigit = true := by
  cases h with
  | whole hw => simpa [hw.splitPoint] using hw
  | point hw hf => simpa [hw.splitPoint_point] using ⟨hw, hf⟩

theorem digitsValue_singleton (c : Char) : digitsValue [c] = digitValue c := by
  simp [digitsValue, digitValue, Nat.ofDigitChars]

theorem digitsValue_cons (c : Char) (cs : List Char) :
    digitsValue (c :: cs) = 10 ^ cs.length * digitValue c + digitsValue cs := by
  rw [← digitsValue_singleton]
  exact digitsValue_append [c] cs

theorem digitValue_lt {c : Char} (h : c.isDigit = true) : digitValue c < 10 := by
  have most : c.toNat ≤ 57 := (Char.isDigit_iff_toNat.1 h).2
  have zero : '0'.toNat = 48 := rfl
  unfold digitValue
  omega

theorem digitsValue_lt {cs : List Char} (h : ∀ c ∈ cs, c.isDigit = true) :
    digitsValue cs < 10 ^ cs.length := by
  induction cs with
  | nil => simp [digitsValue]
  | cons c cs ih =>
    have first := digitValue_lt (h c List.mem_cons_self)
    have rest := ih fun d hd => h d (List.mem_cons_of_mem c hd)
    rw [digitsValue_cons, List.length_cons, Nat.pow_succ]
    have scaled := Nat.mul_le_mul_left (10 ^ cs.length) (Nat.le_of_lt_succ first)
    omega

theorem digitsValue_zeros (n : Nat) : digitsValue (List.replicate n '0') = 0 := by
  induction n with
  | zero => rfl
  | succ n ih =>
    rw [List.replicate_succ, digitsValue_cons, ih]
    rfl

theorem ofDigits_digitValue (cs : List Char) :
    Nat.ofDigits 10 (cs.map digitValue).reverse = digitsValue cs := by
  induction cs with
  | nil => rfl
  | cons c cs ih =>
    rw [List.map_cons, List.reverse_cons, Nat.ofDigits_append, ih, digitsValue_cons,
      Nat.ofDigits_singleton, List.length_reverse, List.length_map, Nat.add_comm]

theorem IsWholePart.le_digitsValue {cs : List Char} (h : IsWholePart cs) :
    cs.length = 1 ∨ 10 ^ (cs.length - 1) ≤ digitsValue cs := by
  obtain ⟨c, rest, rfl⟩ := List.exists_cons_of_ne_nil h.nonempty
  by_cases zero : c = '0'
  · subst zero
    rw [h.shortest rfl]
    exact .inl rfl
  · have bounds := Char.isDigit_iff_toNat.1 (h.digits c List.mem_cons_self)
    have apart : c.toNat ≠ '0'.toNat := fun same => zero (Char.toNat_inj.1 same)
    have positive : 1 ≤ digitValue c := by
      unfold digitValue
      omega
    right
    rw [digitsValue_cons, List.length_cons, Nat.add_sub_cancel]
    exact Nat.le_add_right_of_le (Nat.le_mul_of_pos_right _ positive)

/-- The digits of a number, the last one first, if the number is not too small to need them all. -/
theorem toDigits_ofDigits {ds : List Nat} (digits : ∀ d ∈ ds, d < 10) (nonempty : ds ≠ [])
    (shortest : ds.length = 1 ∨ 10 ^ (ds.length - 1) ≤ Nat.ofDigits 10 ds) :
    Nat.toDigits 10 (Nat.ofDigits 10 ds) = ds.reverse.map Nat.digitChar := by
  induction ds with
  | nil => exact absurd rfl nonempty
  | cons d ds ih =>
    have last := digits d List.mem_cons_self
    rw [Nat.ofDigits_cons]
    rw [Nat.ofDigits_cons] at shortest
    rcases List.eq_nil_or_concat ds with rfl | ⟨es, e, hes⟩
    · simpa using Nat.toDigits_of_lt_base last
    · have more : ds ≠ [] := by simp [hes]
      have long : ds.length = es.length + 1 := by simp [hes]
      have enough : 10 ^ es.length ≤ Nat.ofDigits 10 ds := by
        have least := shortest.resolve_left (by simp [long])
        rw [List.length_cons, Nat.add_sub_cancel, long, Nat.pow_succ] at least
        omega
      have positive : 0 < Nat.ofDigits 10 ds := Nat.lt_of_lt_of_le (Nat.pow_pos (by decide)) enough
      have front := ih (fun x hx => digits x (List.mem_cons_of_mem d hx)) more
        (.inr (by rwa [long, Nat.add_sub_cancel]))
      rw [Nat.add_comm, ← Nat.toDigits_append_toDigits (by decide) positive last, front,
        Nat.toDigits_of_lt_base last]
      simp

/-- The digits of a number of thousandths, the last one first: three places, and before the point no
zero that could be left out. -/
structure IsThousandths (ds : List Nat) (n : Nat) : Prop where
  digits : ∀ d ∈ ds, d < 10
  value : Nat.ofDigits 10 ds = n
  places : 3 < ds.length
  shortest : ds.length = 4 ∨ 10 ^ (ds.length - 1) ≤ n

theorem ofDigits_increment (ds : List Nat) :
    Nat.ofDigits 10 (increment ds) = Nat.ofDigits 10 ds + 1 := by
  induction ds with
  | nil => rfl
  | cons d ds ih =>
    unfold increment
    split
    · next nine =>
      rw [Nat.ofDigits_cons, Nat.ofDigits_cons, ih, nine]
      ring
    · rw [Nat.ofDigits_cons, Nat.ofDigits_cons]
      ring

theorem lt_ten_of_mem_increment {ds : List Nat} (h : ∀ d ∈ ds, d < 10) :
    ∀ d ∈ increment ds, d < 10 := by
  induction ds with
  | nil => simp [increment]
  | cons d ds ih =>
    obtain ⟨first, rest⟩ := List.forall_mem_cons.1 h
    unfold increment
    split
    · exact List.forall_mem_cons.2 ⟨by decide, ih rest⟩
    · exact List.forall_mem_cons.2 ⟨by omega, rest⟩

/-- There is one digit more only after nothing but nines, and then it is the next power of ten. -/
theorem length_increment (ds : List Nat) : (increment ds).length = ds.length ∨
    (increment ds).length = ds.length + 1 ∧ Nat.ofDigits 10 (increment ds) = 10 ^ ds.length := by
  induction ds with
  | nil => exact .inr ⟨rfl, rfl⟩
  | cons d ds ih =>
    unfold increment
    split
    · rcases ih with same | ⟨longer, value⟩
      · exact .inl (by simp [same])
      · refine .inr ⟨by simp [longer], ?_⟩
        rw [Nat.ofDigits_cons, value, List.length_cons, Nat.pow_succ]
        ring
    · exact .inl rfl

theorem IsThousandths.increment {ds : List Nat} {n : Nat} (h : IsThousandths ds n) :
    IsThousandths (increment ds) (n + 1) := by
  have value : Nat.ofDigits 10 (Relational.increment ds) = n + 1 := by
    rw [ofDigits_increment, h.value]
  have places := h.places
  refine ⟨lt_ten_of_mem_increment h.digits, value, ?_, ?_⟩
  · rcases length_increment ds with same | ⟨longer, -⟩ <;> omega
  · rcases length_increment ds with same | ⟨longer, power⟩
    · rw [same]
      exact h.shortest.imp_right Nat.le_succ_of_le
    · rw [longer, Nat.add_sub_cancel, ← power, value]
      exact .inr (Nat.le_refl _)

theorem IsThousandths.withPoint {ds : List Nat} {n : Nat} (h : IsThousandths ds n) :
    withPoint ds.reverse = Binary64.thousandthsDigits n := by
  obtain ⟨digits, value, places, shortest⟩ := h
  match ds, places with
  | c :: b :: a :: ds, places =>
    obtain ⟨hc, hb, ha, hds⟩ : c < 10 ∧ b < 10 ∧ a < 10 ∧ ∀ d ∈ ds, d < 10 := by
      simpa using digits
    have nonempty : ds ≠ [] := by
      rintro rfl
      exact absurd places (Nat.lt_irrefl 3)
    simp only [Nat.ofDigits_cons] at value
    have whole : n / 1000 = Nat.ofDigits 10 ds := by omega
    have tenths : n / 100 % 10 = a := by omega
    have hundredths : n / 10 % 10 = b := by omega
    have thousandths : n % 10 = c := by omega
    have least : ds.length = 1 ∨ 10 ^ (ds.length - 1) ≤ Nat.ofDigits 10 ds := by
      rcases shortest with short | least
      · exact .inl (by simpa using short)
      · right
        obtain ⟨e, es, rfl⟩ := List.exists_cons_of_ne_nil nonempty
        have power : 10 ^ (es.length + 3) = 10 ^ es.length * 1000 := by rw [Nat.pow_add]
        rw [show (c :: b :: a :: e :: es).length - 1 = es.length + 3 by simp, power] at least
        rw [← whole]
        exact (Nat.le_div_iff_mul_le (by decide)).2 least
    have front : (c :: b :: a :: ds).reverse = ds.reverse ++ [a, b, c] := by simp
    rw [Binary64.thousandthsDigits, whole, tenths, hundredths, thousandths,
      toDigits_ofDigits hds nonempty least, front]
    simp [Relational.withPoint]

theorem length_keptDigits (whole fraction : List Char) :
    (keptDigits whole fraction).length = whole.length + 3 := by
  simp [keptDigits]

theorem isDigit_of_mem_keptDigits {whole fraction : List Char} {c : Char}
    (hw : ∀ c ∈ whole, c.isDigit = true) (hf : ∀ c ∈ fraction, c.isDigit = true)
    (hc : c ∈ keptDigits whole fraction) : c.isDigit = true := by
  rcases List.mem_append.1 hc with hc | hc
  · exact hw c hc
  · rcases List.mem_append.1 (List.mem_of_mem_take hc) with hc | hc
    · exact hf c hc
    · rw [List.eq_of_mem_replicate hc]
      decide

theorem isThousandths_keptDigits {whole fraction : List Char} (hw : IsWholePart whole)
    (hf : ∀ c ∈ fraction, c.isDigit = true) :
    IsThousandths ((keptDigits whole fraction).map digitValue).reverse
      (digitsValue (keptDigits whole fraction)) := by
  have length : ((keptDigits whole fraction).map digitValue).reverse.length = whole.length + 3 := by
    rw [List.length_reverse, List.length_map, length_keptDigits]
  have pos := List.length_pos_of_ne_nil hw.nonempty
  refine ⟨?_, ofDigits_digitValue _, by omega, ?_⟩
  · intro d hd
    obtain ⟨c, hc, rfl⟩ := List.mem_map.1 (List.mem_reverse.1 hd)
    exact digitValue_lt (isDigit_of_mem_keptDigits hw.digits hf hc)
  · rw [length]
    rcases hw.le_digitsValue with one | least
    · exact .inl (by omega)
    · right
      have power : 10 ^ (whole.length + 3 - 1) = 10 ^ 3 * 10 ^ (whole.length - 1) := by
        rw [← Nat.pow_add]
        congr 1
        omega
      have three : ((fraction ++ List.replicate 3 '0').take 3).length = 3 := by simp
      rw [power, keptDigits, digitsValue_append, three]
      exact Nat.le_add_right_of_le (Nat.mul_le_mul_left _ least)

/-- What is dropped makes half a thousandth or more exactly if its first digit is five or more. -/
theorem roundsUp_iff {kept dropped : List Char} (three : kept.length = 3)
    (hd : ∀ c ∈ dropped, c.isDigit = true) :
    roundsUp (kept ++ dropped) = true ↔ 10 ^ dropped.length ≤ 2 * digitsValue dropped := by
  have next : (kept ++ dropped)[3]? = dropped.head? := by
    rw [List.getElem?_append_right (by omega), three, List.head?_eq_getElem?]
  unfold roundsUp
  rw [next]
  cases dropped with
  | nil => simp [digitsValue]
  | cons c rest =>
    have below := digitsValue_lt fun d h => hd d (List.mem_cons_of_mem c h)
    have first := Char.isDigit_iff_toNat.1 (hd c List.mem_cons_self)
    have five : '5' ≤ c ↔ 5 ≤ digitValue c := by
      rw [Char.le_def, UInt32.le_iff_toNat_le]
      show 53 ≤ c.toNat ↔ 5 ≤ c.toNat - 48
      omega
    rw [List.head?_cons, Option.any_some, decide_eq_true_eq, five, digitsValue_cons,
      List.length_cons, Nat.pow_succ]
    constructor
    · intro h
      have scaled := Nat.mul_le_mul_left (10 ^ rest.length) h
      omega
    · intro h
      by_contra! less
      have scaled := Nat.mul_le_mul_left (10 ^ rest.length) (Nat.le_of_lt_succ less)
      omega

/-- The kept digits are the whole thousandths of a decimal. The rest counts if it is half of one. -/
theorem exists_dropped (whole : List Char) {fraction : List Char}
    (hf : ∀ c ∈ fraction, c.isDigit = true) :
    ∃ rest, 1000 * digitsValue (whole ++ fraction) =
        10 ^ fraction.length * digitsValue (keptDigits whole fraction) + rest ∧
      rest < 10 ^ fraction.length ∧
      (roundsUp fraction = true ↔ 10 ^ fraction.length ≤ 2 * rest) := by
  rcases Nat.lt_or_ge fraction.length 3 with short | long
  · -- zeros are appended and nothing is dropped
    obtain ⟨missing, total⟩ := Nat.exists_eq_add_of_le short.le
    have kept : keptDigits whole fraction = whole ++ fraction ++ List.replicate missing '0' := by
      rw [keptDigits, List.take_append, List.take_of_length_le short.le, List.take_replicate,
        List.append_assoc]
      congr 3
      omega
    have pos : 0 < 10 ^ fraction.length := Nat.pow_pos (by decide)
    refine ⟨0, ?_, pos, ?_⟩
    · rw [kept, digitsValue_append (whole ++ fraction), digitsValue_zeros, List.length_replicate,
        Nat.add_zero, Nat.add_zero, ← Nat.mul_assoc, ← Nat.pow_add, ← total]
    · have ended : fraction[3]? = none := List.getElem?_eq_none short.le
      simp [roundsUp, ended]
  · have split : fraction = fraction.take 3 ++ fraction.drop 3 := (List.take_append_drop ..).symm
    have three : (fraction.take 3).length = 3 := by simpa using long
    have digits : ∀ c ∈ fraction.drop 3, c.isDigit = true := fun c hc =>
      hf c (List.mem_of_mem_drop hc)
    have kept : keptDigits whole fraction = whole ++ fraction.take 3 := by
      rw [keptDigits, List.take_append_of_le_length long]
    generalize fraction.take 3 = taken at split three kept
    generalize fraction.drop 3 = dropped at split digits
    subst split
    have power : 10 ^ (taken ++ dropped).length = 1000 * 10 ^ dropped.length := by
      rw [List.length_append, three, Nat.pow_add]
    rw [kept, power, roundsUp_iff three digits]
    have below := digitsValue_lt digits
    refine ⟨1000 * digitsValue dropped, ?_, by omega, by omega⟩
    rw [← List.append_assoc, digitsValue_append (whole ++ taken)]
    ring

/-- Counting up after the third place rounds to the nearest thousandth, and a half up. -/
theorem kept_add_roundsUp {whole fraction : List Char} (hf : ∀ c ∈ fraction, c.isDigit = true) :
    digitsValue (keptDigits whole fraction) + (if roundsUp fraction then 1 else 0) =
      (2000 * digitsValue (whole ++ fraction) + 10 ^ fraction.length) /
        (2 * 10 ^ fraction.length) := by
  obtain ⟨rest, total, below, counts⟩ := exists_dropped whole hf
  generalize 10 ^ fraction.length = power at total below counts ⊢
  generalize digitsValue (whole ++ fraction) = all at total ⊢
  generalize digitsValue (keptDigits whole fraction) = kept at total ⊢
  have regrouped : 2000 * all + power = 2 * power * kept + (2 * rest + power) := by
    rw [show 2000 * all = 2 * (1000 * all) by ring, total]
    ring
  rw [regrouped, Nat.mul_add_div (by omega)]
  congr 1
  split
  · next up =>
    have half := counts.1 up
    exact (Nat.div_eq_of_lt_le (by omega) (by omega)).symm
  · next down =>
    have less := mt counts.2 down
    exact (Nat.div_eq_of_lt (by omega)).symm

theorem decimalValue_nonneg (cs : List Char) : 0 ≤ decimalValue cs := by
  unfold decimalValue
  positivity

theorem floor_decimalValue (cs : List Char) : ⌊1000 * decimalValue cs + 1 / 2⌋₊ =
    (2000 * digitsValue ((splitPoint cs).1 ++ (splitPoint cs).2) +
      10 ^ (splitPoint cs).2.length) / (2 * 10 ^ (splitPoint cs).2.length) := by
  rw [← Nat.floor_div_eq_div (K := ℚ), decimalValue]
  congr 1
  push_cast
  field_simp
  ring

/-- The digits of a decimal are rounded to the nearest thousandth, and a half up. -/
theorem roundedDigits_eq {cs : List Char} (h : IsDecimal cs) : roundedDigits cs =
    Binary64.thousandthsDigits ⌊1000 * decimalValue cs + 1 / 2⌋₊ := by
  obtain ⟨hw, hf⟩ := h.splitPoint
  have kept := isThousandths_keptDigits hw hf
  rw [floor_decimalValue, ← kept_add_roundsUp hf]
  unfold roundedDigits
  dsimp only
  split
  · exact kept.increment.withPoint
  · simpa using kept.withPoint

example : roundedDigits "99.9995".toList = "100.000".toList := by decide

namespace Binary64

theorem isWholePart_toDigits (n : Nat) : IsWholePart (Nat.toDigits 10 n) := by
  refine ⟨fun _ => isDigit_of_mem_toDigits, Nat.toDigits_ne_nil, fun zero => ?_⟩
  obtain ⟨rest, hrest⟩ : ∃ rest, Nat.toDigits 10 n = '0' :: rest := by
    simpa [List.head?_eq_some_iff] using zero
  have value := digitsValue_toDigits n
  have digits : ∀ c ∈ rest, c.isDigit = true := fun c hc =>
    isDigit_of_mem_toDigits (hrest ▸ List.mem_cons_of_mem _ hc)
  rw [hrest, digitsValue_cons, show digitValue '0' = 0 from rfl, Nat.mul_zero, Nat.zero_add]
    at value
  -- without the zero in front the digits would be too few
  have below := digitsValue_lt digits
  rcases Nat.eq_zero_or_pos rest.length with none | some
  · rw [hrest, List.length_eq_zero_iff.1 none]
  · have short := (Nat.length_toDigits_le_iff (by decide) some).2 (value ▸ below)
    rw [hrest, List.length_cons] at short
    omega

theorem exists_zeros (cs : List Char) :
    ∃ zeros, cs = (cs.reverse.dropWhile (· == '0')).reverse ++ List.replicate zeros '0' := by
  refine ⟨(cs.reverse.takeWhile (· == '0')).length, ?_⟩
  have zero : ∀ c ∈ cs.reverse.takeWhile (· == '0'), c = '0' := by
    intro c hc
    have kept := List.mem_takeWhile_imp hc
    exact beq_iff_eq.1 kept
  rw [← List.reverse_replicate, ← List.eq_replicate_of_mem zero, ← List.reverse_append,
    List.takeWhile_append_dropWhile, List.reverse_reverse]

/-- The digits after the point are all the places, less the zeros at the end. -/
theorem fractionDigits_spec (decimal : Nat) :
    (∀ c ∈ fractionDigits decimal, c.isDigit = true) ∧
      ∃ zeros, (fractionDigits decimal).length + zeros = places ∧
        10 ^ zeros * digitsValue (fractionDigits decimal) = decimal % 10 ^ places := by
  have pos : 0 < places := by decide
  unfold fractionDigits
  generalize places = p at pos ⊢
  dsimp only [pow_eq]
  have below : decimal % 10 ^ p < 10 ^ p := Nat.mod_lt _ (Nat.pow_pos (by decide))
  generalize decimal % 10 ^ p = rest at below ⊢
  have short : (Nat.toDigits 10 rest).length ≤ p :=
    (Nat.length_toDigits_le_iff (by decide) pos).2 below
  obtain ⟨zeros, split⟩ :=
    exists_zeros (List.replicate (p - (Nat.toDigits 10 rest).length) '0' ++ Nat.toDigits 10 rest)
  have length := congrArg List.length split
  have value := congrArg digitsValue split
  rw [List.length_append, List.length_append, List.length_replicate, List.length_replicate]
    at length
  rw [digitsValue_append, digitsValue_append, digitsValue_zeros, digitsValue_zeros,
    digitsValue_toDigits, List.length_replicate] at value
  refine ⟨fun c hc => ?_, zeros, by omega, by omega⟩
  have kept := List.mem_append_left (List.replicate zeros '0') hc
  rw [← split] at kept
  rcases List.mem_append.1 kept with hc | hc
  · rw [List.eq_of_mem_replicate hc]
    decide
  · exact isDigit_of_mem_toDigits hc

theorem decimalDigits_spec (decimal : Nat) : IsDecimal (decimalDigits decimal) ∧
    splitPoint (decimalDigits decimal) =
      (Nat.toDigits 10 (decimal / 10 ^ places), fractionDigits decimal) := by
  have whole := isWholePart_toDigits (decimal / Nat.pow 10 places)
  have digits := (fractionDigits_spec decimal).1
  unfold decimalDigits
  dsimp only
  split
  · next noFraction => exact ⟨.whole whole, by rw [whole.splitPoint, noFraction, pow_eq]⟩
  · exact ⟨.point whole digits, by rw [whole.splitPoint_point, pow_eq]⟩

theorem decimalValue_decimalDigits (decimal : Nat) :
    decimalValue (decimalDigits decimal) = decimal / 10 ^ places := by
  obtain ⟨-, zeros, length, value⟩ := fractionDigits_spec decimal
  have divided := Nat.div_add_mod decimal (10 ^ places)
  rw [decimalValue, (decimalDigits_spec decimal).2]
  dsimp only
  rw [digitsValue_append, digitsValue_toDigits]
  generalize fractionDigits decimal = fraction at length value ⊢
  generalize decimal / 10 ^ places = whole at divided ⊢
  rw [← value, ← length, Nat.pow_add] at divided
  rw [← divided, ← length]
  push_cast
  rw [pow_add]
  field_simp

/-- The number that is stored is the shortest decimal rounded to thousandths. -/
theorem floor_decimalDigits (decimal : Nat) :
    ⌊1000 * decimalValue (decimalDigits decimal) + 1 / 2⌋₊ = thousandths decimal := by
  obtain ⟨p, hp⟩ : ∃ p, places = p + 4 := ⟨1071, rfl⟩
  rw [decimalValue_decimalDigits, thousandths, hp, ← Nat.floor_div_eq_div (K := ℚ)]
  congr 1
  simp only [pow_eq, Nat.add_sub_cancel, show p + 4 - 3 = p + 1 by omega]
  push_cast
  field_simp
  ring

theorem decimalValue_thousandthsDigits (n : Nat) :
    decimalValue (thousandthsDigits n) = n / 1000 := by
  have whole := isWholePart_toDigits (n / 1000)
  rw [decimalValue, thousandthsDigits, whole.splitPoint_point]
  dsimp only
  rw [digitsValue_thousandths]
  norm_num

theorem isNearestThousandth_thousandthsDigits {x : ℚ} (h : 0 ≤ x) :
    IsNearestThousandth x (thousandthsDigits ⌊1000 * x + 1 / 2⌋₊) := by
  have floor : (⌊1000 * x + 1 / 2⌋₊ : ℚ) = ⌊1000 * x + 1 / 2⌋ :=
    natCast_floor_eq_intCast_floor (by positivity)
  generalize ⌊1000 * x + 1 / 2⌋₊ = n at floor ⊢
  refine ⟨⟨_, _, rfl, isWholePart_toDigits _, rfl, fun _ => isDigit_of_mem_lastThree n⟩, ?_⟩
  rw [decimalValue_thousandthsDigits, floor]

/-- A finite number is stored as its shortest decimal rounded to the nearest thousandth, digit by
digit, with a minus exactly before a negative number. -/
theorem storedText_rounded (negative : Bool) (rank : Fin finiteCount) :
    ∃ decimal rounded, (finite false rank).text.toList = decimal ∧ IsDecimal decimal ∧
      (finite negative rank).storedText.toList = (if negative then ['-'] else []) ++ rounded ∧
      rounded = roundedDigits decimal ∧ IsNearestThousandth (decimalValue decimal) rounded := by
  have isDecimal := (decimalDigits_spec (shortest rank)).1
  refine ⟨decimalDigits (shortest rank), roundedDigits (decimalDigits (shortest rank)),
    String.toList_ofList, isDecimal, ?_, rfl, ?_⟩
  · rw [roundedDigits_eq isDecimal, floor_decimalDigits]
    exact String.toList_ofList
  · rw [roundedDigits_eq isDecimal]
    exact isNearestThousandth_thousandthsDigits (decimalValue_nonneg _)

end Binary64
end Relational
