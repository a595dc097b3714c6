import Relational.Proofs.Evaluation
import Relational.Proofs.WholeNumbers

/-!
# Integers as operands

An integer in a column is read digit by digit. An integer that stands in an expression is read as a
floating-point number first and then taken for an integer, so it denotes the number that it is
rounded to. That is the integer itself where 53 binary digits are enough for it. At the ends of the
range the rounded number may lie outside, and the end stands for it; so does it for the integers
that are outside themselves but not by far.
-/
namespace Relational

/-- Digits, with a minus before them if the number is to be negative. -/
def wholeText (negative : Bool) (digits : List Char) : String :=
  String.ofList (Binary64.signDigits negative ++ digits)

/-- The operand that a whole number is: the integer that it is rounded to, or the floating-point
number if that is no integer. -/
def Scalar.ofWhole (negative : Bool) (n : Nat) : Scalar :=
  if Binary64.nearestWhole n ≤ 2 ^ 63 then .int (.clamp (signed negative (Binary64.nearestWhole n)))
  else .float (Binary64.ofDecimal negative n 0)

theorem Scalar.ofWhole_of_le (negative : Bool) {n : Nat} (h : n ≤ 2 ^ 63 + 1024) :
    ofWhole negative n = .int (.clamp (signed negative (Binary64.nearestWhole n))) :=
  if_pos (Binary64.nearestWhole_le_iff.2 h)

theorem Scalar.ofWhole_of_lt (negative : Bool) {n : Nat} (h : 2 ^ 63 + 1024 < n) :
    ofWhole negative n = .float (Binary64.ofDecimal negative n 0) :=
  if_neg fun small => absurd (Binary64.nearestWhole_le_iff.1 small) (Nat.not_le.2 h)

section Digits
variable (negative : Bool) {digits : List Char}

theorem splitSign_wholeText (areDigits : ∀ c ∈ digits, c.isDigit = true) :
    splitSign (wholeText negative digits).toList = (negative, digits) := by
  rw [wholeText, String.toList_ofList]
  exact Binary64.splitSign_signDigits negative fun c hc => areDigits c (List.mem_of_mem_head? hc)

theorem isWhole_wholeText (nonempty : digits ≠ []) (areDigits : ∀ c ∈ digits, c.isDigit = true) :
    IsWhole (wholeText negative digits) := by
  have text : (String.ofList digits).toList = digits := String.toList_ofList
  refine ⟨String.ofList digits, text.symm ▸ nonempty, text.symm ▸ areDigits, ?_⟩
  cases negative with
  | false => exact .inl rfl
  | true => exact .inr (by simp [wholeText, Binary64.signDigits])

theorem Integer.read?_wholeText (nonempty : digits ≠ [])
    (areDigits : ∀ c ∈ digits, c.isDigit = true) :
    read? (wholeText negative digits) = ofInt? (signed negative (digitsValue digits)) :=
  read?_of_splitSign (splitSign_wholeText negative areDigits) nonempty areDigits

theorem Binary64.read?_wholeText (nonempty : digits ≠ [])
    (areDigits : ∀ c ∈ digits, c.isDigit = true) :
    read? (wholeText negative digits) = some (ofDecimal negative (digitsValue digits) 0) :=
  read?_of_readDecimal? (splitSign_wholeText negative areDigits)
    (readDecimal?_digits nonempty areDigits)

theorem Scalar.ofOperand_wholeText (nonempty : digits ≠ [])
    (areDigits : ∀ c ∈ digits, c.isDigit = true) :
    ofOperand (.literal (wholeText negative digits)) = ofWhole negative (digitsValue digits) := by
  have trim := (isWhole_wholeText negative nonempty areDigits).isNumber.trim
  have read := Binary64.read?_wholeText negative nonempty areDigits
  have whole := Binary64.whole?_ofDecimal negative (digitsValue digits)
  unfold ofOperand ofWhole
  dsimp only
  rw [trim, read]
  dsimp only
  by_cases small : Binary64.nearestWhole (digitsValue digits) ≤ 2 ^ 63
  · rw [if_pos small] at whole ⊢
    rw [whole]
  · rw [if_neg small] at whole ⊢
    rw [whole]

variable {negative}

theorem Integer.val_clamp_true {n : Nat} (h : n ≤ 2 ^ 63) : (clamp (signed true n)).val = -n := by
  show max (-0x8000000000000000) (min (-(n : Int)) 0x7fffffffffffffff) = -n
  omega

theorem Integer.val_clamp_false (n : Nat) :
    (clamp (signed false n)).val = min (n : Int) (2 ^ 63 - 1) := by
  show max (-0x8000000000000000) (min (n : Int) 0x7fffffffffffffff) = _
  omega

theorem Integer.le_of_val_eq_signed {k : Integer} {n : Nat} (h : k.val = signed negative n) :
    n ≤ 2 ^ 63 := by
  have lower := k.lower
  have upper := k.upper
  cases negative <;> simp only [signed] at h <;> omega

/-- Which integers the rounding and the clamp leave as they are. -/
theorem Integer.clamp_nearestWhole_eq_iff {n : Nat} {k : Integer} (h : k.val = signed negative n) :
    clamp (signed negative (Binary64.nearestWhole n)) = k ↔
      Binary64.IsShort n ∨ k.val = 2 ^ 63 - 1 := by
  have small := le_of_val_eq_signed h
  have rounded := Binary64.nearestWhole_le_iff.2 (small.trans (Nat.le_add_right _ 1024))
  have value : clamp (signed negative (Binary64.nearestWhole n)) = k ↔
      (clamp (signed negative (Binary64.nearestWhole n))).val = k.val :=
    ⟨congrArg val, ext⟩
  rw [value, ← Binary64.nearestWhole_eq_iff]
  cases negative with
  | true =>
    have val : k.val = -(n : Int) := h
    rw [val_clamp_true rounded, val]
    omega
  | false =>
    have val : k.val = (n : Int) := h
    rw [val_clamp_false, val]
    by_cases last : n = 2 ^ 63 - 1
    · -- the number is rounded up out of the range, and the clamp takes it back to where it was
      rw [Binary64.nearestWhole_edge (by omega) (by omega), last]
      omega
    · have upper := k.upper
      omega

theorem Integer.clamp_nearestWhole_near {n : Nat} {k : Integer} (h : k.val = signed negative n) :
    ((clamp (signed negative (Binary64.nearestWhole n))).val - k.val).natAbs ≤ 512 := by
  have small := le_of_val_eq_signed h
  have rounded := Binary64.nearestWhole_le_iff.2 (small.trans (Nat.le_add_right _ 1024))
  have near := Binary64.nearestWhole_near small
  have upper := k.upper
  cases negative with
  | true =>
    have val : k.val = -(n : Int) := h
    rw [val_clamp_true rounded, val]
    omega
  | false =>
    have val : k.val = (n : Int) := h
    rw [val_clamp_false, val]
    omega

/-- Beyond the range, what is rounded to its end stands for the end. -/
theorem Integer.clamp_nearestWhole_of_outside {n : Nat}
    (outside : ofInt? (signed negative n) = none) (near : n ≤ 2 ^ 63 + 1024) :
    clamp (signed negative (Binary64.nearestWhole n)) = clamp (signed negative n) := by
  have outside := ofInt?_eq_none_iff.1 outside
  apply ext
  cases negative with
  | true =>
    have far : -(n : Int) < -0x8000000000000000 ∨ 0x8000000000000000 ≤ -(n : Int) := outside
    rw [Binary64.nearestWhole_edge (by omega) near, val_clamp_true (Nat.le_refl _)]
    show _ = max (-0x8000000000000000) (min (-(n : Int)) 0x7fffffffffffffff)
    omega
  | false =>
    have far : (n : Int) < -0x8000000000000000 ∨ 0x8000000000000000 ≤ (n : Int) := outside
    rw [Binary64.nearestWhole_edge (by omega) near, val_clamp_false, val_clamp_false]
    omega

end Digits

namespace Formula

theorem ofExpr_literal (s : Schema) (v : Value) :
    ofExpr s (.literal v) = .ok (.literal (Scalar.ofOperand v), (Scalar.ofOperand v).kind?) := by
  cases v with
  | noValue => rfl
  | literal text =>
    unfold ofExpr operandType? Scalar.ofOperand Value.literal? ColumnType.ofOperand
    dsimp only [Option.map]
    cases Binary64.read? (Text.trim text) with
    | none => rfl
    | some x => cases hx : x.whole? <;> simp [hx, Scalar.kind?]

/-- What an integer in an expression denotes. In a column its digits are read as they stand. As an
operand it denotes an integer that is no more than 512 off, and itself if and only if 53 binary digits
are enough for it or it is the greatest integer of all. Digits of no integer denote the end of the
range as long as they are within 1024 of it, and a floating-point number otherwise. -/
theorem ofExpr_wholeText (s : Schema) (negative : Bool) {digits : List Char}
    (nonempty : digits ≠ []) (areDigits : ∀ c ∈ digits, c.isDigit = true) :
    (∀ k : Integer, k.val = signed negative (digitsValue digits) →
      Scalar.ofStored .int (.literal (wholeText negative digits)) = .ok (.int k) ∧
      (∃ j : Integer, (j.val - k.val).natAbs ≤ 512 ∧
        ofExpr s (.literal (.literal (wholeText negative digits))) =
          .ok (.literal (.int j), some .int)) ∧
      (ofExpr s (.literal (.literal (wholeText negative digits))) =
          .ok (.literal (.int k), some .int) ↔
        Binary64.IsShort (digitsValue digits) ∨ k.val = 2 ^ 63 - 1)) ∧
    (Integer.ofInt? (signed negative (digitsValue digits)) = none →
      (digitsValue digits ≤ 2 ^ 63 + 1024 →
        ofExpr s (.literal (.literal (wholeText negative digits))) =
          .ok (.literal (.int (.clamp (signed negative (digitsValue digits)))), some .int)) ∧
      (2 ^ 63 + 1024 < digitsValue digits → ∃ x,
        ofExpr s (.literal (.literal (wholeText negative digits))) =
          .ok (.literal (.float x), some .float))) := by
  have stored := Integer.read?_wholeText negative nonempty areDigits
  rw [ofExpr_literal, Scalar.ofOperand_wholeText negative nonempty areDigits]
  generalize digitsValue digits = n at stored ⊢
  constructor
  · intro k hk
    have small := Integer.le_of_val_eq_signed hk
    rw [Scalar.ofWhole_of_le negative (small.trans (Nat.le_add_right _ 1024))]
    refine ⟨?_, ⟨_, Integer.clamp_nearestWhole_near hk, rfl⟩, ?_⟩
    · rw [← hk, Integer.ofInt?_val] at stored
      simp [Scalar.ofStored, stored]
    · rw [← Integer.clamp_nearestWhole_eq_iff hk]
      simp [Scalar.kind?]
  · intro outside
    constructor
    · intro near
      rw [Scalar.ofWhole_of_le negative near]
      rw [Integer.clamp_nearestWhole_of_outside outside near]
      rfl
    · intro far
      rw [Scalar.ofWhole_of_lt negative far]
      exact ⟨_, rfl⟩

theorem ofExpr_wholeText_of_ends :
    ofExpr ⟨[]⟩ (.literal (.literal "-0009007199254740994")) =
        .ok (.literal (.int (.clamp (-9007199254740994))), some .int) ∧
      ofExpr ⟨[]⟩ (.literal (.literal "9223372036854775807")) =
        .ok (.literal (.int (.clamp 9223372036854775807)), some .int) ∧
      ofExpr ⟨[]⟩ (.literal (.literal "9223372036854776832")) =
        .ok (.literal (.int (.clamp 9223372036854775807)), some .int) := by
  have first := ofExpr_wholeText ⟨[]⟩ true
    (show "0009007199254740994".toList ≠ [] by decide) (by simp)
  have second := ofExpr_wholeText ⟨[]⟩ false
    (show "9223372036854775807".toList ≠ [] by decide) (by simp)
  have third := ofExpr_wholeText ⟨[]⟩ false
    (show "9223372036854776832".toList ≠ [] by decide) (by simp)
  refine ⟨?_, ?_, ?_⟩
  · exact (first.1 (.clamp (-9007199254740994)) (by decide)).2.2.2
      (.inl ⟨4503599627370497, 1, by decide, by decide⟩)
  · exact (second.1 (.clamp 9223372036854775807) (by decide)).2.2.2 (.inr (by decide))
  · exact (third.2 (by decide)).1 (by decide)

/-- The first integer that is rounded, and the first one beyond the range. -/
theorem not_ofExpr_wholeText_self :
    (¬ ∀ (s : Schema) (negative : Bool) (digits : List Char) (k : Integer), digits ≠ [] →
      (∀ c ∈ digits, c.isDigit = true) → k.val = signed negative (digitsValue digits) →
      ofExpr s (.literal (.literal (wholeText negative digits))) =
        .ok (.literal (.int k), some .int)) ∧
    ¬ ∀ (s : Schema) (negative : Bool) (digits : List Char) (j : Integer)
      (type? : Option ColumnType), digits ≠ [] → (∀ c ∈ digits, c.isDigit = true) →
      Integer.ofInt? (signed negative (digitsValue digits)) = none →
      ofExpr s (.literal (.literal (wholeText negative digits))) ≠
        .ok (.literal (.int j), type?) := by
  constructor
  · intro itself
    have rounded := itself ⟨[]⟩ false "9007199254740993".toList (.clamp 9007199254740993)
      (by decide) (by simp) (by decide)
    exact absurd rounded (by decide +kernel)
  · intro float
    exact float ⟨[]⟩ false "9223372036854775808".toList (.clamp 9223372036854775807) (some .int)
      (by decide) (by simp) (by decide) (by decide +kernel)

end Formula
end Relational
