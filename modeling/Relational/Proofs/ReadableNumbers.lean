import Relational.Proofs.StoredCells
import Relational.Proofs.StringOrder

/-!
# Texts that read as numbers

A text is read as a number in three places: when its literal is classified, when it is an operand,
and when it is compared. The blanks that the last two take off make no difference, because what reads
as a number has none. So a literal that one of them takes for a number is one for the others too. A
literal of a number column is never the one number without a place in the order of numbers.
-/
namespace Relational

open Text (isBlank)

theorem isBlank_of_isDigit {c : Char} (h : c.isDigit = true) : isBlank c = false :=
  (Query.digit_start h).1

theorem visible_of_splitSign {cs : List Char} (h : ∀ c ∈ (splitSign cs).2, isBlank c = false) :
    ∀ c ∈ cs, isBlank c = false := by
  unfold splitSign at h
  split at h
  · exact List.forall_mem_cons.2 ⟨by decide, h⟩
  · exact List.forall_mem_cons.2 ⟨by decide, h⟩
  · exact h

theorem visible_of_isDigits {cs : List Char} (h : isDigits cs = true) :
    ∀ c ∈ cs, isBlank c = false := by
  obtain ⟨-, areDigits⟩ := Bool.and_eq_true_iff.1 h
  exact fun c hc => isBlank_of_isDigit (List.all_eq_true.1 areDigits c hc)

theorem visible_of_readExponent? {cs : List Char} {k : Int} (h : readExponent? cs = some k) :
    ∀ c ∈ cs, isBlank c = false := by
  cases cs with
  | nil => exact fun _ hc => nomatch hc
  | cons c cs =>
    unfold readExponent? at h
    dsimp only at h
    split at h
    · next mark =>
      have letter : isBlank c = false := by
        rcases mark.1 with rfl | rfl <;> decide
      exact List.forall_mem_cons.2 ⟨letter, visible_of_splitSign (visible_of_isDigits mark.2)⟩
    · cases h

theorem visible_of_splitFraction {cs : List Char}
    (h : ∀ c ∈ (splitFraction cs).2, isBlank c = false) : ∀ c ∈ cs, isBlank c = false := by
  unfold splitFraction at h
  split at h
  · next rest =>
    refine List.forall_mem_cons.2 ⟨by decide, fun c hc => ?_⟩
    rw [← List.takeWhile_append_dropWhile (p := Char.isDigit) (l := rest)] at hc
    rcases List.mem_append.1 hc with hc | hc
    · exact isBlank_of_isDigit (List.mem_takeWhile_imp hc)
    · exact h c hc
  · exact h

theorem visible_of_readDecimal? {cs : List Char} {d : Nat × Int} (h : readDecimal? cs = some d) :
    ∀ c ∈ cs, isBlank c = false := by
  unfold readDecimal? at h
  dsimp only at h
  split at h
  · cases h
  · obtain ⟨k, hk, -⟩ := Option.map_eq_some_iff.1 h
    have rest := visible_of_splitFraction (visible_of_readExponent? hk)
    intro c hc
    rw [← List.takeWhile_append_dropWhile (p := Char.isDigit) (l := cs)] at hc
    rcases List.mem_append.1 hc with hc | hc
    · exact isBlank_of_isDigit (List.mem_takeWhile_imp hc)
    · exact rest c hc

theorem isBlank_of_toLower {c : Char} (h : isBlank c.toLower = false) : isBlank c = false := by
  by_contra blank
  rw [Bool.not_eq_false] at blank
  have same : c.toLower = c := by
    obtain ⟨range, hrange, lower, upper⟩ := Unicode.covers_iff.1 blank
    have apart : ∀ range ∈ Text.blankRanges, range.2 < 65 ∨ 90 < range.1 := by decide
    have away := apart range hrange
    unfold Char.toLower
    rw [dif_neg]
    intro letter
    have first : 65 ≤ c.toNat := letter.1
    have last : c.toNat ≤ 90 := letter.2
    omega
  rw [same, blank] at h
  cases h

namespace Binary64

theorem visible_of_ofName? {negative : Bool} {cs : List Char} {x : Binary64}
    (h : ofName? negative cs = some x) : ∀ c ∈ cs, isBlank c = false := by
  have visible : ((cs.map Char.toLower).all fun c => !isBlank c) = true := by
    unfold ofName? at h
    dsimp only at h
    split at h
    · next name =>
      rw [name]
      decide
    · split at h
      · next name => rcases name with name | name <;> rw [name] <;> decide
      · cases h
  intro c hc
  have lower := List.all_eq_true.1 visible _ (List.mem_map_of_mem hc)
  exact isBlank_of_toLower (by simpa using lower)

/-- What reads as a number has no blanks around it that could be taken off. -/
theorem trim_of_read? {s : String} {x : Binary64} (h : read? s = some x) : Text.trim s = s := by
  apply Text.trim_eq_self
  apply visible_of_splitSign
  unfold read? at h
  generalize splitSign s.toList = parts at h ⊢
  obtain ⟨negative, cs⟩ := parts
  dsimp only at h ⊢
  split at h
  · next decimal => exact visible_of_readDecimal? decimal
  · exact visible_of_ofName? h

theorem exists_place_ofDecimal (negative : Bool) (digits : Nat) (exponent : Int) :
    ∃ i, (ofDecimal negative digits exponent).place? = some i := by
  rcases ofDecimal_cases negative digits exponent with ⟨rank, h⟩ | h
  · rw [h]
    exact ⟨_, rfl⟩
  · rw [h]
    exact ⟨_, rfl⟩

end Binary64

namespace Test

/-- Comparing reads a number as it stands. -/
theorem number_of_read? {s : String} {x : Binary64} (h : Binary64.read? s = some x) :
    number s = .ok x := by
  unfold number
  rw [Binary64.trim_of_read? h, h]

/-- The text is compared as a number that has a place in the order of numbers. -/
def IsOrdered (s : String) : Prop := ∃ x i, number s = .ok x ∧ x.place? = some i

theorem IsOrdered.exists_number {s : String} (h : IsOrdered s) : ∃ x, number s = .ok x := by
  obtain ⟨x, -, hx, -⟩ := h
  exact ⟨x, hx⟩

theorem isOrdered_of_read? {s : String} {negative : Bool} {digits : Nat} {exponent : Int}
    (h : Binary64.read? s = some (.ofDecimal negative digits exponent)) : IsOrdered s := by
  obtain ⟨i, hi⟩ := Binary64.exists_place_ofDecimal negative digits exponent
  exact ⟨_, i, number_of_read? h, hi⟩

theorem isOrdered_of_integer {s : String} {k : Integer} (h : Integer.read? s = some k) :
    IsOrdered s := by
  unfold Integer.read? at h
  cases hs : splitSign s.toList with
  | mk negative digits =>
    rw [hs] at h
    dsimp only at h
    split at h
    · next written =>
      obtain ⟨nonempty, areDigits⟩ := Bool.and_eq_true_iff.1 written
      have decimal := readDecimal?_digits (by simpa using nonempty) (List.all_eq_true.1 areDigits)
      exact isOrdered_of_read? (Binary64.read?_of_readDecimal? hs decimal)
    · cases h

theorem isOrdered_of_ofLiteral? {s : String} {type : ColumnType}
    (h : ColumnType.ofLiteral? s = some type) (numeric : type ≠ .string) : IsOrdered s := by
  cases type with
  | string => exact absurd rfl numeric
  | int =>
    obtain ⟨-, -, k, hk⟩ := ColumnType.ofLiteral?_eq_int_iff.1 h
    exact isOrdered_of_integer hk
  | float =>
    obtain ⟨-, point, x, hx⟩ := ColumnType.ofLiteral?_eq_float_iff.1 h
    obtain ⟨negative, digits, exponent, rfl⟩ := Binary64.eq_ofDecimal_of_read? point hx
    exact isOrdered_of_read? hx

theorem exists_number_of_ofOperand {s : String} (numeric : ColumnType.ofOperand s ≠ .string) :
    ∃ x, number s = .ok x := by
  unfold ColumnType.ofOperand at numeric
  split at numeric
  · next x hx =>
    refine ⟨x, ?_⟩
    unfold number
    rw [hx]
  · exact absurd rfl numeric

/-- An operand that is written in a query and is no string is compared as an ordered number. -/
theorem isOrdered_of_written {K : Char → Prop} {s : String} (written : (Value.literal s).Written K)
    (numeric : ColumnType.ofOperand s ≠ .string) : IsOrdered s := by
  rcases written with ⟨content, rfl, -⟩ | number
  · exact absurd (ColumnType.ofOperand_quoted content) numeric
  · obtain ⟨negative, digits, exponent, h⟩ := number.read?
    exact isOrdered_of_read? h

end Test
end Relational
