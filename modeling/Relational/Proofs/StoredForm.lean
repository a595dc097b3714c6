import Mathlib.Data.List.Basic
import Mathlib.Data.List.TakeWhile
import Mathlib.Tactic.Ring
import Relational.Number.Numeral
import Relational.Number.Thousandths
import Relational.Proofs.Columns

/-!
# The stored form of a float reads as a float

A finite number is stored as digits, a point and three digits, which read as that many thousandths.
An infinity is stored as a word that no column takes. A literal that has the type of a float column
always reads as a number, but it can be too large for a finite one.
-/
namespace Relational

theorem isDigit_of_mem_toDigits {n : Nat} {c : Char} (h : c ∈ Nat.toDigits 10 n) :
    c.isDigit = true :=
  Nat.isDigit_of_mem_toDigits (by decide) (by decide) h

theorem isDigit_of_mem_lastThree (n : Nat) {c : Char} (h : c ∈ [Nat.digitChar (n / 100 % 10),
    Nat.digitChar (n / 10 % 10), Nat.digitChar (n % 10)]) : c.isDigit = true := by
  have digit (k : Nat) : (Nat.digitChar (k % 10)).isDigit = true := by
    rw [Nat.isDigit_digitChar, decide_eq_true_eq]
    exact Nat.mod_lt k (by decide)
  simp only [List.mem_cons, List.not_mem_nil, or_false] at h
  rcases h with rfl | rfl | rfl <;> exact digit _

theorem digitsValue_append (cs ds : List Char) :
    digitsValue (cs ++ ds) = 10 ^ ds.length * digitsValue cs + digitsValue ds := by
  unfold digitsValue
  rw [Nat.ofDigitChars_append, Nat.ofDigitChars_eq_ofDigitChars_zero]

theorem digitsValue_toDigits (n : Nat) : digitsValue (Nat.toDigits 10 n) = n :=
  Nat.ofDigitChars_ten_toDigits

theorem digitsValue_lastThree (n : Nat) :
    digitsValue [Nat.digitChar (n / 100 % 10), Nat.digitChar (n / 10 % 10),
      Nat.digitChar (n % 10)] = n % 1000 := by
  have digit (k : Nat) : k % 10 < 10 := Nat.mod_lt k (by decide)
  unfold digitsValue
  rw [Nat.ofDigitChars_cons_digitChar_of_lt_ten (digit _),
    Nat.ofDigitChars_cons_digitChar_of_lt_ten (digit _),
    Nat.ofDigitChars_cons_digitChar_of_lt_ten (digit _), Nat.ofDigitChars_nil]
  omega

/-- All digits of a number of thousandths, without the point. -/
theorem digitsValue_thousandths (n : Nat) :
    digitsValue (Nat.toDigits 10 (n / 1000) ++ [Nat.digitChar (n / 100 % 10),
      Nat.digitChar (n / 10 % 10), Nat.digitChar (n % 10)]) = n := by
  rw [digitsValue_append, digitsValue_lastThree, digitsValue_toDigits]
  simp only [List.length_cons, List.length_nil]
  omega

theorem readDecimal?_point {whole fraction : List Char} (hw : ∀ c ∈ whole, c.isDigit = true)
    (hf : ∀ c ∈ fraction, c.isDigit = true) (nonempty : whole ≠ [] ∨ fraction ≠ []) :
    readDecimal? (whole ++ '.' :: fraction) =
      some (digitsValue (whole ++ fraction), -(fraction.length : Int)) := by
  have point : Char.isDigit '.' = false := by decide
  have taken : (whole ++ '.' :: fraction).takeWhile Char.isDigit = whole := by
    rw [List.takeWhile_append_of_pos hw, List.takeWhile_cons, point]
    simp
  have left : (whole ++ '.' :: fraction).dropWhile Char.isDigit = '.' :: fraction := by
    rw [List.dropWhile_append_of_pos hw, List.dropWhile_cons, point]
    simp
  have takenAfter : fraction.takeWhile Char.isDigit = fraction := List.takeWhile_eq_self_iff.2 hf
  have leftAfter : fraction.dropWhile Char.isDigit = [] := List.dropWhile_eq_nil_iff.2 hf
  have digits : (whole.isEmpty && fraction.isEmpty) = false := by
    rw [Bool.and_eq_false_iff]
    exact nonempty.imp (fun h => by simpa using h) fun h => by simpa using h
  unfold readDecimal?
  rw [taken, left]
  simp only [splitFraction, takenAfter, leftAfter, digits]
  simp [readExponent?]

namespace Binary64

theorem read?_of_readDecimal? {s : String} {negative : Bool} {cs : List Char} {digits : Nat}
    {exponent : Int} (sign : splitSign s.toList = (negative, cs))
    (decimal : readDecimal? cs = some (digits, exponent)) :
    read? s = some (ofDecimal negative digits exponent) := by
  unfold read?
  rw [sign]
  dsimp only
  rw [decimal]

theorem readDecimal?_thousandthsDigits (n : Nat) :
    readDecimal? (thousandthsDigits n) = some (n, -3) := by
  rw [thousandthsDigits, readDecimal?_point (fun _ => isDigit_of_mem_toDigits)
    (fun _ => isDigit_of_mem_lastThree n) (by simp), digitsValue_thousandths]
  rfl

theorem splitSign_signDigits (negative : Bool) {cs : List Char}
    (h : ∀ c ∈ cs.head?, c.isDigit = true) :
    splitSign (signDigits negative ++ cs) = (negative, cs) := by
  cases negative with
  | true => rfl
  | false =>
    have unsigned (c : Char) (rest : List Char) (hc : cs = c :: rest) : c ≠ '-' ∧ c ≠ '+' := by
      have digit := h c (by rw [hc]; rfl)
      constructor <;> rintro rfl <;> simp at digit
    show splitSign cs = (false, cs)
    unfold splitSign
    split
    · exact absurd rfl (unsigned _ _ rfl).1
    · exact absurd rfl (unsigned _ _ rfl).2
    · rfl

theorem head?_thousandthsDigits (n : Nat) :
    ∀ c ∈ (thousandthsDigits n).head?, c.isDigit = true := by
  intro c hc
  unfold thousandthsDigits at hc
  rw [List.head?_append_of_ne_nil _ Nat.toDigits_ne_nil] at hc
  exact isDigit_of_mem_toDigits (List.mem_of_mem_head? hc)

/-- A stored finite number reads as the number nearest to its thousandths. -/
theorem read?_storedText (negative : Bool) (rank : Fin finiteCount) :
    read? (finite negative rank).storedText =
      some (ofDecimal negative (thousandths (shortest rank)) (-3)) := by
  refine read?_of_readDecimal? ?_ (readDecimal?_thousandthsDigits _)
  rw [storedText, String.toList_ofList]
  exact splitSign_signDigits negative (head?_thousandthsDigits _)

theorem mem_storedText {negative : Bool} {rank : Fin finiteCount} {c : Char}
    (h : c ∈ (finite negative rank).storedText.toList) : c.isDigit = true ∨ c = '-' ∨ c = '.' := by
  rw [storedText, String.toList_ofList, thousandthsDigits] at h
  rcases List.mem_append.1 h with h | h
  · cases negative with
    | true => exact .inr (.inl (List.mem_singleton.1 h))
    | false => exact nomatch h
  · rcases List.mem_append.1 h with h | h
    · exact .inl (isDigit_of_mem_toDigits h)
    · rcases List.mem_cons.1 h with h | h
      · exact .inr (.inr h)
      · exact .inl (isDigit_of_mem_lastThree _ h)

/-- A text with a point reads as a decimal or not at all, since no name has one. -/
theorem eq_ofDecimal_of_read? {s : String} {x : Binary64} (point : '.' ∈ s.toList)
    (h : read? s = some x) :
    ∃ negative digits exponent, x = ofDecimal negative digits exponent := by
  unfold read? at h
  have kept : '.' ∈ (splitSign s.toList).2 := by
    unfold splitSign
    split
    · next cs hs => simpa [hs] using point
    · next cs hs => simpa [hs] using point
    · exact point
  generalize splitSign s.toList = parts at h kept
  obtain ⟨negative, cs⟩ := parts
  dsimp only at h kept
  split at h
  · cases h
    exact ⟨_, _, _, rfl⟩
  · have lower : '.' ∈ cs.map Char.toLower := List.mem_map_of_mem kept
    unfold ofName? at h
    dsimp only at h
    split at h
    · next name =>
      rw [name] at lower
      exact absurd lower (by decide)
    · split at h
      · next name =>
        rcases name with name | name <;> rw [name] at lower <;> exact absurd lower (by decide)
      · cases h

theorem ofDecimal_cases (negative : Bool) (digits : Nat) (exponent : Int) :
    (∃ rank, ofDecimal negative digits exponent = finite negative rank) ∨
      ofDecimal negative digits exponent = infinite negative := by
  have quotient (num den : Nat) : (∃ rank, ofQuotient negative num den = finite negative rank) ∨
      ofQuotient negative num den = infinite negative := by
    unfold ofQuotient ofRank
    split
    · exact .inl ⟨_, rfl⟩
    · exact .inr rfl
  unfold ofDecimal
  dsimp only
  split
  · exact .inl ⟨_, rfl⟩
  · split
    · exact .inr rfl
    · split
      · exact quotient _ _
      · exact quotient _ _

theorem ofDecimal_of_large (negative : Bool) {digits k : Nat} {exponent : Int}
    (many : 10 ^ k ≤ digits) (pos : 0 < k) (large : 310 ≤ k + exponent) :
    ofDecimal negative digits exponent = .infinite negative := by
  have length : k < (Nat.toDigits 10 digits).length := by
    rw [← Nat.not_le, Nat.length_toDigits_le_iff (by decide) pos]
    exact Nat.not_lt.2 many
  have positive : digits ≠ 0 := by
    rintro rfl
    exact absurd many (Nat.not_le.2 (Nat.pow_pos (by decide)))
  unfold ofDecimal
  dsimp only
  rw [if_neg (by omega), if_pos (by omega)]

theorem isDigit_zeros (n : Nat) : ∀ c ∈ '1' :: List.replicate n '0', c.isDigit = true := by
  intro c hc
  rcases List.mem_cons.1 hc with rfl | hc
  · decide
  · rw [List.eq_of_mem_replicate hc]
    decide

theorem read?_zeros {n : Nat} (h : 310 ≤ n) :
    read? (String.ofList ('1' :: List.replicate n '0' ++ ['.', '0'])) = some (.infinite false) := by
  have fraction : ∀ c ∈ ['0'], c.isDigit = true := by simp
  have decimal := readDecimal?_point (isDigit_zeros n) fraction (.inl (List.cons_ne_nil _ _))
  have sign : splitSign (String.ofList ('1' :: List.replicate n '0' ++ ['.', '0'])).toList =
      (false, '1' :: List.replicate n '0' ++ ['.', '0']) := by
    rw [String.toList_ofList]
    rfl
  rw [read?_of_readDecimal? sign decimal]
  rw [ofDecimal_of_large (k := n + 1) false ?_ (by omega) (by simp; omega)]
  have parts : '1' :: List.replicate n '0' ++ ['0'] =
      ['1'] ++ (List.replicate n '0' ++ ['0']) := rfl
  rw [parts, digitsValue_append, List.length_append, List.length_replicate]
  have one : digitsValue ['1'] = 1 := by decide
  rw [one, Nat.mul_one]
  exact Nat.le_add_right _ _

end Binary64

namespace ColumnType

theorem ofLiteral?_eq_string_iff {s : String} : ofLiteral? s = some .string ↔ '\'' ∈ s.toList := by
  unfold ofLiteral?
  split
  · next quote => simp [quote]
  · next noQuote => split <;> simp [noQuote]

theorem ofLiteral?_eq_float_iff {s : String} : ofLiteral? s = some .float ↔
    '\'' ∉ s.toList ∧ '.' ∈ s.toList ∧ ∃ x, Binary64.read? s = some x := by
  unfold ofLiteral?
  split
  · next quote => simp [quote]
  · next noQuote =>
    split
    · next point => simp [noQuote, point]
    · next noPoint => simp [noPoint]

theorem ofLiteral?_eq_int_iff {s : String} : ofLiteral? s = some .int ↔
    '\'' ∉ s.toList ∧ '.' ∉ s.toList ∧ ∃ k, Integer.read? s = some k := by
  unfold ofLiteral?
  split
  · next quote => simp [quote]
  · next noQuote =>
    split
    · next point => simp [point]
    · next noPoint => simp [noQuote, noPoint]

theorem ofLiteral?_storedText (negative : Bool) (rank : Fin Binary64.finiteCount) :
    ofLiteral? (Binary64.finite negative rank).storedText = some .float := by
  rw [ofLiteral?_eq_float_iff]
  refine ⟨fun h => ?_, ?_, _, Binary64.read?_storedText negative rank⟩
  · rcases Binary64.mem_storedText h with h | h | h <;> exact absurd h (by decide)
  · rw [Binary64.storedText, String.toList_ofList, Binary64.thousandthsDigits]
    simp

theorem ofLiteral?_infinityText (negative : Bool) :
    ofLiteral? (Binary64.infinityText negative) = none := by
  cases negative <;> decide

end ColumnType
end Relational
