import Relational.Error
import Relational.Text.Blank
import Relational.Unicode.Alphabetic
import Relational.Unicode.Numeric

/-!
# From text to tokens

A text is read from left to right. Blanks separate tokens where the tokens themselves do not; each
token takes as many characters as its kind allows.
-/
namespace Relational.Query

open Text (dropBlanks length_dropBlanks_le)

def isNameStart (c : Char) : Bool := Unicode.isAlphabetic c || c == '_'

def isNamePart (c : Char) : Bool := Unicode.isAlphabetic c || Unicode.isNumeric c || c == '_'

theorem isNamePart_of_isNameStart {c : Char} (h : isNameStart c = true) : isNamePart c = true := by
  simp only [isNameStart, Bool.or_eq_true] at h
  simp only [isNamePart, Bool.or_eq_true]
  exact h.elim (fun ha => Or.inl (Or.inl ha)) Or.inr

namespace Symbol

/-- The symbol that a character makes on its own, whatever follows it. -/
def ofChar? : Char → Option Symbol
  | '(' => some .leftParen
  | ')' => some .rightParen
  | ',' => some .comma
  | ';' => some .semicolon
  | '*' => some .star
  | '+' => some .plus
  | '-' => some .minus
  | '/' => some .slash
  | _ => none

/-- The symbol that a character makes together with an equals sign, and the one that it makes without,
if there is one. -/
def withEqual? : Char → Option (Symbol × Option Symbol)
  | '=' => some (.equal, none)
  | '!' => some (.notEqual, none)
  | '<' => some (.lowerEqual, some .lower)
  | '>' => some (.greaterEqual, some .greater)
  | _ => none

end Symbol

/-- The token that a name is. -/
def Token.ofName (name : List Char) : Token :=
  if name = Value.noValueText.toList then .noValue
  else
    match Keyword.ofWord? name with
    | some k => .keyword k
    | none => .identifier (String.ofList name)

/-- The digits at the front, which may have one point among them, before them or after them. -/
def splitNumber (cs : List Char) : List Char × List Char :=
  match cs.dropWhile Char.isDigit with
  | '.' :: rest =>
    (cs.takeWhile Char.isDigit ++ '.' :: rest.takeWhile Char.isDigit, rest.dropWhile Char.isDigit)
  | rest => (cs.takeWhile Char.isDigit, rest)

def scanNumber (cs : List Char) : Except Malformation (Token × List Char) :=
  match splitNumber cs with
  | (_, '.' :: _) => .error .severalDots
  | (digits, rest) => .ok (.number (String.ofList digits), rest)

/-- Reads a string literal after its opening quote. -/
def scanString (cs : List Char) : Except Malformation (Token × List Char) :=
  match cs.dropWhile (· != '\'') with
  | [] => .error .unterminatedString
  | _ :: rest => .ok (.string (String.ofList (cs.takeWhile (· != '\''))), rest)

/-- Reads a comparison symbol after its first character `c`. -/
def scanWithEqual (c : Char) (both : Symbol) (alone? : Option Symbol) :
    List Char → Except Malformation (Token × List Char)
  | '=' :: rest => .ok (.symbol both, rest)
  | rest =>
    match alone? with
    | some alone => .ok (.symbol alone, rest)
    | none => .error (.loneOperator c)

/-- Reads the token that begins with `c`, and says what follows it. -/
def scanToken (c : Char) (cs : List Char) : Except Malformation (Token × List Char) :=
  match Symbol.ofChar? c, Symbol.withEqual? c with
  | some s, _ => .ok (.symbol s, cs)
  | none, some (both, alone?) => scanWithEqual c both alone? cs
  | none, none =>
    if c = '.' then
      if (cs.head?.map Char.isDigit).getD false then scanNumber (c :: cs)
      else .ok (.symbol .dot, cs)
    else if isNameStart c then
      .ok (Token.ofName (c :: cs.takeWhile isNamePart), cs.dropWhile isNamePart)
    else if c.isDigit then scanNumber (c :: cs)
    else if c = '\'' then scanString cs
    else .error (.unsupportedCharacter c)

private theorem length_dropWhile_le (p : Char → Bool) (cs : List Char) :
    (cs.dropWhile p).length ≤ cs.length :=
  (List.dropWhile_sublist p).length_le

theorem length_splitNumber_lt {c : Char} (cs : List Char) (h : c.isDigit = true ∨ c = '.') :
    (splitNumber (c :: cs)).2.length ≤ cs.length := by
  rcases h with h | rfl
  · have whole := length_dropWhile_le Char.isDigit cs
    unfold splitNumber
    simp only [List.dropWhile_cons, h, if_true]
    split
    · next rest hr =>
      have fraction := length_dropWhile_le Char.isDigit rest
      simp only [hr, List.length_cons] at whole
      simp only
      omega
    · exact whole
  · have := length_dropWhile_le Char.isDigit cs
    simpa [splitNumber] using this

theorem length_scanToken_le {c : Char} {cs : List Char} {t : Token} {rest : List Char}
    (h : scanToken c cs = .ok (t, rest)) : rest.length ≤ cs.length := by
  have number : ∀ {t rest}, (c.isDigit = true ∨ c = '.') →
      scanNumber (c :: cs) = .ok (t, rest) → rest.length ≤ cs.length := by
    intro t rest hc h
    have bound := length_splitNumber_lt cs hc
    unfold scanNumber at h
    split at h
    · cases h
    · next hs =>
      cases h
      simpa [hs] using bound
  unfold scanToken at h
  split at h
  · cases h; exact Nat.le_refl _
  · unfold scanWithEqual at h
    split at h
    · cases h; simp
    · split at h <;> cases h
      exact Nat.le_refl _
  · split at h
    · next hc =>
      split at h
      · exact number (Or.inr hc) h
      · cases h; exact Nat.le_refl _
    · split at h
      · cases h; exact length_dropWhile_le _ cs
      · split at h
        · next hd => exact number (Or.inl hd) h
        · split at h
          · unfold scanString at h
            have bound := length_dropWhile_le (· != '\'') cs
            split at h
            · cases h
            · next hs =>
              cases h
              simp only [hs, List.length_cons] at bound
              omega
          · cases h

/-- All tokens of a text, the end of the text being the last one. -/
def scan (cs : List Char) : Except Malformation (List Token) :=
  match _hc : dropBlanks cs with
  | [] => .ok [.finish]
  | c :: following =>
    match _hs : scanToken c following with
    | .error e => .error e
    | .ok (t, rest) => (scan rest).map (t :: ·)
termination_by cs.length
decreasing_by
  have taken := length_scanToken_le _hs
  have blanks := length_dropBlanks_le cs
  simp only [_hc, List.length_cons] at blanks
  omega

theorem scan_of_blank {cs : List Char} (h : dropBlanks cs = []) : scan cs = .ok [.finish] := by
  rw [scan]
  split
  · rfl
  · next hc => simp [hc] at h

theorem scan_of_token {cs following rest : List Char} {c : Char} {t : Token}
    (hc : dropBlanks cs = c :: following) (hs : scanToken c following = .ok (t, rest)) :
    scan cs = (scan rest).map (t :: ·) := by
  rw [scan]
  split
  · next h => simp [h] at hc
  · next h =>
    rw [hc] at h
    cases h
    split
    · next e he => simp [he] at hs
    · next ht =>
      rw [hs] at ht
      cases ht
      rfl

theorem scan_of_error {cs following : List Char} {c : Char} {e : Malformation}
    (hc : dropBlanks cs = c :: following) (hs : scanToken c following = .error e) :
    scan cs = .error e := by
  rw [scan]
  split
  · next h => simp [h] at hc
  · next h =>
    rw [hc] at h
    cases h
    split
    · next ht =>
      rw [hs] at ht
      cases ht
      rfl
    · next ht => simp [ht] at hs

end Relational.Query
