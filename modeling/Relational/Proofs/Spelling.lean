import Relational.Proofs.Tokens
import Relational.Query.Rule

/-!
# Reading what has been written

The texts of names, numbers, string literals and words are read as the tokens that they are texts
of, whatever comes after them, as long as it is kept apart by a comma, a blank or a closing
parenthesis. So pieces of text can be put side by side and are read one by one.
-/
namespace Relational.Query

open Text (isBlank dropBlanks dropBlanks_nil dropBlanks_cons)

/-- A comma, a blank, a closing parenthesis or the end of the text, with which no token goes on. -/
def Breaks (rest : List Char) : Prop := ∀ c ∈ rest.head?, c = ',' ∨ c = ' ' ∨ c = ')'

/-- The text is read as the tokens, whatever it is kept apart from. -/
def Spells (cs : List Char) (ts : List Token) : Prop :=
  ∀ rest, Breaks rest → scan (cs ++ rest) = (scan rest).map (ts ++ ·)

theorem breaks_nil : Breaks [] := fun _ h => nomatch h

theorem breaks_comma (rest : List Char) : Breaks (',' :: rest) :=
  fun _ h => .inl (Option.some.inj h).symm

theorem breaks_blank (rest : List Char) : Breaks (' ' :: rest) :=
  fun _ h => .inr (.inl (Option.some.inj h).symm)

theorem breaks_rightParen (rest : List Char) : Breaks (')' :: rest) :=
  fun _ h => .inr (.inr (Option.some.inj h).symm)

/-- The text begins with no character that a token can go on with. -/
def Stops (rest : List Char) : Prop :=
  ∀ c ∈ rest.head?, isNamePart c = false ∧ c.isDigit = false ∧ c ≠ '.' ∧ c ≠ '='

theorem Breaks.stops {rest : List Char} (h : Breaks rest) : Stops rest := by
  intro c hc
  rcases h c hc with rfl | rfl | rfl <;> decide +kernel

theorem takeWhile_append_of_stop {p : Char → Bool} {cs rest : List Char}
    (taken : ∀ c ∈ cs, p c = true) (stop : ∀ c ∈ rest.head?, p c = false) :
    (cs ++ rest).takeWhile p = cs ∧ (cs ++ rest).dropWhile p = rest := by
  rw [List.takeWhile_append_of_pos taken, List.dropWhile_append_of_pos taken]
  cases rest with
  | nil => exact ⟨List.append_nil cs, rfl⟩
  | cons c rest => simp [stop c rfl]

theorem map_append_map {x : Except Malformation (List Token)} (ts us : List Token) :
    (x.map (us ++ ·)).map (ts ++ ·) = x.map (ts ++ us ++ ·) := by
  cases x <;> simp [Except.map]

theorem Spells.append {cs ds : List Char} {ts us : List Token} (h : Spells cs ts) (k : Spells ds us)
    (apart : ∀ rest, Breaks rest → Breaks (ds ++ rest)) : Spells (cs ++ ds) (ts ++ us) := by
  intro rest breaks
  rw [List.append_assoc, h _ (apart rest breaks), k rest breaks, map_append_map]

theorem map_nil_append (x : Except Malformation (List Token)) : x.map ([] ++ ·) = x := by
  cases x <;> rfl

theorem spells_nil : Spells [] [] := fun rest _ => (map_nil_append (scan rest)).symm

theorem Spells.scan_eq {cs : List Char} {ts : List Token} (h : Spells cs ts) :
    scan cs = .ok (ts ++ [.finish]) := by
  have whole := h [] breaks_nil
  rw [List.append_nil, scan_of_blank dropBlanks_nil] at whole
  exact whole

theorem scan_congr {cs ds : List Char} (h : dropBlanks cs = dropBlanks ds) : scan cs = scan ds := by
  cases front : dropBlanks ds with
  | nil => rw [scan_of_blank front, scan_of_blank (h.trans front)]
  | cons c following =>
    cases token : scanToken c following with
    | error e => rw [scan_of_error front token, scan_of_error (h.trans front) token]
    | ok result => rw [scan_of_token front token, scan_of_token (h.trans front) token]

theorem Spells.blank_cons {cs : List Char} {ts : List Token} (h : Spells cs ts) :
    Spells (' ' :: cs) ts := by
  intro rest breaks
  rw [← h rest breaks]
  exact scan_congr (dropBlanks_cons ' ' (cs ++ rest))

theorem Spells.spaced {cs ds : List Char} {ts us : List Token} (h : Spells cs ts)
    (k : Spells ds us) : Spells (cs ++ ' ' :: ds) (ts ++ us) :=
  h.append k.blank_cons fun _ _ => breaks_blank _

theorem scan_cons {c : Char} {cs rest : List Char} {t : Token} (visible : isBlank c = false)
    (h : scanToken c cs = .ok (t, rest)) : scan (c :: cs) = (scan rest).map (t :: ·) := by
  have front : dropBlanks (c :: cs) = c :: cs := by
    rw [dropBlanks_cons, visible]
    rfl
  exact scan_of_token front h

theorem Spells.symbol_cons {c : Char} {s : Symbol} {cs : List Char} {ts : List Token}
    (symbol : Symbol.ofChar? c = some s) (visible : isBlank c = false) (h : Spells cs ts) :
    Spells (c :: cs) (.symbol s :: ts) := by
  intro rest breaks
  have token : scanToken c (cs ++ rest) = .ok (.symbol s, cs ++ rest) := by
    unfold scanToken
    rw [symbol]
  rw [List.cons_append, scan_cons visible token, h rest breaks]
  exact map_append_map [.symbol s] ts

/-- A word ends where a character comes that is no part of a name. -/
theorem scan_word {cs rest : List Char} (h : IsWord cs) (stops : Stops rest) :
    scan (cs ++ rest) = (scan rest).map (Token.ofName cs :: ·) := by
  cases cs with
  | nil => exact absurd rfl h.nonempty
  | cons c cs =>
    obtain ⟨visible, single, double, notPoint, start⟩ := h.start c rfl
    have parts : ∀ d ∈ cs, isNamePart d = true := fun d hd => h.part d (List.mem_cons_of_mem c hd)
    obtain ⟨taken, left⟩ := takeWhile_append_of_stop parts fun d hd => (stops d hd).1
    rw [List.cons_append]
    apply scan_cons visible
    unfold scanToken
    rw [single, double]
    simp only [notPoint, start, if_true, if_false]
    rw [taken, left]

theorem spells_word {cs : List Char} (h : IsWord cs) : Spells cs [Token.ofName cs] :=
  fun _ breaks => scan_word h breaks.stops

theorem spells_ofName {cs : List Char} {t : Token} (word : IsWord cs)
    (token : Token.ofName cs = t) : Spells cs [t] :=
  token ▸ spells_word word

theorem spells_identifier {name : String} (h : IsName name.toList) :
    Spells name.toList [.identifier name] := by
  have token := h.identifier
  rw [String.ofList_toList] at token
  exact spells_ofName h.toIsWord token

/-- What tells a digit from the characters that begin other tokens. -/
theorem digit_start {c : Char} (h : c.isDigit = true) : isBlank c = false ∧
    Symbol.ofChar? c = none ∧ Symbol.withEqual? c = none ∧ c ≠ '.' ∧ isNameStart c = false := by
  obtain ⟨lower, upper⟩ := Char.isDigit_iff_toNat.1 h
  have lower : 48 ≤ c.toNat := lower
  have upper : c.toNat < 48 + 10 := Nat.lt_succ_of_le upper
  apply Unicode.forall_between ?_ lower upper
  decide +kernel

theorem splitNumber_numeral {digits rest : List Char} (h : IsNumeral digits) (stops : Stops rest) :
    splitNumber (digits ++ rest) = (digits, rest) := by
  have noDigit : ∀ c ∈ rest.head?, c.isDigit = false := fun c hc => (stops c hc).2.1
  cases h with
  | whole _ all =>
    obtain ⟨taken, left⟩ := takeWhile_append_of_stop all noDigit
    unfold splitNumber
    rw [taken, left]
    split
    · exact absurd rfl (stops '.' rfl).2.2.1
    · rfl
  | @point whole fraction hw hf _ =>
    have point : ∀ c ∈ ('.' :: (fraction ++ rest)).head?, c.isDigit = false := by
      intro c hc
      cases hc
      decide
    obtain ⟨taken, left⟩ := takeWhile_append_of_stop hw point
    obtain ⟨taken', left'⟩ := takeWhile_append_of_stop hf noDigit
    unfold splitNumber
    rw [List.append_assoc, List.cons_append, taken, left]
    simp only [taken', left']

theorem IsNumeral.cons_cases {c : Char} {cs : List Char} (h : IsNumeral (c :: cs)) :
    c.isDigit = true ∨ c = '.' ∧ ∃ d ∈ cs.head?, d.isDigit = true := by
  generalize whole : c :: cs = digits at h
  cases h with
  | whole _ all => exact .inl (all c (whole ▸ List.mem_cons_self))
  | @point ds fs hd hf some =>
    cases ds with
    | cons d ds =>
      cases whole
      exact .inl (hd c List.mem_cons_self)
    | nil =>
      cases whole
      refine .inr ⟨rfl, ?_⟩
      cases cs with
      | nil => exact absurd rfl (some.resolve_left fun h => h rfl)
      | cons f fs => exact ⟨f, rfl, hf f List.mem_cons_self⟩

theorem scanToken_eq_scanNumber {c : Char} {cs : List Char} (h : IsNumeral (c :: cs))
    (rest : List Char) : scanToken c (cs ++ rest) = scanNumber (c :: (cs ++ rest)) := by
  rcases h.cons_cases with digit | ⟨rfl, d, hd, digit⟩
  · obtain ⟨-, single, double, notPoint, notStart⟩ := digit_start digit
    unfold scanToken
    rw [single, double]
    simp only [notPoint, notStart, digit, if_true, if_false, Bool.false_eq_true]
  · have head : ((cs ++ rest).head?.map Char.isDigit).getD false = true := by
      cases cs with
      | nil => cases hd
      | cons d' ds =>
        cases hd
        exact digit
    show (if _ then _ else _) = _
    rw [if_pos head]

theorem IsNumeral.ne_nil {digits : List Char} (h : IsNumeral digits) : digits ≠ [] := by
  cases h with
  | whole nonempty => exact nonempty
  | point => simp

/-- A number ends where neither a digit nor a point comes. -/
theorem scan_number {digits rest : List Char} (h : IsNumeral digits) (stops : Stops rest) :
    scan (digits ++ rest) = (scan rest).map (.number (String.ofList digits) :: ·) := by
  cases digits with
  | nil => exact absurd rfl h.ne_nil
  | cons c cs =>
    have visible : isBlank c = false := by
      rcases h.cons_cases with digit | ⟨rfl, -⟩
      · exact (digit_start digit).1
      · decide
    rw [List.cons_append]
    apply scan_cons visible
    rw [scanToken_eq_scanNumber h, scanNumber, ← List.cons_append, splitNumber_numeral h stops]
    split
    · next after =>
      cases after
      exact absurd rfl (stops '.' rfl).2.2.1
    · next after =>
      cases after
      rfl

theorem spells_number {digits : List Char} (h : IsNumeral digits) :
    Spells digits [.number (String.ofList digits)] :=
  fun _ breaks => scan_number h breaks.stops

theorem scanToken_quote (cs : List Char) : scanToken '\'' cs = scanString cs := by
  have start : isNameStart '\'' = false := by decide +kernel
  have single : Symbol.ofChar? '\'' = none := rfl
  have double : Symbol.withEqual? '\'' = none := rfl
  have point : ¬ '\'' = '.' := by decide
  have digit : Char.isDigit '\'' = false := by decide
  unfold scanToken
  rw [single, double]
  simp only [point, start, digit, if_true, if_false, Bool.false_eq_true]

/-- A string literal ends with its closing quote. -/
theorem scan_string {content : List Char} (h : '\'' ∉ content) (rest : List Char) :
    scan ('\'' :: (content ++ ['\'']) ++ rest) =
      (scan rest).map (.string (String.ofList content) :: ·) := by
  have inside : ∀ c ∈ content, (c != '\'') = true := by
    intro c hc
    rw [bne_iff_ne]
    rintro rfl
    exact h hc
  rw [List.cons_append]
  apply scan_cons (by decide)
  rw [scanToken_quote, List.append_assoc, List.singleton_append, scanString,
    List.takeWhile_append_of_pos inside, List.dropWhile_append_of_pos inside]
  simp

theorem spells_string {content : List Char} (h : '\'' ∉ content) :
    Spells ('\'' :: (content ++ ['\''])) [.string (String.ofList content)] :=
  fun rest _ => scan_string h rest

theorem scan_unclosed {content : List Char} (h : '\'' ∉ content) :
    scan ('\'' :: content) = .error .unterminatedString := by
  have front : dropBlanks ('\'' :: content) = '\'' :: content := by
    rw [dropBlanks_cons]
    rfl
  apply scan_of_error front
  have unclosed : content.dropWhile (· != '\'') = [] := by
    rw [List.dropWhile_eq_nil_iff]
    intro c hc
    rw [bne_iff_ne]
    rintro rfl
    exact h hc
  rw [scanToken_quote, scanString, unclosed]

namespace Rule

variable {α : Type}

theorem runOn_of_ok {rule : Rule α} {s : String} {ts : List Token} {x : α}
    (scanned : scan s.toList = .ok ts) (read : rule ts = .ok (x, [.finish])) :
    rule.runOn s = .ok x := by
  unfold runOn
  rw [scanned]
  show ((rule ts >>= _) = _)
  rw [read]
  rfl

theorem runOn_of_scan_error (rule : Rule α) {s : String} {e : Malformation}
    (refused : scan s.toList = .error e) : rule.runOn s = .error e := by
  unfold runOn
  rw [refused]
  rfl

theorem runOn_of_error {rule : Rule α} {s : String} {ts : List Token} {e : Malformation}
    (scanned : scan s.toList = .ok ts) (refused : rule ts = .error e) :
    rule.runOn s = .error e := by
  unfold runOn
  rw [scanned]
  show ((rule ts >>= _) = _)
  rw [refused]
  rfl

end Rule
end Relational.Query
