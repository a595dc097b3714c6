import Relational.Proofs.EndOfText
import Relational.Proofs.Spelling

/-!
# Tokens in writing

There are tokens that no text has, such as a name with a blank in it. The others can be written: a
keyword in any mixture of small and capital letters, a string literal between quotes, and all else
as it is. Tokens that are written one after the other, with blanks between them, are read as the
same tokens. So reading undoes writing, and what has been read can be written and read again.

A blank ends every token, since no token has a blank in it but a string literal, and that has an end
of its own.
-/
namespace Relational.Query

open Text (isBlank)

/-- A word in any mixture of small and capital letters. -/
def IsCasing (small word : List Char) : Prop :=
  List.Forall₂ (fun d c => c = d ∨ c = d.toUpper) small word

/-- What a token of a text is like. A name is neither the word for a missing value nor a keyword.
The end of a text is not one of its tokens. -/
def Token.WellFormed : Token → Prop
  | .identifier name =>
    (∃ c cs, name.toList = c :: cs ∧ isNameStart c = true ∧ ∀ d ∈ cs, isNamePart d = true) ∧
      name ≠ Value.noValueText ∧ ∀ k : Keyword, ¬ IsCasing k.spelling.toList name.toList
  | .number digits => IsNumeral digits.toList
  | .string content => '\'' ∉ content.toList
  | .keyword _ | .symbol _ | .noValue => True
  | .finish => False

inductive Token.IsWritten : Token → List Char → Prop
  | keyword {k : Keyword} {word : List Char} : IsCasing k.spelling.toList word →
    IsWritten (.keyword k) word
  | symbol (s : Symbol) : IsWritten (.symbol s) s.spelling.toList
  | identifier (name : String) : IsWritten (.identifier name) name.toList
  | number (digits : String) : IsWritten (.number digits) digits.toList
  | string (content : String) : IsWritten (.string content) ('\'' :: (content.toList ++ ['\'']))
  | noValue : IsWritten .noValue Value.noValueText.toList

/-- Blanks, or nothing. -/
def IsGap (cs : List Char) : Prop := ∀ c ∈ cs, isBlank c = true

/-- Tokens in writing, each apart from the next one. -/
inductive AreWritten : List Token → List Char → Prop
  | nil : AreWritten [] []
  | one {t : Token} {word : List Char} : t.IsWritten word → AreWritten [t] word
  | more {t u : Token} {ts : List Token} {word gap rest : List Char} : t.IsWritten word →
    gap ≠ [] → IsGap gap → AreWritten (u :: ts) rest →
    AreWritten (t :: u :: ts) (word ++ (gap ++ rest))

/-- A text of the tokens. There may be blanks before the first one and after the last one. -/
def IsTextOf (ts : List Token) (text : List Char) : Prop :=
  ∃ lead cs trail, IsGap lead ∧ AreWritten ts cs ∧ IsGap trail ∧ text = lead ++ (cs ++ trail)

section Blanks
variable {c : Char} {cs gap rest : List Char}

theorem isNamePart_eq_false_of_isBlank (h : isBlank c = true) : isNamePart c = false := by
  have letter : Unicode.isAlphabetic c = false :=
    Unicode.covers_eq_false_of_apart h (by decide +kernel)
  have digit : Unicode.isNumeric c = false :=
    Unicode.covers_eq_false_of_apart h (by decide +kernel)
  have underscore : (c == '_') = false := by
    rw [beq_eq_false_iff_ne]
    rintro rfl
    cases h
  simp [isNamePart, letter, digit, underscore]

theorem stops_nil : Stops [] := fun _ h => nomatch h

theorem stops_of_isBlank (h : isBlank c = true) : Stops (c :: rest) := by
  rintro d ⟨⟩
  refine ⟨isNamePart_eq_false_of_isBlank h, ?_, ?_, ?_⟩
  · by_contra digit
    rw [(digit_start (Bool.not_eq_false _ ▸ digit)).1] at h
    cases h
  · rintro rfl
    cases h
  · rintro rfl
    cases h

theorem IsGap.stops (h : IsGap gap) (nonempty : gap ≠ []) (rest : List Char) :
    Stops (gap ++ rest) := by
  cases gap with
  | nil => exact absurd rfl nonempty
  | cons c gap => exact stops_of_isBlank (h c List.mem_cons_self)

theorem IsGap.stops_end (h : IsGap gap) : Stops gap := by
  cases gap with
  | nil => exact stops_nil
  | cons c gap => exact stops_of_isBlank (h c List.mem_cons_self)

theorem IsGap.scan_append (h : IsGap gap) (cs : List Char) : scan (gap ++ cs) = scan cs :=
  scan_congr (List.dropWhile_append_of_pos h)

theorem IsGap.scan_end (h : IsGap gap) : scan gap = .ok [.finish] :=
  scan_of_blank (List.dropWhile_eq_nil_iff.2 h)

end Blanks

section Words
variable {c : Char} {cs word small : List Char} {k : Keyword}

/-- No other token begins like a name. -/
theorem isWord_of_isNameStart (start : isNameStart c = true)
    (part : ∀ d ∈ cs, isNamePart d = true) : IsWord (c :: cs) := by
  have signs : ("(),;*+-/=!<>.".toList.any isNameStart) = false := by decide +kernel
  have apart : c ∉ "(),;*+-/=!<>.".toList := fun sign => List.any_eq_false.1 signs c sign start
  have whole : isNamePart c = true := isNamePart_of_isNameStart start
  refine ⟨?_, List.forall_mem_cons.2 ⟨whole, part⟩, List.cons_ne_nil c cs⟩
  rintro d ⟨⟩
  refine ⟨?_, ?_, ?_, ?_, start⟩
  · by_contra blank
    rw [isNamePart_eq_false_of_isBlank (Bool.not_eq_false _ ▸ blank)] at whole
    cases whole
  · unfold Symbol.ofChar?
    split <;> first | rfl | exact absurd (by decide) apart
  · unfold Symbol.withEqual?
    split <;> first | rfl | exact absurd (by decide) apart
  · rintro rfl
    exact apart (by decide)

theorem eq_or_eq_toUpper_toLower (c : Char) : c = c.toLower ∨ c = c.toLower.toUpper := by
  by_cases capital : 65 ≤ c.toNat ∧ c.toNat < 65 + 26
  · right
    apply Unicode.forall_between ?_ capital.1 capital.2
    decide
  · left
    unfold Char.toLower
    rw [dif_neg]
    intro h
    exact capital ⟨h.1, Nat.lt_succ_of_le h.2⟩

theorem isCasing_of_map_toLower (h : word.map Char.toLower = small) : IsCasing small word := by
  subst h
  rw [IsCasing, List.forall₂_map_left_iff, List.forall₂_same]
  exact fun c _ => eq_or_eq_toUpper_toLower c

theorem isCasing_self (small : List Char) : IsCasing small small :=
  List.forall₂_same.2 fun _ _ => .inl rfl

theorem keyword_letter (k : Keyword) : ∀ d ∈ k.spelling.toList,
    isNameStart d = true ∧ isNameStart d.toUpper = true ∧ d.toLower = d ∧
      d.toUpper.toLower = d := by
  have letters : (k.spelling.toList.all fun d => isNameStart d && isNameStart d.toUpper &&
      d.toLower == d && d.toUpper.toLower == d) = true := by
    cases k <;> decide +kernel
  intro d hd
  simpa [and_assoc] using List.all_eq_true.1 letters d hd

theorem map_toLower_of_isCasing (h : IsCasing k.spelling.toList word) :
    word.map Char.toLower = k.spelling.toList := by
  have letters := keyword_letter k
  generalize k.spelling.toList = small at h letters
  induction h with
  | nil => rfl
  | @cons d c small word here _ ih =>
    obtain ⟨letter, rest⟩ := List.forall_mem_cons.1 letters
    have lower : c.toLower = d := by
      rcases here with rfl | rfl
      · exact letter.2.2.1
      · exact letter.2.2.2
    rw [List.map_cons, lower, ih rest]

theorem isWord_of_isCasing (h : IsCasing k.spelling.toList word) : IsWord word := by
  have starts : ∀ c ∈ word, isNameStart c = true := by
    intro c hc
    obtain ⟨d, hd, casing⟩ := exists_of_mem_right h hc
    obtain ⟨small, capital, -⟩ := keyword_letter k d hd
    rcases casing with rfl | rfl
    · exact small
    · exact capital
  cases h' : word with
  | nil =>
    subst h'
    have empty := List.forall₂_nil_right_iff.1 h
    cases k <;> cases empty
  | cons c cs =>
    subst h'
    exact isWord_of_isNameStart (starts c List.mem_cons_self) fun d hd =>
      isNamePart_of_isNameStart (starts d (List.mem_cons_of_mem c hd))

theorem ofWord?_eq_some_iff : Keyword.ofWord? word = some k ↔ IsCasing k.spelling.toList word := by
  constructor
  · intro h
    have same := List.find?_some h
    exact isCasing_of_map_toLower (beq_iff_eq.1 same).symm
  · intro h
    unfold Keyword.ofWord?
    rw [map_toLower_of_isCasing h]
    cases k <;> decide

theorem ofName_of_isCasing (h : IsCasing k.spelling.toList word) :
    Token.ofName word = .keyword k := by
  have other : word ≠ Value.noValueText.toList := by
    rintro rfl
    have lower := map_toLower_of_isCasing h
    revert lower
    cases k <;> decide
  rw [Token.ofName, if_neg other, ofWord?_eq_some_iff.2 h]

end Words

section Reading
variable {t : Token} {ts : List Token} {cs word rest text : List Char}

theorem Token.WellFormed.ofName {name : String} (h : (Token.identifier name).WellFormed) :
    IsWord name.toList ∧ Token.ofName name.toList = .identifier name := by
  obtain ⟨⟨c, cs, chars, start, part⟩, present, noKeyword⟩ := h
  constructor
  · rw [chars]
    exact isWord_of_isNameStart start part
  · have other : name.toList ≠ Value.noValueText.toList := fun h => present (String.toList_inj.1 h)
    have noWord : Keyword.ofWord? name.toList = none := by
      cases keyword : Keyword.ofWord? name.toList with
      | none => rfl
      | some k => exact absurd (ofWord?_eq_some_iff.1 keyword) (noKeyword k)
    rw [Token.ofName, if_neg other, noWord, String.ofList_toList]

theorem scanWithEqual_of_stops (c : Char) (both alone : Symbol) (stops : Stops rest) :
    scanWithEqual c both (some alone) rest = .ok (.symbol alone, rest) := by
  unfold scanWithEqual
  split
  · exact absurd rfl (stops '=' rfl).2.2.2
  · rfl

/-- A symbol that a longer one begins with ends where that one does not go on. -/
theorem scan_symbol (s : Symbol) (stops : Stops rest) :
    scan (s.spelling.toList ++ rest) = (scan rest).map (.symbol s :: ·) := by
  cases s with
  | dot =>
    apply scan_cons rfl
    have noNumber : ¬ (rest.head?.map Char.isDigit).getD false = true := by
      cases rest with
      | nil => exact Bool.false_ne_true
      | cons c rest => exact ne_true_of_eq_false (stops c rfl).2.1
    show (if _ then _ else _) = _
    exact if_neg noNumber
  | lower => exact scan_cons rfl (scanWithEqual_of_stops '<' .lowerEqual .lower stops)
  | greater => exact scan_cons rfl (scanWithEqual_of_stops '>' .greaterEqual .greater stops)
  | _ => exact scan_cons rfl rfl

theorem Token.IsWritten.scan_append (h : t.IsWritten word) (good : t.WellFormed)
    (stops : Stops rest) : scan (word ++ rest) = (scan rest).map (t :: ·) := by
  cases h with
  | keyword casing => rw [scan_word (isWord_of_isCasing casing) stops, ofName_of_isCasing casing]
  | symbol s => exact scan_symbol s stops
  | identifier name =>
    obtain ⟨word, same⟩ := good.ofName
    rw [scan_word word stops, same]
  | number digits =>
    have read := scan_number good stops
    rwa [String.ofList_toList] at read
  | string content =>
    have read := scan_string good rest
    rwa [String.ofList_toList] at read
  | noValue =>
    have missing : Token.ofName Value.noValueText.toList = .noValue := if_pos rfl
    rw [scan_word (by decide +kernel) stops, missing]

theorem AreWritten.scan_append (h : AreWritten ts cs) (good : ∀ t ∈ ts, t.WellFormed)
    (stops : Stops rest) : scan (cs ++ rest) = (scan rest).map (ts ++ ·) := by
  induction h with
  | nil => exact (map_nil_append (scan rest)).symm
  | one written => exact written.scan_append (good _ List.mem_cons_self) stops
  | more written nonempty gap others ih =>
    obtain ⟨first, good⟩ := List.forall_mem_cons.1 good
    rw [List.append_assoc, List.append_assoc, written.scan_append first (gap.stops nonempty _),
      gap.scan_append, ih good]
    exact map_append_map [_] _

theorem IsTextOf.scan_eq (h : IsTextOf ts text) (good : ∀ t ∈ ts, t.WellFormed) :
    scan text = .ok (ts ++ [.finish]) := by
  obtain ⟨lead, cs, trail, before, written, after, rfl⟩ := h
  rw [before.scan_append, written.scan_append good after.stops_end, after.scan_end]
  rfl

theorem Token.WellFormed.exists_isWritten (h : t.WellFormed) : ∃ word, t.IsWritten word := by
  cases t with
  | keyword k => exact ⟨_, .keyword (isCasing_self k.spelling.toList)⟩
  | symbol s => exact ⟨_, .symbol s⟩
  | identifier name => exact ⟨_, .identifier name⟩
  | number digits => exact ⟨_, .number digits⟩
  | string content => exact ⟨_, .string content⟩
  | noValue => exact ⟨_, .noValue⟩
  | finish => exact h.elim

theorem exists_areWritten (good : ∀ t ∈ ts, t.WellFormed) : ∃ cs, AreWritten ts cs := by
  induction ts with
  | nil => exact ⟨[], .nil⟩
  | cons t ts ih =>
    obtain ⟨first, good⟩ := List.forall_mem_cons.1 good
    obtain ⟨word, written⟩ := first.exists_isWritten
    cases ts with
    | nil => exact ⟨word, .one written⟩
    | cons u us =>
      obtain ⟨cs, others⟩ := ih good
      have gap : IsGap [' '] := fun c hc => List.mem_singleton.1 hc ▸ Text.isBlank_space
      exact ⟨_, .more written (List.cons_ne_nil ' ' []) gap others⟩

theorem exists_isTextOf (good : ∀ t ∈ ts, t.WellFormed) : ∃ text, IsTextOf ts text := by
  obtain ⟨cs, written⟩ := exists_areWritten good
  have noGap : IsGap [] := fun _ h => nomatch h
  exact ⟨_, [], cs, [], noGap, written, noGap, rfl⟩

theorem Token.Good.wellFormed {K : Char → Prop} (h : t.Good K) (inside : t ≠ .finish) :
    t.WellFormed := by
  cases t with
  | identifier name =>
    have h : IsName name.toList := h
    have same := h.identifier
    refine ⟨?_, ?_, ?_⟩
    · cases chars : name.toList with
      | nil => exact absurd chars h.nonempty
      | cons c cs =>
        have start := h.start c (chars ▸ rfl)
        exact ⟨c, cs, rfl, start.2.2.2.2, fun d hd => h.part d (chars ▸ List.mem_cons_of_mem c hd)⟩
    · rintro rfl
      cases same
    · intro k casing
      rw [ofName_of_isCasing casing] at same
      cases same
  | number digits => exact h
  | string content => exact fun quote => (h '\'' quote).1 rfl
  | finish => exact inside rfl
  | _ => trivial

theorem Ended.exists_append (h : Ended ts) :
    ∃ us, ts = us ++ [.finish] ∧ ∀ t ∈ us, t ≠ .finish := by
  induction h with
  | finish => exact ⟨[], rfl, fun _ h => nomatch h⟩
  | cons inside _ ih =>
    obtain ⟨us, rfl, others⟩ := ih
    exact ⟨_ :: us, rfl, List.forall_mem_cons.2 ⟨inside, others⟩⟩

/-- The tokens of a text are well formed, and its end follows them. -/
theorem wellFormed_of_scan {read : List Token} (h : scan text = .ok read) :
    ∃ ts, read = ts ++ [.finish] ∧ ∀ t ∈ ts, t.WellFormed := by
  obtain ⟨ts, rfl, inside⟩ := (ended_scan h).exists_append
  have good := good_scan (K := fun _ => True) (fun _ _ => trivial) h
  exact ⟨ts, rfl, fun t ht => (good t (List.mem_append_left _ ht)).wellFormed (inside t ht)⟩

/-- Well-formed tokens are read from each of their texts. Whatever has been read are well-formed
tokens up to the end of the text; they have a text, and each text of them is read as the same. -/
theorem scan_undoes_writing :
    (∀ ts text, (∀ t ∈ ts, t.WellFormed) → IsTextOf ts text → scan text = .ok (ts ++ [.finish])) ∧
    ∀ text read, scan text = .ok read → ∃ ts, read = ts ++ [.finish] ∧ (∀ t ∈ ts, t.WellFormed) ∧
      (∃ again, IsTextOf ts again) ∧ ∀ again, IsTextOf ts again → scan again = .ok read := by
  refine ⟨fun ts text good written => written.scan_eq good, fun text read h => ?_⟩
  obtain ⟨ts, rfl, good⟩ := wellFormed_of_scan h
  exact ⟨ts, rfl, good, exists_isTextOf good, fun again written => written.scan_eq good⟩

theorem scan_undoes_writing_of_signs :
    scan "select*é_1 ..5< =='a; b'NOVALUE".toList = .ok [.keyword .select, .symbol .star,
      .identifier "é_1", .symbol .dot, .number ".5", .symbol .lower, .symbol .equal,
      .string "a; b", .noValue, .finish] ∧
    scan "\t SeLeCT * é_1\n. .5\u3000< ==\r\n'a; b' NOVALUE ".toList = .ok [.keyword .select,
      .symbol .star, .identifier "é_1", .symbol .dot, .number ".5", .symbol .lower, .symbol .equal,
      .string "a; b", .noValue, .finish] := by
  have read : scan "select*é_1 ..5< =='a; b'NOVALUE".toList = .ok ([.keyword .select,
      .symbol .star, .identifier "é_1", .symbol .dot, .number ".5", .symbol .lower, .symbol .equal,
      .string "a; b", .noValue] ++ [.finish]) := by decide +kernel
  obtain ⟨ts, same, good, -⟩ := scan_undoes_writing.2 _ _ read
  obtain rfl := List.append_cancel_right same
  have gap (c : Char) (h : isBlank c = true) : IsGap [c] := fun d hd => List.mem_singleton.1 hd ▸ h
  have space : IsGap [' '] := gap ' ' rfl
  have lineEnd : IsGap ['\r', '\n'] := List.forall_mem_cons.2 ⟨rfl, gap '\n' rfl⟩
  have lead : IsGap ['\t', ' '] := List.forall_mem_cons.2 ⟨rfl, space⟩
  have select : (Token.keyword .select).IsWritten "SeLeCT".toList :=
    .keyword (isCasing_of_map_toLower rfl)
  have written := AreWritten.more select (by decide) space <|
    .more (.symbol .star) (by decide) space <|
    .more (.identifier "é_1") (by decide) (gap '\n' rfl) <|
    .more (.symbol .dot) (by decide) space <|
    .more (.number ".5") (by decide) (gap '\u3000' rfl) <|
    .more (.symbol .lower) (by decide) space <|
    .more (.symbol .equal) (by decide) lineEnd <|
    .more (.string "a; b") (by decide) space <| .one .noValue
  exact ⟨read, scan_undoes_writing.1 _ _ good ⟨_, _, _, lead, written, space, rfl⟩⟩

end Reading
end Relational.Query
