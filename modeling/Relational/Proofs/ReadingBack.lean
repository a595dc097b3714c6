import Relational.Proofs.Recognition
import Relational.Proofs.Spelling
import Relational.Proofs.StoredCells

/-!
# Reading back rows and headers

A row and a header are items with commas between them. If every item is read back as itself, so is
the whole line, and one item that cannot be read spoils it. Every stored cell is read back, except
for the words for the infinities: they are read as names, which no literal begins with.
-/
namespace Relational

open Query

variable {α : Type} {item : Rule α} {text : α → String}

/-- The text of `x` is read as `x`, whatever follows it. -/
def Reads (item : Rule α) (text : α → String) (x : α) : Prop :=
  ∃ ts, Spells (text x).toList ts ∧ ∀ more, item (ts ++ more) = .ok (x, more)

def Refuses (item : Rule α) (text : α → String) (x : α) : Prop :=
  ∃ ts, Spells (text x).toList ts ∧ ∀ more, ∃ e, item (ts ++ more) = .error e

theorem spells_commaSeparated {phrase : Phrase α} {xs : List α}
    (nonempty : xs ≠ []) (h : ∀ x ∈ xs, ∃ ts, Spells (text x).toList ts ∧ phrase ts x) :
    ∃ ts, Spells (String.intercalate "," (xs.map text)).toList ts ∧
      IsCommaSeparated phrase ts xs := by
  induction xs with
  | nil => exact absurd rfl nonempty
  | cons x xs ih =>
    obtain ⟨ts, spelled, hts⟩ := h x List.mem_cons_self
    cases xs with
    | nil => exact ⟨ts, by simpa using spelled, .one hts⟩
    | cons y ys =>
      obtain ⟨us, others, hus⟩ :=
        ih (List.cons_ne_nil y ys) fun z hz => h z (List.mem_cons_of_mem x hz)
      have rest : Spells (',' :: (String.intercalate "," ((y :: ys).map text)).toList)
          (.symbol .comma :: us) := others.symbol_cons rfl rfl
      refine ⟨ts ++ .symbol .comma :: us, ?_, .more hts hus⟩
      simpa [String.intercalate_cons_cons] using spelled.append rest fun rest _ => breaks_comma _

/-- The tokens are read as `x` if it is good, and they are not read if it is bad. -/
def IsDecided (good : α → Prop) (item : Rule α) : Phrase α := fun ts x =>
  (good x → ∀ more, item (ts ++ more) = .ok (x, more)) ∧
    (¬ good x → ∀ more, ∃ e, item (ts ++ more) = .error e)

section Refused

variable {good : α → Prop} {ts rest : List Token} {xs : List α}

theorem separatedRest_refused (h : IsCommaSeparated (IsDecided good item) ts xs)
    (bad : ∃ x ∈ xs, ¬ good x) {bound : Nat} (enough : ts.length < bound) :
    ∃ e, Rule.separatedRest (.symbol .comma) item bound (.symbol .comma :: (ts ++ rest)) =
      .error e := by
  induction h generalizing bound with
  | @one ts x hx =>
    obtain ⟨bound, rfl⟩ := Nat.exists_eq_succ_of_ne_zero (Nat.ne_zero_of_lt enough)
    have refused : ¬ good x := by simpa using bad
    obtain ⟨e, he⟩ := hx.2 refused rest
    exact ⟨e, (Rule.bind_of_ok (Rule.accept_cons _ _)).trans (Rule.bind_of_error he)⟩
  | @more ts us x xs hx hxs ih =>
    obtain ⟨bound, rfl⟩ := Nat.exists_eq_succ_of_ne_zero (Nat.ne_zero_of_lt enough)
    rw [List.append_assoc, List.cons_append]
    by_cases read : good x
    · have later : ∃ y ∈ xs, ¬ good y := by simpa [read] using bad
      have fewer : us.length < bound := by
        simp only [List.length_append, List.length_cons] at enough
        omega
      obtain ⟨e, he⟩ := ih later fewer
      refine ⟨e, (Rule.bind_of_ok (Rule.accept_cons _ _)).trans ?_⟩
      exact (Rule.bind_of_ok (hx.1 read _)).trans (Rule.bind_of_error he)
    · obtain ⟨e, he⟩ := hx.2 read (.symbol .comma :: (us ++ rest))
      exact ⟨e, (Rule.bind_of_ok (Rule.accept_cons _ _)).trans (Rule.bind_of_error he)⟩

theorem commaSeparated_refused (h : IsCommaSeparated (IsDecided good item) ts xs)
    (bad : ∃ x ∈ xs, ¬ good x) : ∃ e, Rule.commaSeparated item (ts ++ rest) = .error e := by
  unfold Rule.commaSeparated
  rw [Rule.separated_apply]
  cases h with
  | @one _ x hx =>
    have refused : ¬ good x := by simpa using bad
    obtain ⟨e, he⟩ := hx.2 refused rest
    exact ⟨e, Rule.bind_of_error he⟩
  | @more ts us x xs hx hxs =>
    rw [List.append_assoc, List.cons_append]
    by_cases read : good x
    · have later : ∃ y ∈ xs, ¬ good y := by simpa [read] using bad
      have fewer : us.length < (Token.symbol .comma :: (us ++ rest)).length := by
        simp only [List.length_cons, List.length_append]
        omega
      obtain ⟨e, he⟩ := separatedRest_refused hxs later fewer
      exact ⟨e, (Rule.bind_of_ok (hx.1 read _)).trans (Rule.bind_of_error he)⟩
    · obtain ⟨e, he⟩ := hx.2 read (.symbol .comma :: (us ++ rest))
      exact ⟨e, Rule.bind_of_error he⟩

end Refused

/-- A line of items is read back as a whole, or not at all. -/
theorem runOn_commaSeparated {good : α → Prop} {xs : List α} (nonempty : xs ≠ [])
    (h : ∀ x ∈ xs, (good x → Reads item text x) ∧ (¬ good x → Refuses item text x)) :
    ((∀ x ∈ xs, good x) →
      (Rule.commaSeparated item).runOn (String.intercalate "," (xs.map text)) = .ok xs) ∧
    ((∃ x ∈ xs, ¬ good x) →
      ∃ e, (Rule.commaSeparated item).runOn (String.intercalate "," (xs.map text)) = .error e) := by
  constructor
  · intro good
    obtain ⟨ts, spelled, hts⟩ := spells_commaSeparated nonempty fun x hx => (h x hx).1 (good x hx)
    have complete : (Rule.commaSeparated item).Complete _ [.symbol .comma] :=
      Rule.complete_separated (fun us x (hx : ∀ more, item (us ++ more) = .ok (x, more)) rest _ =>
        hx rest) List.not_mem_nil
    exact (Rule.runOn_of_scan spelled.scan_eq).trans (complete.readAll (by decide) hts)
  · intro bad
    have each : ∀ x ∈ xs, ∃ ts, Spells (text x).toList ts ∧ IsDecided good item ts x := by
      intro x hx
      by_cases read : good x
      · obtain ⟨ts, spelled, reads⟩ := (h x hx).1 read
        exact ⟨ts, spelled, fun _ => reads, fun bad => absurd read bad⟩
      · obtain ⟨ts, spelled, refuses⟩ := (h x hx).2 read
        exact ⟨ts, spelled, fun good => absurd good read, fun _ => refuses⟩
    obtain ⟨ts, spelled, hts⟩ := spells_commaSeparated nonempty each
    obtain ⟨e, he⟩ : ∃ e, Rule.commaSeparated item (ts ++ [.finish]) = .error e :=
      commaSeparated_refused hts bad
    exact ⟨e, Rule.runOn_of_error spelled.scan_eq he⟩

def Value.IsInfinite (v : Value) : Prop := ∃ negative, v = .literal (Binary64.infinityText negative)

theorem isNumeral_thousandthsDigits (n : Nat) : IsNumeral (Binary64.thousandthsDigits n) :=
  .point (fun _ => isDigit_of_mem_toDigits) (fun _ => isDigit_of_mem_lastThree n)
    (.inl Nat.toDigits_ne_nil)

theorem isNumber_signDigits {digits : List Char} (h : IsNumeral digits) (negative : Bool) :
    IsNumber (String.ofList (Binary64.signDigits negative ++ digits)) := by
  refine ⟨String.ofList digits, String.toList_ofList.symm ▸ h, ?_⟩
  cases negative with
  | true =>
    right
    apply String.toList_injective
    simp [Binary64.signDigits]
  | false => exact .inl rfl

theorem Binary64.isNumber_storedText (negative : Bool) (rank : Fin finiteCount) :
    IsNumber (finite negative rank).storedText := by
  rw [storedText]
  exact isNumber_signDigits (isNumeral_thousandthsDigits _) negative

theorem IsNumber.reads {s : String} (h : IsNumber s) : Reads literal Value.text (.literal s) := by
  obtain ⟨digits, numeral, hs | hs⟩ := h
  · subst hs
    refine ⟨[.number s], ?_, fun more => rfl⟩
    simpa [Value.text] using spells_number numeral
  · subst hs
    refine ⟨[.symbol .minus, .number digits], ?_, fun more => rfl⟩
    have spelled := (spells_number numeral).symbol_cons (c := '-') (s := .minus) rfl rfl
    rw [String.ofList_toList] at spelled
    simpa [Value.text] using spelled

theorem IsQuoted.reads {K : Char → Prop} {s : String} (h : IsQuoted K s) :
    Reads literal Value.text (.literal s) := by
  obtain ⟨content, rfl, hcontent⟩ := h
  refine ⟨[.string content], ?_, fun more => rfl⟩
  have spelled := spells_string fun inside => (hcontent _ inside).1 rfl
  rw [String.ofList_toList] at spelled
  simpa [Value.text] using spelled

theorem reads_noValue : Reads literal Value.text .noValue := by
  have word : IsWord Value.noValueText.toList := by decide +kernel
  have token : Token.ofName Value.noValueText.toList = .noValue := by decide +kernel
  exact ⟨[.noValue], spells_ofName word token, fun more => rfl⟩

theorem refuses_infinityText (negative : Bool) :
    Refuses literal Value.text (.literal (Binary64.infinityText negative)) := by
  have word : IsWord "inf".toList := by decide +kernel
  have token : Token.ofName "inf".toList = .identifier "inf" := by decide +kernel
  have spelled := spells_ofName word token
  cases negative with
  | true =>
    have front : (Value.text (.literal (Binary64.infinityText true))).toList =
        '-' :: "inf".toList := by decide
    refine ⟨[.symbol .minus, .identifier "inf"], ?_, fun more => ⟨_, rfl⟩⟩
    rw [front]
    exact spelled.symbol_cons rfl rfl
  | false => exact ⟨[.identifier "inf"], spelled, fun more => ⟨_, rfl⟩⟩

theorem reads_of_stored {type : ColumnType} {v : Value} (h : v.Stored type) :
    (¬ v.IsInfinite → Reads literal Value.text v) ∧
      (¬ ¬ v.IsInfinite → Refuses literal Value.text v) := by
  have refused (infinite : ¬ ¬ v.IsInfinite) : Refuses literal Value.text v := by
    obtain ⟨negative, rfl⟩ := not_not.1 infinite
    exact refuses_infinityText negative
  refine ⟨fun finite => ?_, refused⟩
  cases v with
  | noValue => exact reads_noValue
  | literal s =>
    cases type with
    | string => exact IsQuoted.reads h
    | int => exact h.1.isNumber.reads
    | float =>
      rcases h with ⟨negative, rank, rfl⟩ | ⟨negative, rfl⟩
      · exact (Binary64.isNumber_storedText negative rank).reads
      · exact absurd ⟨negative, rfl⟩ finite

theorem Value.Stored.spells {type : ColumnType} {v : Value} (h : v.Stored type) :
    ∃ ts, Spells v.text.toList ts := by
  by_cases infinite : v.IsInfinite
  · obtain ⟨ts, hts, -⟩ := (reads_of_stored h).2 (not_not.2 infinite)
    exact ⟨ts, hts⟩
  · obtain ⟨ts, hts, -⟩ := (reads_of_stored h).1 infinite
    exact ⟨ts, hts⟩

theorem spells_typeName (type : ColumnType) :
    ∃ k, Spells type.name.toList [.keyword k] ∧
      ∀ more, columnType (.keyword k :: more) = .ok (type, more) := by
  cases type with
  | string => exact ⟨.string, spells_ofName (by decide +kernel) (by decide +kernel), fun _ => rfl⟩
  | int => exact ⟨.int, spells_ofName (by decide +kernel) (by decide +kernel), fun _ => rfl⟩
  | float => exact ⟨.float, spells_ofName (by decide +kernel) (by decide +kernel), fun _ => rfl⟩

theorem reads_attribute {a : Attribute} (h : IsName a.name.toList) :
    Reads columnDefinition Attribute.text a := by
  obtain ⟨k, hk, type⟩ := spells_typeName a.type
  have spelled := (spells_identifier h).spaced hk
  refine ⟨[.identifier a.name, .keyword k], ?_, fun more => ?_⟩
  · simpa [Attribute.text] using spelled
  · show (Rule.identifier >>= _) (.identifier a.name :: .keyword k :: more) = _
    rw [Rule.bind_apply, Rule.identifier_cons]
    dsimp only
    rw [Rule.bind_apply, type]
    rfl

end Relational
