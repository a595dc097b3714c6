import Mathlib.Data.List.TakeWhile
import Mathlib.Data.List.Basic
import Relational.Proofs.Results
import Relational.Query.Scan

/-!
# What tokens are made of

A token that has been read is as its kind promises: the characters of a name begin and go on like a
name and are no word of the language, a number has digits and one point at most, and the content of
a string literal has no quote. The content is part of the text that was read.
-/
namespace Relational.Query

open Text (isBlank dropBlanks)

/-- Digits with one point at most. -/
inductive IsNumeral : List Char → Prop
  | whole {digits : List Char} : digits ≠ [] → (∀ c ∈ digits, c.isDigit = true) → IsNumeral digits
  | point {digits fraction : List Char} : (∀ c ∈ digits, c.isDigit = true) →
    (∀ c ∈ fraction, c.isDigit = true) → digits ≠ [] ∨ fraction ≠ [] →
    IsNumeral (digits ++ '.' :: fraction)

theorem IsNumeral.mem {digits : List Char} (h : IsNumeral digits) :
    ∀ c ∈ digits, c.isDigit = true ∨ c = '.' := by
  intro c hc
  cases h with
  | whole _ all => exact .inl (all c hc)
  | point hw hf _ =>
    rcases List.mem_append.1 hc with hc | hc
    · exact .inl (hw c hc)
    · rcases List.mem_cons.1 hc with hc | hc
      · exact .inr hc
      · exact .inl (hf c hc)

/-- Characters that are read together, as a name or as a word of the language. -/
structure IsWord (cs : List Char) : Prop where
  start : ∀ c ∈ cs.head?, isBlank c = false ∧ Symbol.ofChar? c = none ∧ Symbol.withEqual? c = none ∧
    c ≠ '.' ∧ isNameStart c = true
  part : ∀ c ∈ cs, isNamePart c = true
  nonempty : cs ≠ []

instance : (cs : List Char) → Decidable (IsWord cs)
  | [] => isFalse fun h => h.nonempty rfl
  | c :: cs =>
    decidable_of_iff ((isBlank c = false ∧ Symbol.ofChar? c = none ∧ Symbol.withEqual? c = none ∧
        c ≠ '.' ∧ isNameStart c = true) ∧ (c :: cs).all isNamePart = true)
      ⟨fun ⟨start, part⟩ => ⟨fun _ hd => Option.some.inj hd ▸ start, List.all_eq_true.1 part,
          List.cons_ne_nil c cs⟩,
        fun h => ⟨h.start c rfl, List.all_eq_true.2 h.part⟩⟩

structure IsName (cs : List Char) : Prop extends IsWord cs where
  identifier : Token.ofName cs = .identifier (String.ofList cs)

/-- A token as its kind promises. The characters of a string literal have the property `K`. -/
def Token.Good (K : Char → Prop) : Token → Prop
  | .identifier s => IsName s.toList
  | .number s => IsNumeral s.toList
  | .string s => ∀ c ∈ s.toList, c ≠ '\'' ∧ K c
  | _ => True

/-- A token that begins with `c`, and what follows it in `cs`. -/
inductive Scanned (c : Char) (cs : List Char) : Token → List Char → Prop
  | symbol (s : Symbol) {rest : List Char} : rest <:+ cs → Scanned c cs (.symbol s) rest
  | name : Symbol.ofChar? c = none → Symbol.withEqual? c = none → c ≠ '.' → isNameStart c = true →
    Scanned c cs (Token.ofName (c :: cs.takeWhile isNamePart)) (cs.dropWhile isNamePart)
  | number {digits rest : List Char} : IsNumeral digits → c :: cs = digits ++ rest →
    Scanned c cs (.number (String.ofList digits)) rest
  | string {content rest : List Char} : '\'' ∉ content → cs = content ++ '\'' :: rest →
    Scanned c cs (.string (String.ofList content)) rest

theorem splitNumber_append (cs : List Char) : (splitNumber cs).1 ++ (splitNumber cs).2 = cs := by
  have whole := List.takeWhile_append_dropWhile (p := Char.isDigit) (l := cs)
  unfold splitNumber
  split
  · next rest h =>
    have fraction := List.takeWhile_append_dropWhile (p := Char.isDigit) (l := rest)
    rw [h] at whole
    rw [List.append_assoc, List.cons_append, fraction, whole]
  · exact whole

theorem isNumeral_splitNumber {c : Char} {cs : List Char}
    (h : c.isDigit = true ∨ c = '.' ∧ ∃ d ∈ cs.head?, d.isDigit = true) :
    IsNumeral (splitNumber (c :: cs)).1 := by
  have digits (ds : List Char) : ∀ d ∈ ds.takeWhile Char.isDigit, d.isDigit = true :=
    fun d hd => List.mem_takeWhile_imp hd
  have first (d : Char) (ds : List Char) (hd : d.isDigit = true) :
      (d :: ds).takeWhile Char.isDigit ≠ [] := by
    simp [hd]
  rcases h with digit | ⟨rfl, d, hd, digit⟩
  · unfold splitNumber
    split
    · exact .point (digits _) (digits _) (.inl (first c cs digit))
    · exact .whole (first c cs digit) (digits _)
  · have fraction : cs.takeWhile Char.isDigit ≠ [] := by
      cases cs with
      | nil => cases hd
      | cons d' ds =>
        cases hd
        exact first d ds digit
    have pointed : (splitNumber ('.' :: cs)).1 = [] ++ '.' :: cs.takeWhile Char.isDigit := by
      simp [splitNumber]
    rw [pointed]
    exact .point (fun c hc => absurd hc List.not_mem_nil) (digits cs) (.inr fraction)

theorem scanNumber_scanned {c : Char} {cs rest : List Char} {t : Token}
    (h : c.isDigit = true ∨ c = '.' ∧ ∃ d ∈ cs.head?, d.isDigit = true)
    (ht : scanNumber (c :: cs) = .ok (t, rest)) : Scanned c cs t rest := by
  have numeral := isNumeral_splitNumber h
  have parts := splitNumber_append (c :: cs)
  unfold scanNumber at ht
  generalize splitNumber (c :: cs) = split at ht numeral parts
  obtain ⟨digits, after⟩ := split
  dsimp only at ht numeral parts
  split at ht
  · cases ht
  · next hs =>
    cases hs
    cases ht
    exact .number numeral parts.symm

theorem scanString_scanned {c : Char} {cs rest : List Char} {t : Token}
    (h : scanString cs = .ok (t, rest)) : Scanned c cs t rest := by
  have parts := List.takeWhile_append_dropWhile (p := (· != '\'')) (l := cs)
  unfold scanString at h
  split at h
  · cases h
  · next q after hq =>
    cases h
    have quote : q = '\'' := by
      have stopped := List.head?_dropWhile_not (fun c : Char => c != '\'') cs
      rw [hq] at stopped
      simpa using stopped
    rw [hq, quote] at parts
    refine .string (fun inside => ?_) parts.symm
    simpa using List.mem_takeWhile_imp inside

theorem scanToken_scanned {c : Char} {cs rest : List Char} {t : Token}
    (h : scanToken c cs = .ok (t, rest)) : Scanned c cs t rest := by
  unfold scanToken at h
  split at h
  · cases h
    exact .symbol _ (List.suffix_refl cs)
  · unfold scanWithEqual at h
    split at h
    · cases h
      exact .symbol _ (List.suffix_cons _ _)
    · split at h
      · cases h
        exact .symbol _ (List.suffix_refl cs)
      · cases h
  · next single double =>
    split at h
    · next point =>
      split at h
      · next digit =>
        refine scanNumber_scanned (.inr ⟨point, ?_⟩) h
        cases cs with
        | nil => cases digit
        | cons d ds => exact ⟨d, rfl, digit⟩
      · cases h
        exact .symbol _ (List.suffix_refl cs)
    · next notPoint =>
      split at h
      · next start =>
        cases h
        exact .name single double notPoint start
      · split at h
        · next digit => exact scanNumber_scanned (.inl digit) h
        · split at h
          · exact scanString_scanned h
          · cases h

theorem Scanned.suffix {c : Char} {cs rest : List Char} {t : Token} (h : Scanned c cs t rest) :
    rest <:+ c :: cs := by
  cases h with
  | symbol _ hs => exact hs.trans (List.suffix_cons c cs)
  | name => exact (List.dropWhile_suffix _).trans (List.suffix_cons c cs)
  | number _ parts => exact ⟨_, parts.symm⟩
  | @string content _ _ parts =>
    rw [parts]
    exact ⟨c :: (content ++ ['\'']), by simp⟩

/-- What holds of every token that a character of the text can begin holds of all tokens. -/
theorem forall_scan {P : Token → Prop} {cs : List Char} {ts : List Token} (finish : P .finish)
    (step : ∀ c following t rest, isBlank c = false → c :: following <:+ cs →
      Scanned c following t rest → P t)
    (h : scan cs = .ok ts) : ∀ t ∈ ts, P t := by
  induction hn : cs.length using Nat.strong_induction_on generalizing cs ts with
  | _ n ih =>
    subst hn
    cases front : dropBlanks cs with
    | nil =>
      rw [scan_of_blank front] at h
      cases h
      exact fun t ht => (List.mem_singleton.1 ht).symm ▸ finish
    | cons c following =>
      have suffix : c :: following <:+ cs := front ▸ List.dropWhile_suffix isBlank
      have visible : isBlank c = false := by
        have stopped := List.head?_dropWhile_not isBlank cs
        rw [show cs.dropWhile isBlank = c :: following from front] at stopped
        simpa using stopped
      cases token : scanToken c following with
      | error e =>
        rw [scan_of_error front token] at h
        cases h
      | ok result =>
        obtain ⟨t, rest⟩ := result
        rw [scan_of_token front token] at h
        obtain ⟨others, hothers, rfl⟩ := map_eq_ok.1 h
        have scanned := scanToken_scanned token
        have shorter : rest.length < cs.length := by
          have taken := length_scanToken_le token
          have whole := suffix.length_le
          rw [List.length_cons] at whole
          omega
        have inside : rest <:+ cs := scanned.suffix.trans suffix
        have tail := ih rest.length shorter
          (fun d ds t' rest' hd hds => step d ds t' rest' hd (hds.trans inside)) hothers rfl
        exact List.forall_mem_cons.2 ⟨step c following t rest visible suffix scanned, tail⟩

theorem good_scan {K : Char → Prop} {cs : List Char} {ts : List Token} (hK : ∀ c ∈ cs, K c)
    (h : scan cs = .ok ts) : ∀ t ∈ ts, t.Good K := by
  refine forall_scan trivial ?_ h
  intro c following t rest visible suffix scanned
  have inside : ∀ d ∈ c :: following, K d := fun d hd => hK d (suffix.subset hd)
  cases scanned with
  | symbol => trivial
  | name single double notPoint start =>
    unfold Token.ofName
    split
    · trivial
    · next notMissing =>
      split
      · trivial
      · next notKeyword =>
        have name : IsName (c :: following.takeWhile isNamePart) := by
          refine ⟨⟨?_, ?_, List.cons_ne_nil _ _⟩, ?_⟩
          · intro d hd
            cases hd
            exact ⟨visible, single, double, notPoint, start⟩
          · refine List.forall_mem_cons.2 ⟨isNamePart_of_isNameStart start, ?_⟩
            exact fun d hd => List.mem_takeWhile_imp hd
          · rw [Token.ofName, if_neg notMissing, notKeyword]
        show IsName (String.ofList (c :: following.takeWhile isNamePart)).toList
        rw [String.toList_ofList]
        exact name
  | @number digits _ numeral =>
    show IsNumeral (String.ofList digits).toList
    rw [String.toList_ofList]
    exact numeral
  | @string content _ noQuote parts =>
    show ∀ d ∈ (String.ofList content).toList, d ≠ '\'' ∧ K d
    rw [String.toList_ofList]
    intro d hd
    refine ⟨fun quote => noQuote (quote ▸ hd), inside d (List.mem_cons_of_mem c ?_)⟩
    rw [parts]
    exact List.mem_append_left _ hd

end Relational.Query
