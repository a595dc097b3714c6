import Relational.Proofs.Encoding
import Relational.Proofs.ReadingBack

/-!
# Rows and headers as lines

The texts of stored cells and of attributes end with a character that can be seen, and so do a
header and a row. So these are never blank and lose nothing at the end of a line. A row is one line
unless a cell has a line feed in it, which only a string can have.
-/
namespace Relational

open Bytes (IsLine)
open Query (IsName)
open Text (isBlank isBlankText)

/-- The last character can be seen. -/
def Ends (s : String) : Prop := ∃ c ∈ s.toList.getLast?, isBlank c = false

variable {s : String} {ss : List String}

theorem Ends.isBlankText (h : Ends s) : isBlankText s = false := by
  obtain ⟨c, hc, visible⟩ := h
  rw [Text.isBlankText, List.all_eq_false]
  exact ⟨c, List.mem_of_getLast? hc, by simp [visible]⟩

theorem Ends.isLine (h : Ends s) (noLineFeed : '\n' ∉ s.toList) : IsLine s := by
  refine ⟨noLineFeed, fun last => ?_⟩
  obtain ⟨c, hc, visible⟩ := h
  obtain rfl : c = '\r' := Option.some.inj (hc.symm.trans last)
  exact absurd visible (by decide)

theorem ends_of_visible (nonempty : s.toList ≠ []) (visible : ∀ c ∈ s.toList, isBlank c = false) :
    Ends s :=
  ⟨_, List.getLast?_eq_getLast_of_ne_nil nonempty, visible _ (List.getLast_mem nonempty)⟩

theorem Ends.append (h : Ends s) (front : String) : Ends (front ++ s) := by
  obtain ⟨c, hc, visible⟩ := h
  refine ⟨c, ?_, visible⟩
  rw [String.toList_append, List.getLast?_append, hc]
  rfl

theorem ends_intercalate (nonempty : ss ≠ []) (h : ∀ s ∈ ss, Ends s) :
    Ends (String.intercalate "," ss) := by
  induction ss with
  | nil => exact absurd rfl nonempty
  | cons s ss ih =>
    cases ss with
    | nil =>
      rw [String.intercalate_singleton]
      exact h s List.mem_cons_self
    | cons t ss =>
      rw [String.intercalate_cons_cons]
      exact (ih (List.cons_ne_nil t ss) fun x hx => h x (List.mem_cons_of_mem s hx)).append _

theorem toList_intercalate_comma (s : String) (ss : List String) :
    (String.intercalate "," (s :: ss)).toList =
      s.toList ++ ss.flatMap fun s => ',' :: s.toList := by
  induction ss generalizing s with
  | nil => simp
  | cons t ss ih =>
    rw [String.intercalate_cons_cons, String.toList_append, String.toList_append, ih t]
    simp

theorem lineFeed_mem_intercalate :
    '\n' ∈ (String.intercalate "," ss).toList ↔ ∃ s ∈ ss, '\n' ∈ s.toList := by
  cases ss with
  | nil => simp
  | cons s ss =>
    rw [toList_intercalate_comma]
    simp

theorem IsNumber.ends (h : IsNumber s) : Ends s := by
  apply ends_of_visible
  · obtain ⟨digits, numeral, rfl | rfl⟩ := h
    · exact numeral.ne_nil
    · simp
  · intro c hc
    rcases h.mem c hc with digit | rfl | rfl
    · exact (Query.digit_start digit).1
    · decide
    · decide

theorem IsQuoted.ends {K : Char → Prop} (h : IsQuoted K s) : Ends s := by
  obtain ⟨content, rfl, -⟩ := h
  have quote : Ends "'" := ⟨'\'', rfl, by decide⟩
  exact quote.append _

theorem ends_infinityText (negative : Bool) : Ends (Binary64.infinityText negative) := by
  have letter : Ends "inf" := ⟨'f', rfl, by decide⟩
  cases negative with
  | true => exact letter.append "-"
  | false => exact letter

theorem Value.Stored.ends {type : ColumnType} {v : Value} (h : v.Stored type) : Ends v.text := by
  cases v with
  | noValue => exact ⟨'E', rfl, by decide⟩
  | literal s =>
    cases type with
    | string => exact IsQuoted.ends h
    | int => exact h.1.isNumber.ends
    | float =>
      rcases h with ⟨negative, rank, rfl⟩ | ⟨negative, rfl⟩
      · exact (Binary64.isNumber_storedText negative rank).ends
      · exact ends_infinityText negative

def Row.Stored (s : Schema) (r : Row) : Prop :=
  List.Forall₂ (fun (a : Attribute) v => Value.Stored a.type v) s.attributes r.values

namespace Row

variable {schema : Schema} {r : Row}

theorem Stored.mem (h : r.Stored schema) {v : Value} (hv : v ∈ r.values) :
    ∃ type, v.Stored type := by
  obtain ⟨a, -, stored⟩ := exists_of_mem_right h hv
  exact ⟨a.type, stored⟩

theorem Stored.values_ne_nil (h : r.Stored schema) (nonempty : schema.attributes ≠ []) :
    r.values ≠ [] := by
  intro empty
  rw [Stored, empty] at h
  exact nonempty (List.forall₂_nil_right_iff.1 h)

/-- A row is not blank, and it is a line if its cells have no line feeds. -/
theorem Stored.ends (h : r.Stored schema) (nonempty : schema.attributes ≠ []) : Ends r.text := by
  apply ends_intercalate
  · simpa using h.values_ne_nil nonempty
  · intro x hx
    obtain ⟨v, hv, rfl⟩ := List.mem_map.1 hx
    obtain ⟨type, stored⟩ := h.mem hv
    exact stored.ends

theorem Stored.isLine (h : r.Stored schema) (nonempty : schema.attributes ≠ [])
    (noLineFeed : ∀ v ∈ r.values, '\n' ∉ v.text.toList) : IsLine r.text := by
  refine (h.ends nonempty).isLine fun inside => ?_
  obtain ⟨x, hx, inside⟩ := lineFeed_mem_intercalate.1 inside
  obtain ⟨v, hv, rfl⟩ := List.mem_map.1 hx
  exact noLineFeed v hv inside

end Row

theorem Attribute.ends_text (a : Attribute) : Ends a.text := by
  have type : Ends a.type.name := by
    cases a.type with
    | string => exact ⟨'g', rfl, by decide⟩
    | int => exact ⟨'t', rfl, by decide⟩
    | float => exact ⟨'t', rfl, by decide⟩
  exact type.append _

theorem Query.IsName.lineFeed_notMem {name : List Char} (h : IsName name) : '\n' ∉ name := by
  intro inside
  exact absurd (h.part _ inside) (by decide +kernel)

theorem Attribute.lineFeed_notMem_text {a : Attribute} (h : IsName a.name.toList) :
    '\n' ∉ a.text.toList := by
  have type : '\n' ∉ a.type.name.toList := by cases a.type <;> decide
  have name := h.lineFeed_notMem
  simp [Attribute.text, type, name]

theorem Value.Stored.quoted {type : ColumnType} {v : Value} (h : v.Stored type)
    (lineFeed : '\n' ∈ v.text.toList) : ∃ content : String,
      v.text = "'" ++ content ++ "'" ∧ '\'' ∉ content.toList ∧ '\n' ∈ content.toList := by
  have number {s : String} (hs : IsNumber s) : '\n' ∉ s.toList := by
    intro inside
    rcases hs.mem _ inside with h | h | h <;> exact absurd h (by decide)
  cases v with
  | noValue => exact absurd lineFeed (by decide)
  | literal s =>
    cases type with
    | string =>
      obtain ⟨content, rfl, hcontent⟩ := h
      refine ⟨content, rfl, fun inside => (hcontent _ inside).1 rfl, ?_⟩
      simpa [text] using lineFeed
    | int => exact absurd lineFeed (number h.1.isNumber)
    | float =>
      rcases h with ⟨negative, rank, rfl⟩ | ⟨negative, rfl⟩
      · exact absurd lineFeed (number (Binary64.isNumber_storedText negative rank))
      · exact absurd lineFeed (by cases negative <;> decide)

/-- Up to the first line feed of a row there is an open string, and what is before it is read. -/
theorem takeWhile_intercalate {vs : List Value} (h : ∀ v ∈ vs, ∃ type, v.Stored type)
    (lineFeed : ∃ v ∈ vs, '\n' ∈ v.text.toList) :
    ∃ front content : List Char, '\'' ∉ content ∧
      (String.intercalate "," (vs.map Value.text)).toList.takeWhile (· != '\n') =
        front ++ '\'' :: content ∧
      ∀ rest e, Query.scan ('\'' :: rest) = .error e →
        Query.scan (front ++ '\'' :: rest) = .error e := by
  induction vs with
  | nil =>
    obtain ⟨v, hv, -⟩ := lineFeed
    cases hv
  | cons v vs ih =>
    obtain ⟨type, stored⟩ := h v List.mem_cons_self
    by_cases here : '\n' ∈ v.text.toList
    · obtain ⟨content, hv, noQuote, inside⟩ := stored.quoted here
      refine ⟨[], content.toList.takeWhile (· != '\n'), ?_, ?_, fun _ _ h => h⟩
      · exact fun quote => noQuote ((List.takeWhile_sublist _).subset quote)
      · have stops : (content.toList.takeWhile (· != '\n')).length ≠ content.toList.length := by
          intro same
          have taken := List.takeWhile_eq_self_iff.1 ((List.takeWhile_prefix _).eq_of_length same)
          exact absurd (taken _ inside) (by decide)
        have whole : v.text.toList = '\'' :: (content.toList ++ ['\'']) := by
          rw [hv]
          simp
        rw [List.map_cons, toList_intercalate_comma, whole, List.cons_append, List.append_assoc,
          List.takeWhile_cons_of_pos (by decide), List.takeWhile_append, if_neg stops]
        rfl
    · have later : ∃ w ∈ vs, '\n' ∈ w.text.toList := by
        obtain ⟨w, hw, inside⟩ := lineFeed
        rcases List.mem_cons.1 hw with rfl | hw
        · exact absurd inside here
        · exact ⟨w, hw, inside⟩
      obtain ⟨front, content, noQuote, cut, fails⟩ :=
        ih (fun w hw => h w (List.mem_cons_of_mem v hw)) later
      obtain ⟨ts, hts⟩ := stored.spells
      refine ⟨v.text.toList ++ ',' :: front, content, noQuote, ?_, fun rest e he => ?_⟩
      · have kept : ∀ c ∈ v.text.toList, (c != '\n') = true := by
          intro c hc
          rw [bne_iff_ne]
          rintro rfl
          exact here hc
        have split : (String.intercalate "," ((v :: vs).map Value.text)).toList =
            v.text.toList ++ ',' :: (String.intercalate "," (vs.map Value.text)).toList := by
          cases vs with
          | nil =>
            obtain ⟨w, hw, -⟩ := later
            cases hw
          | cons w ws =>
            rw [List.map_cons, List.map_cons, String.intercalate_cons_cons]
            simp
        rw [split, List.takeWhile_append_of_pos kept, List.takeWhile_cons_of_pos (by decide), cut,
          List.append_assoc, List.cons_append]
      · have comma := Query.scan_cons (c := ',') rfl
          (rfl : Query.scanToken ',' (front ++ '\'' :: rest) = .ok (.symbol .comma, _))
        rw [List.append_assoc, List.cons_append, hts _ (Query.breaks_comma _), comma,
          fails rest e he]
        rfl

/-- A row with a line feed is cut into lines of which the first has an open string. -/
theorem Row.Stored.cut {schema : Schema} {r : Row} (h : r.Stored schema)
    (lineFeed : ∃ v ∈ r.values, '\n' ∈ v.text.toList) (rest : Bytes) :
    ∃ (line : String) (more : List Bytes),
      Bytes.linesAfter [] (Bytes.ofText (r.text ++ "\n") ++ rest) = Bytes.ofText line :: more ∧
        isBlankText line = false ∧ Query.scan line.toList = .error .unterminatedString := by
  have inside : '\n' ∈ r.text.toList := by
    obtain ⟨v, hv, inside⟩ := lineFeed
    exact lineFeed_mem_intercalate.2 ⟨v.text, List.mem_map_of_mem hv, inside⟩
  obtain ⟨front, content, noQuote, open_, fails⟩ :=
    takeWhile_intercalate (fun v hv => h.mem hv) lineFeed
  have open_ : r.text.toList.takeWhile (· != '\n') = front ++ '\'' :: content := open_
  obtain ⟨line, more, cut, kept⟩ := Bytes.linesAfter_cut inside rest
  rw [open_] at kept
  have still : ∃ content : List Char, '\'' ∉ content ∧ line.toList = front ++ '\'' :: content := by
    rcases kept with same | lost
    · exact ⟨content, noQuote, same⟩
    · rcases List.eq_nil_or_concat content with rfl | ⟨shorter, c, rfl⟩
      · have last := (List.append_inj' lost rfl).2
        exact absurd last (by decide)
      · rw [List.concat_eq_append, ← List.cons_append, ← List.append_assoc] at lost
        rw [List.concat_eq_append] at noQuote
        have same := (List.append_inj' lost rfl).1.symm
        exact ⟨shorter, fun h => noQuote (List.mem_append_left _ h), same⟩
  obtain ⟨content, noQuote, opened⟩ := still
  refine ⟨line, more, cut, ?_, ?_⟩
  · rw [Text.isBlankText, opened, List.all_eq_false]
    exact ⟨'\'', List.mem_append_right _ List.mem_cons_self, by decide⟩
  · rw [opened]
    exact fails content _ (Query.scan_unclosed noQuote)

theorem Schema.Named.ends {s : Schema} (h : s.Named) : Ends s.text := by
  apply ends_intercalate
  · simpa using h.1
  · intro x hx
    obtain ⟨a, -, rfl⟩ := List.mem_map.1 hx
    exact a.ends_text

theorem Schema.Named.isLine {s : Schema} (h : s.Named) : IsLine s.text := by
  refine h.ends.isLine fun inside => ?_
  obtain ⟨x, hx, inside⟩ := lineFeed_mem_intercalate.1 inside
  obtain ⟨a, ha, rfl⟩ := List.mem_map.1 hx
  exact Attribute.lineFeed_notMem_text (h.2 a ha) inside

end Relational
