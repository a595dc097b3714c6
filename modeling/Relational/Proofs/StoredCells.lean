import Relational.Proofs.Grammar
import Relational.Proofs.Spelling
import Relational.Proofs.Typing

/-!
# What a cell can be

Every literal that comes into a database is written in a query or in a file, or it is computed from
such literals. So a cell of a string column is a quoted text without quotes inside, a cell of an
integer column is digits with a minus at most, and a cell of a float column is the stored form of a
number, an infinite one included. Every table has columns, and their names can be read again.
-/
namespace Relational

open Query (IsNumeral IsName Statement)

variable {K : Char → Prop}

def IsWhole (s : String) : Prop :=
  ∃ digits : String, digits.toList ≠ [] ∧ (∀ c ∈ digits.toList, c.isDigit = true) ∧
    (s = digits ∨ s = "-" ++ digits)

/-- A cell of a column of the given type. -/
def Value.Stored (type : ColumnType) : Value → Prop
  | .noValue => True
  | .literal s =>
    match type with
    | .string => IsQuoted (fun _ => True) s
    | .int => IsWhole s ∧ ColumnType.ofLiteral? s = some .int
    | .float => (∃ negative rank, s = (Binary64.finite negative rank).storedText) ∨
      ∃ negative, s = Binary64.infinityText negative

theorem IsQuoted.weaken {s : String} (h : IsQuoted K s) : IsQuoted (fun _ => True) s := by
  obtain ⟨content, rfl, hcontent⟩ := h
  exact ⟨content, rfl, fun c hc => ⟨(hcontent c hc).1, trivial⟩⟩

theorem IsQuoted.quote_mem {s : String} (h : IsQuoted K s) : '\'' ∈ s.toList := by
  obtain ⟨content, rfl, -⟩ := h
  simp

theorem IsNumber.mem {s : String} (h : IsNumber s) :
    ∀ c ∈ s.toList, c.isDigit = true ∨ c = '.' ∨ c = '-' := by
  obtain ⟨digits, numeral, rfl | rfl⟩ := h
  · exact fun c hc => (numeral.mem c hc).imp_right .inl
  · intro c hc
    rw [String.toList_append] at hc
    rcases List.mem_append.1 hc with hc | hc
    · exact .inr (.inr (List.mem_singleton.1 hc))
    · exact (numeral.mem c hc).imp_right .inl

theorem IsNumber.noQuote {s : String} (h : IsNumber s) : '\'' ∉ s.toList := by
  intro hc
  rcases h.mem _ hc with h | h | h <;> exact absurd h (by decide)

theorem IsWhole.mem {s : String} (h : IsWhole s) : ∀ c ∈ s.toList, c.isDigit = true ∨ c = '-' := by
  obtain ⟨digits, -, areDigits, rfl | rfl⟩ := h
  · exact fun c hc => .inl (areDigits c hc)
  · intro c hc
    rw [String.toList_append] at hc
    rcases List.mem_append.1 hc with hc | hc
    · exact .inr (List.mem_singleton.1 hc)
    · exact .inl (areDigits c hc)

theorem IsNumber.isWhole {s : String} (h : IsNumber s) (noPoint : '.' ∉ s.toList) : IsWhole s := by
  obtain ⟨digits, numeral, hs⟩ := h
  have noPoint : '.' ∉ digits.toList := by
    rcases hs with rfl | rfl
    · exact noPoint
    · rw [String.toList_append] at noPoint
      exact fun h => noPoint (List.mem_append_right _ h)
  generalize hds : digits.toList = ds at numeral noPoint
  cases numeral with
  | whole nonempty areDigits => exact ⟨digits, hds ▸ nonempty, hds ▸ areDigits, hs⟩
  | point => exact absurd (List.mem_append_right _ List.mem_cons_self) noPoint

theorem IsWhole.isNumber {s : String} (h : IsWhole s) : IsNumber s := by
  obtain ⟨digits, nonempty, areDigits, hs⟩ := h
  exact ⟨digits, .whole nonempty areDigits, hs⟩

theorem toList_repr (n : Nat) : (Nat.repr n).toList ≠ [] ∧
    (∀ c ∈ (Nat.repr n).toList, c.isDigit = true) ∧ digitsValue (Nat.repr n).toList = n := by
  rw [Nat.toList_repr]
  exact ⟨Nat.toDigits_ne_nil, fun c hc => isDigit_of_mem_toDigits hc, digitsValue_toDigits n⟩

theorem Integer.isWhole_text (k : Integer) : IsWhole k.text := by
  unfold text
  cases k.val with
  | ofNat n =>
    obtain ⟨nonempty, areDigits, -⟩ := toList_repr n
    exact ⟨Nat.repr n, nonempty, areDigits, .inl rfl⟩
  | negSucc n =>
    obtain ⟨nonempty, areDigits, -⟩ := toList_repr (n + 1)
    exact ⟨Nat.repr (n + 1), nonempty, areDigits, .inr rfl⟩

theorem Query.IsNumeral.splitSign {digits : List Char} (h : IsNumeral digits) :
    Relational.splitSign digits = (false, digits) := by
  unfold Relational.splitSign
  split
  · rcases h.mem '-' List.mem_cons_self with h | h <;> exact absurd h (by decide)
  · rcases h.mem '+' List.mem_cons_self with h | h <;> exact absurd h (by decide)
  · rfl

theorem Integer.read?_of_splitSign {s : String} {negative : Bool} {digits : List Char}
    (sign : splitSign s.toList = (negative, digits)) (nonempty : digits ≠ [])
    (areDigits : ∀ c ∈ digits, c.isDigit = true) :
    read? s = ofInt? (signed negative (digitsValue digits)) := by
  unfold read?
  rw [sign]
  exact if_pos (by simpa [isDigits, nonempty] using areDigits)

theorem Integer.read?_text (k : Integer) : read? k.text = some k := by
  unfold text
  cases hk : k.val with
  | ofNat n =>
    obtain ⟨nonempty, areDigits, value⟩ := toList_repr n
    rw [show toString (Int.ofNat n) = Nat.repr n from rfl,
      read?_of_splitSign (IsNumeral.whole nonempty areDigits).splitSign nonempty areDigits, value]
    exact ofInt?_eq_some_iff.2 hk
  | negSucc n =>
    obtain ⟨nonempty, areDigits, value⟩ := toList_repr (n + 1)
    have sign : splitSign ("-" ++ Nat.repr (n + 1)).toList = (true, (Nat.repr (n + 1)).toList) := by
      rw [String.toList_append]
      rfl
    rw [show toString (Int.negSucc n) = "-" ++ Nat.repr (n + 1) from rfl,
      read?_of_splitSign sign nonempty areDigits, value]
    exact ofInt?_eq_some_iff.2 hk

theorem ColumnType.ofLiteral?_text (k : Integer) : ofLiteral? k.text = some .int := by
  have apart : ∀ c ∈ k.text.toList, c ≠ '\'' ∧ c ≠ '.' := by
    intro c hc
    rcases k.isWhole_text.mem c hc with digit | rfl
    · constructor <;> rintro rfl <;> exact absurd digit (by decide)
    · decide
  exact ofLiteral?_eq_int_iff.2
    ⟨fun h => (apart _ h).1 rfl, fun h => (apart _ h).2 rfl, k, k.read?_text⟩

theorem Value.stored_normalized {v : Value} {type : ColumnType} (written : v.Written K)
    (typed : v.HasType type) : Stored type (v.normalized type) := by
  cases v with
  | noValue => simp [Stored]
  | literal s =>
    cases type with
    | string =>
      have quote := ColumnType.ofLiteral?_eq_string_iff.1 typed
      exact (written.resolve_right fun number => number.noQuote quote).weaken
    | int =>
      obtain ⟨noQuote, noPoint, -⟩ := ColumnType.ofLiteral?_eq_int_iff.1 typed
      have number := written.resolve_left fun quoted => noQuote quoted.quote_mem
      exact ⟨number.isWhole noPoint, typed⟩
    | float =>
      rcases normalized_float typed with ⟨negative, rank, -, stored⟩ | ⟨negative, -, stored⟩
      · rw [stored]
        exact .inl ⟨negative, rank, rfl⟩
      · rw [stored]
        exact .inr ⟨negative, rfl⟩

namespace Scalar

/-- A string that is computed with is quoted. -/
def Stored : Scalar → Prop
  | .text s => IsQuoted (fun _ => True) s
  | _ => True

theorem stored_value {s : Scalar} {type : ColumnType} (h : s.Stored)
    (typed : s.value.HasType type) : Value.Stored type s.value := by
  cases s with
  | noValue => trivial
  | text s =>
    have string : ColumnType.ofLiteral? s = some .string :=
      ColumnType.ofLiteral?_eq_string_iff.2 h.quote_mem
    cases string.symm.trans typed
    exact h
  | int k =>
    cases (ColumnType.ofLiteral?_text k).symm.trans typed
    exact ⟨k.isWhole_text, ColumnType.ofLiteral?_text k⟩
  | float x =>
    cases x with
    | finite negative rank =>
      cases (ColumnType.ofLiteral?_storedText negative rank).symm.trans typed
      exact .inl ⟨negative, rank, rfl⟩
    | infinite negative =>
      cases (ColumnType.ofLiteral?_infinityText negative).symm.trans typed
    | nan =>
      have untyped : ColumnType.ofLiteral? Binary64.nanText = none := by decide
      cases untyped.symm.trans typed

end Scalar

theorem readDecimal?_digits {digits : List Char} (nonempty : digits ≠ [])
    (areDigits : ∀ c ∈ digits, c.isDigit = true) :
    readDecimal? digits = some (digitsValue digits, 0) := by
  have taken : digits.takeWhile Char.isDigit = digits := List.takeWhile_eq_self_iff.2 areDigits
  have left : digits.dropWhile Char.isDigit = [] := List.dropWhile_eq_nil_iff.2 areDigits
  have written : digits.isEmpty = false := by simpa using nonempty
  unfold readDecimal?
  rw [taken, left]
  simp [splitFraction, readExponent?, written]

theorem Query.IsNumeral.readDecimal? {digits : List Char} (h : IsNumeral digits) :
    ∃ n exponent, Relational.readDecimal? digits = some (n, exponent) := by
  cases h with
  | whole nonempty areDigits => exact ⟨_, _, readDecimal?_digits nonempty areDigits⟩
  | point hw hf nonempty => exact ⟨_, _, readDecimal?_point hw hf nonempty⟩

theorem IsNumber.read? {s : String} (h : IsNumber s) :
    ∃ negative n exponent, Binary64.read? s = some (.ofDecimal negative n exponent) := by
  obtain ⟨digits, numeral, rfl | rfl⟩ := h
  · obtain ⟨n, exponent, decimal⟩ := numeral.readDecimal?
    exact ⟨_, _, _, Binary64.read?_of_readDecimal? numeral.splitSign decimal⟩
  · obtain ⟨n, exponent, decimal⟩ := numeral.readDecimal?
    have sign : Relational.splitSign ("-" ++ digits).toList = (true, digits.toList) := by
      rw [String.toList_append]
      rfl
    exact ⟨_, _, _, Binary64.read?_of_readDecimal? sign decimal⟩

theorem Text.trim_eq_self {s : String} (h : ∀ c ∈ s.toList, isBlank c = false) : trim s = s := by
  have kept (cs : List Char) (h : ∀ c ∈ cs, isBlank c = false) : dropBlanks cs = cs := by
    cases cs with
    | nil => rfl
    | cons c cs =>
      rw [dropBlanks_cons, h c List.mem_cons_self]
      rfl
  unfold trim
  rw [kept _ h, kept _ fun c hc => h c (List.mem_reverse.1 hc), List.reverse_reverse,
    String.ofList_toList]

theorem IsNumber.trim {s : String} (h : IsNumber s) : Text.trim s = s := by
  apply Text.trim_eq_self
  intro c hc
  rcases h.mem c hc with digit | rfl | rfl
  · exact (Query.digit_start digit).1
  · decide
  · decide

/-- A literal operand that is no number is quoted. -/
theorem Value.Written.ofOperand {v : Value} (h : v.Written K) : (Scalar.ofOperand v).Stored := by
  cases v with
  | noValue => trivial
  | literal s =>
    unfold Scalar.ofOperand
    dsimp only
    split
    · next unread =>
      rcases h with quoted | number
      · exact quoted.weaken
      · obtain ⟨_, _, _, hx⟩ := number.read?
        rw [number.trim, hx] at unread
        cases unread
    · split <;> trivial

theorem Value.Stored.ofStored {type : ColumnType} {v : Value} {s : Scalar} (h : v.Stored type)
    (hs : Scalar.ofStored type v = .ok s) : s.Stored := by
  unfold Scalar.ofStored at hs
  split at hs
  · cases hs
    trivial
  · split at hs
    · cases hs
      exact h
    · split at hs <;> cases hs
      trivial
    · split at hs <;> cases hs
      trivial

/-- Only the two quotes between the contents are taken out. -/
theorem joinQuoted_quoted (first second : String) :
    joinQuoted ("'" ++ first ++ "'") ("'" ++ second ++ "'") = "'" ++ (first ++ second) ++ "'" := by
  have front : ("'" ++ first ++ "'").toList.dropLast = '\'' :: first.toList := by
    rw [String.toList_append, String.toList_append]
    show ('\'' :: first.toList ++ ['\'']).dropLast = _
    exact List.dropLast_concat
  apply String.toList_injective
  rw [joinQuoted, String.toList_ofList, front]
  simp

theorem isQuoted_joinQuoted {l r : String} (hl : IsQuoted (fun _ => True) l)
    (hr : IsQuoted (fun _ => True) r) : IsQuoted (fun _ => True) (joinQuoted l r) := by
  obtain ⟨first, rfl, hfirst⟩ := hl
  obtain ⟨second, rfl, hsecond⟩ := hr
  refine ⟨first ++ second, joinQuoted_quoted first second, fun c hc => ?_⟩
  rw [String.toList_append] at hc
  exact (List.mem_append.1 hc).elim (hfirst c) (hsecond c)

theorem Scalar.Stored.apply {operation : Operation} {type : ColumnType} {l r s : Scalar}
    (hl : l.Stored) (hr : r.Stored) (hs : operation.apply type l r = .ok s) : s.Stored := by
  unfold Operation.apply at hs
  split at hs
  · cases hs
    trivial
  · split at hs
    · split at hs
      · cases hs
        exact isQuoted_joinQuoted hl hr
      · cases hs
    · split at hs
      · obtain ⟨k, -, rfl⟩ := map_eq_ok.1 hs
        trivial
      · cases hs
    · split at hs
      · obtain ⟨x, -, rfl⟩ := map_eq_ok.1 hs
        trivial
      · cases hs

/-- What a written expression computes on a row of stored cells. -/
theorem Formula.stored_eval {t : Table} (cells : t.Cells Value.Stored) {e : Expr}
    (written : e.Written K) {f : Formula} {type? : Option ColumnType}
    (hf : ofExpr t.schema e = .ok (f, type?)) {r : Row} (hr : r ∈ t.rows) {s : Scalar}
    (hs : f.eval r = .ok s) : s.Stored := by
  induction e generalizing f type? s with
  | column name =>
    obtain ⟨⟨i, type⟩, hi, hf⟩ := bind_eq_ok.1 hf
    cases hf
    obtain ⟨v, hv, hs⟩ := bind_eq_ok.1 hs
    obtain ⟨a, ha, -, rfl⟩ := Schema.resolve_eq_ok hi
    exact (cells.read ha hr hv).ofStored hs
  | literal v =>
    cases hf
    cases hs
    exact written.ofOperand
  | binary left operation right ihl ihr =>
    obtain ⟨⟨l, leftType?⟩, hl, hf⟩ := bind_eq_ok.1 hf
    obtain ⟨⟨q, rightType?⟩, hq, hf⟩ := bind_eq_ok.1 hf
    obtain ⟨whole?, -, hf⟩ := bind_eq_ok.1 hf
    cases hf
    obtain ⟨x, hx, hs⟩ := bind_eq_ok.1 hs
    obtain ⟨y, hy, hs⟩ := bind_eq_ok.1 hs
    exact (ihl written.1 hl hx).apply (ihr written.2 hq hy) hs

namespace Table

/-- A table that can be written and read again. -/
structure Storable (t : Table) : Prop where
  cells : t.Cells Value.Stored
  named : t.schema.Named

theorem mem_of_mem_unshared {s t : Schema} {xs : List α} {x : α} (h : x ∈ s.unshared t xs) :
    x ∈ xs := by
  obtain ⟨p, hp, rfl⟩ := List.mem_map.1 h
  exact (List.of_mem_zip (List.mem_of_mem_filter hp)).2

theorem Storable.merge {t u : Table} (ht : t.Storable) (hu : u.Storable) :
    (t.merge u).Storable := by
  refine ⟨ht.cells.merge hu.cells, List.append_ne_nil_of_left_ne_nil ht.named.1 _, ?_⟩
  intro a ha
  rcases List.mem_append.1 ha with ha | ha
  · exact ht.named.2 a ha
  · exact hu.named.2 a (mem_of_mem_unshared ha)

theorem Storable.mergeAll {ts : List Table} {u : Table} (h : ∀ t ∈ ts, t.Storable)
    (hu : mergeAll? ts = some u) : u.Storable := by
  cases ts with
  | nil => cases hu
  | cons t ts =>
    cases hu
    have first := h t List.mem_cons_self
    have others := fun x hx => h x (List.mem_cons_of_mem t hx)
    clear h
    induction ts generalizing t with
    | nil => exact first
    | cons x xs ih =>
      refine ih (t.merge x) (first.merge (others x List.mem_cons_self)) ?_
      exact fun y hy => others y (List.mem_cons_of_mem x hy)

theorem Storable.insert {t u : Table} {values : List Value} (h : t.Storable)
    (written : ∀ v ∈ values, v.Written K) (hu : t.insert values = .ok u) : u.Storable := by
  refine ⟨h.cells.insert hu fun v hv type typed => Value.stored_normalized (written v hv) typed, ?_⟩
  rw [schema_insert hu]
  exact h.named

theorem Storable.projectOne {t : Table} {p : Projection} {cs : List Column} (h : t.Storable)
    (written : p.Written K) (hcs : t.projectOne p = .ok cs) :
    Schema.Named ⟨cs.map Column.toAttribute⟩ := by
  have copied : ∀ type (v : Value), v.Stored type → v.HasType type → v.Stored type :=
    fun _ _ stored _ => stored
  have one (c : Column) (name : String) (hc : c.name = name) (hname : IsName name.toList) :
      Schema.Named ⟨[c].map Column.toAttribute⟩ := by
    refine ⟨List.cons_ne_nil _ _, fun a ha => ?_⟩
    rw [List.mem_singleton.1 ha]
    show IsName c.name.toList
    rwa [hc]
  unfold Table.projectOne at hcs
  split at hcs
  · have pairs := mapM_eq_ok.1 hcs
    have attributes : cs.map Column.toAttribute = t.schema.attributes := by
      apply List.ext_getElem
      · rw [List.length_map, ← pairs.length_eq, List.length_zipIdx]
      · intro i hi hj
        rw [List.length_map] at hi
        have here := pairs.get (pairs.length_eq ▸ hi) hi
        simp only [List.get_eq_getElem, List.getElem_zipIdx, Nat.zero_add] at here
        rw [List.getElem_map]
        exact (copyColumn_eq_ok h.cells (List.getElem?_eq_getElem hj) rfl copied here).2
    rw [attributes]
    exact h.named
  · next name alias? =>
    obtain ⟨⟨i, type⟩, hi, hcs⟩ := bind_eq_ok.1 hcs
    obtain ⟨c, hc, hcs⟩ := bind_eq_ok.1 hcs
    obtain ⟨a, ha, -, same⟩ := Schema.resolve_eq_ok hi
    cases hcs
    have made := (copyColumn_eq_ok h.cells ha same.symm copied hc).2
    refine one c (alias?.getD name) (congrArg Attribute.name made) ?_
    cases alias? with
    | none => exact written.1
    | some given => exact written.2 given rfl
  · next e name _ =>
    obtain ⟨c, hc, hcs⟩ := bind_eq_ok.1 hcs
    cases hcs
    obtain ⟨⟨f, type?⟩, -, hc⟩ := bind_eq_ok.1 hc
    cases type? with
    | none => cases hc
    | some type =>
      have made := (spans_of_gather (Q := fun _ _ => True) hc fun _ _ _ _ _ => trivial).2
      exact one c name (congrArg Attribute.name made) (written.2 name rfl)
  · cases hcs

theorem computes_stored {ps : List Projection} (written : ∀ p ∈ ps, p.Written K) :
    Computes Value.Stored Value.Stored ps := by
  intro w cells e alias? he f type hf r hr s hs typed
  exact Scalar.stored_value (Formula.stored_eval cells (written _ he).1 hf hr hs) typed

theorem Storable.select {t u : Table} {ps : List Projection} {c? : Option Condition}
    (h : t.Storable) (nonempty : ps ≠ []) (written : ∀ p ∈ ps, p.Written K)
    (hu : t.select ps c? = .ok u) : u.Storable := by
  refine ⟨h.cells.select (fun _ _ stored _ => stored) (computes_stored written) hu, ?_⟩
  obtain ⟨w, hw, hu⟩ := bind_eq_ok.1 hu
  have filtered : w.Storable := ⟨h.cells.filter hw, (filter_eq_ok hw).1 ▸ h.named⟩
  obtain ⟨columns, hcolumns, hu⟩ := bind_eq_ok.1 hu
  obtain ⟨rows, -, hu⟩ := bind_eq_ok.1 hu
  cases hu
  have pairs := mapM_eq_ok.1 hcolumns
  have named : ∀ cs ∈ columns, Schema.Named ⟨cs.map Column.toAttribute⟩ := by
    intro cs hcs
    obtain ⟨p, hp, made⟩ := exists_of_mem_right pairs hcs
    exact filtered.projectOne (written p hp) made
  constructor
  · cases pairs with
    | nil => exact absurd rfl nonempty
    | @cons p cs ps columns _ _ =>
      have first := (named cs List.mem_cons_self).1
      simp only [ne_eq, List.map_eq_nil_iff] at first
      simp [first]
  · intro a ha
    obtain ⟨c, hc, rfl⟩ := List.mem_map.1 ha
    obtain ⟨cs, hcs, hc⟩ := List.mem_flatten.1 hc
    exact (named cs hcs).2 _ (List.mem_map_of_mem hc)

theorem Storable.evaluate {t u : Table} {ps : List Projection} {cs : List Condition}
    (h : t.Storable) (nonempty : ps ≠ []) (written : ∀ p ∈ ps, p.Written K)
    (hu : t.evaluate ps cs = .ok u) : u.Storable := by
  cases cs with
  | nil => exact h.select nonempty written hu
  | cons c cs =>
    obtain ⟨w, hw, hu⟩ := bind_eq_ok.1 hu
    refine foldlM_preserves ?_ (h.select nonempty written hw) hu
    exact fun x hx d _ y hy => hx.select nonempty written hy

theorem Storable.readRows {t u : Table} {lines : List Bytes} (h : t.Storable)
    (hu : t.readRows lines = .ok u) : u.Storable := by
  induction lines generalizing t with
  | nil =>
    cases hu
    exact h
  | cons line rest ih =>
    obtain ⟨s, _, hu⟩ := bind_eq_ok.1 hu
    split at hu
    · cases hu
      exact h
    · obtain ⟨values, hvalues, hu⟩ := bind_eq_ok.1 hu
      obtain ⟨w, hw, hu⟩ := bind_eq_ok.1 hu
      have written := Query.written_of_readLiterals (K := fun _ => True) (fun _ _ => trivial)
        (mapError_eq_ok.1 hvalues)
      exact ih (h.insert written hw) hu

theorem storable_ofBytes {content : Bytes} {t : Table} (h : ofBytes content = .ok t) :
    t.Storable := by
  obtain ⟨s, hs, h⟩ := bind_eq_ok.1 h
  refine Storable.readRows ⟨cells_empty s, ?_⟩ h
  obtain ⟨header, -, hs⟩ := bind_eq_ok.1 hs
  split at hs
  · cases hs
  · obtain ⟨attributes, hattributes, hs⟩ := bind_eq_ok.1 hs
    cases hs
    exact Query.named_of_readAttributes (mapError_eq_ok.1 hattributes)

end Table

namespace Database

variable {db : Database}

theorem Every.storable_select {s : Select} {t : Table} (h : db.Every Table.Storable)
    (written : s.Written K) (ht : db.select s = .ok t) : t.Storable := by
  have fits : db.Every Table.Fits := h.mono fun _ ht => ht.cells.fits
  obtain ⟨u, hu, ht⟩ := bind_eq_ok.1 ht
  obtain ⟨ts, bound, hall⟩ := fits.merge_eq_ok hu
  have storable : u.Storable := Table.Storable.mergeAll (h.of_bound bound) hall
  exact storable.evaluate written.nonempty written.projections ht

theorem Every.storable_respond (h : db.Every Table.Storable) (e : Event) :
    (db.respond e).2.Every Table.Storable := by
  refine h.respond e ?_ ?_ ?_ ?_
  · intro name attributes hs
    exact ⟨Table.cells_empty _, Statement.written_of_ofText hs⟩
  · intro name s t hs ht
    exact h.storable_select (Statement.written_of_ofText hs) ht
  · exact fun _ _ _ ht => Table.storable_ofBytes ht
  · intro name values t u hs ht hu
    exact ht.insert (Statement.written_of_ofText hs) hu

/-- In any run every table can be written and read again. -/
theorem storable_run (directory : DataDirectory) (es : List Event) :
    ((fresh directory).run es).Every Table.Storable :=
  run_preserves (fun _ h e _ => h.storable_respond e) (every_fresh _ directory)

end Database
end Relational
