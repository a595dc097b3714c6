import Relational.Column

/-!
# A column is a list of values

A value has the type of a column if it is missing or its literal is classified as that type. A
column takes the values that have its type and refuses the others; what it holds is the list of the
values that it took. Both of its arrays have one entry for each of them.
-/
namespace Relational

/-- A missing value has every type, and a literal has the type that its shape announces. -/
def Value.HasType : Value → ColumnType → Prop
  | .noValue, _ => True
  | .literal s, type => ColumnType.ofLiteral? s = some type

instance (v : Value) (type : ColumnType) : Decidable (v.HasType type) :=
  match v with
  | .noValue => inferInstanceAs (Decidable True)
  | .literal s => inferInstanceAs (Decidable (ColumnType.ofLiteral? s = some type))

@[simp] theorem Value.hasType_noValue (type : ColumnType) : Value.noValue.HasType type := trivial

@[simp] theorem Value.hasType_literal (s : String) (type : ColumnType) :
    (Value.literal s).HasType type ↔ ColumnType.ofLiteral? s = some type := Iff.rfl

namespace Column

/-- The texts and the marks of missing values stand side by side. -/
def Aligned (c : Column) : Prop := c.texts.size = c.missing.size

def appended (c : Column) (v : Value) : Column :=
  { c with texts := c.texts.push (v.literal?.getD ""), missing := c.missing.push v.isNoValue }

@[simp] theorem type_appended (c : Column) (v : Value) : (c.appended v).type = c.type := rfl

@[simp] theorem toAttribute_appended (c : Column) (v : Value) :
    (c.appended v).toAttribute = c.toAttribute := rfl

theorem aligned_empty (name : String) (type : ColumnType) : (empty name type).Aligned := rfl

theorem Aligned.appended {c : Column} (h : c.Aligned) (v : Value) : (c.appended v).Aligned := by
  simpa [Aligned, Column.appended] using h

theorem Aligned.length_toList {c : Column} (h : c.Aligned) : c.toList.length = c.size := by
  have sizes : c.texts.size = c.missing.size := h
  simp [toList, size, sizes]

theorem Aligned.toList_appended {c : Column} (h : c.Aligned) (v : Value) :
    (c.appended v).toList = c.toList ++ [v] := by
  have sizes : c.missing.toList.length = c.texts.toList.length := by simpa using h.symm
  have last : entry v.isNoValue (v.literal?.getD "") = v := by cases v <;> rfl
  simp [toList, Column.appended, List.zipWith_append sizes, last]

theorem Aligned.foldl_appended {c : Column} (h : c.Aligned) (vs : List Value) :
    (vs.foldl Column.appended c).Aligned := by
  induction vs generalizing c with
  | nil => exact h
  | cons v vs ih => exact ih (h.appended v)

theorem toAttribute_foldl_appended (c : Column) (vs : List Value) :
    (vs.foldl appended c).toAttribute = c.toAttribute := by
  induction vs generalizing c with
  | nil => rfl
  | cons v vs ih => exact ih (c.appended v)

theorem Aligned.toList_foldl_appended {c : Column} (h : c.Aligned) (vs : List Value) :
    (vs.foldl Column.appended c).toList = c.toList ++ vs := by
  induction vs generalizing c with
  | nil => exact (List.append_nil _).symm
  | cons v vs ih =>
    rw [List.foldl_cons, ih (h.appended v), h.toList_appended, List.append_assoc,
      List.singleton_append]

/-- A column takes exactly the values of its type, and then has one more value. -/
theorem push_eq (c : Column) (v : Value) :
    c.push v = if v.HasType c.type then .ok (c.appended v)
      else .error (.typeConflict (.misfit v.text c.name c.type)) := by
  cases v with
  | noValue => simp [push, appended, Value.literal?]
  | literal s =>
    by_cases h : ColumnType.ofLiteral? s = some c.type <;>
      simp [push, appended, h, Value.literal?, Value.text]

theorem push_eq_ok {c d : Column} {v : Value} (h : c.push v = .ok d) :
    v.HasType c.type ∧ d = c.appended v := by
  rw [push_eq] at h
  split at h
  · next hv =>
    cases h
    exact ⟨hv, rfl⟩
  · cases h

theorem Aligned.read_eq {c : Column} (h : c.Aligned) (i : Nat) :
    c.read i = match c.toList[i]? with
      | some v => .ok v
      | none => .error (.outOfRange i) := by
  have sizes : c.texts.size = c.missing.size := h
  unfold read toList
  rw [List.getElem?_zipWith, Array.getElem?_toList, Array.getElem?_toList]
  by_cases hi : i < c.missing.size
  · have ht : i < c.texts.size := sizes ▸ hi
    rw [Array.getElem?_eq_getElem hi, Array.getElem?_eq_getElem ht]
    cases c.missing[i] <;> rfl
  · have ht : ¬i < c.texts.size := fun ht => hi (sizes ▸ ht)
    rw [Array.getElem?_eq_none (Nat.le_of_not_lt hi), Array.getElem?_eq_none (Nat.le_of_not_lt ht)]

theorem Aligned.get?_eq {c : Column} (h : c.Aligned) (i : Nat) : c.get? i = c.toList[i]? := by
  rw [get?, h.read_eq]
  cases c.toList[i]? <;> rfl

theorem push_eq_error_iff (c : Column) (v : Value) :
    (∃ e, c.push v = .error e) ↔ ∃ s, v = .literal s ∧ ColumnType.ofLiteral? s ≠ some c.type := by
  rw [push_eq]
  cases v with
  | noValue => simp
  | literal s => by_cases h : ColumnType.ofLiteral? s = some c.type <;> simp [h]

theorem missing_foldl_appended (c : Column) (vs : List Value) :
    (vs.foldl appended c).missing.toList = c.missing.toList ++ vs.map Value.isNoValue := by
  induction vs generalizing c with
  | nil => exact (List.append_nil _).symm
  | cons v vs ih => simp [ih, appended]

/-- Offers values to a column one after the other. What comes of it is the column after that, which
a refused value leaves as it was, and the list of the values that were taken. -/
def offer (c : Column) : List Value → Column × List Value
  | [] => (c, [])
  | v :: vs =>
    match c.push v with
    | .ok d => ((d.offer vs).1, v :: (d.offer vs).2)
    | .error _ => c.offer vs

theorem offer_of_hasType {c : Column} {v : Value} (h : v.HasType c.type) (vs : List Value) :
    c.offer (v :: vs) = (((c.appended v).offer vs).1, v :: ((c.appended v).offer vs).2) := by
  rw [offer, push_eq, if_pos h]

theorem offer_of_not_hasType {c : Column} {v : Value} (h : ¬ v.HasType c.type) (vs : List Value) :
    c.offer (v :: vs) = c.offer vs := by
  rw [offer, push_eq, if_neg h]

/-- The values of the column's type are taken and appended, in their order. -/
theorem offer_eq (c : Column) (vs : List Value) :
    c.offer vs = ((vs.filter fun v => v.HasType c.type).foldl appended c,
      vs.filter fun v => v.HasType c.type) := by
  induction vs generalizing c with
  | nil => rfl
  | cons v vs ih =>
    by_cases h : v.HasType c.type
    · have rest : (c.appended v).offer vs =
          ((vs.filter fun w => w.HasType c.type).foldl appended (c.appended v),
            vs.filter fun w => w.HasType c.type) := ih (c.appended v)
      simp [offer_of_hasType h, rest, h]
    · simp [offer_of_not_hasType h, ih, h]

/-- A new column that is offered any values becomes the list of those that it takes. -/
theorem offer_empty (name : String) (type : ColumnType) (vs : List Value) :
    let c := ((empty name type).offer vs).1
    let taken := ((empty name type).offer vs).2
    c.texts.size = c.missing.size ∧
    (∀ v, (∃ e, c.push v = .error e) ↔
      ∃ s, v = .literal s ∧ ColumnType.ofLiteral? s ≠ some type) ∧
    (∀ v ws, (∃ e, c.push v = .error e) →
      (empty name type).offer (vs ++ v :: ws) = (empty name type).offer (vs ++ ws)) ∧
    c.size = taken.length ∧
    (∀ i, c.get? i = taken[i]?) ∧
    ∀ i : Nat, c.missing[i]? = some true ↔ taken[i]? = some .noValue := by
  intro c taken
  have column : c = taken.foldl appended (empty name type) := by
    simp only [c, taken, offer_eq]
  have aligned : c.Aligned := column ▸ (aligned_empty name type).foldl_appended taken
  have values : c.toList = taken := by
    rw [column, (aligned_empty name type).toList_foldl_appended, toList_empty, List.nil_append]
  have header : c.toAttribute = ⟨name, type⟩ := by
    rw [column, toAttribute_foldl_appended]
    rfl
  have typed : c.type = type := congrArg Attribute.type header
  have refused (v : Value) : (∃ e, c.push v = .error e) ↔
      ∃ s, v = .literal s ∧ ColumnType.ofLiteral? s ≠ some type := by
    rw [push_eq_error_iff, typed]
  refine ⟨aligned, refused, ?_, ?_, ?_, ?_⟩
  · intro v ws h
    obtain ⟨s, rfl, other⟩ := (refused v).1 h
    have left : ¬ (Value.literal s).HasType (empty name type).type := other
    simp [offer_eq, left]
  · rw [← values, aligned.length_toList]
  · intro i
    rw [aligned.get?_eq, values]
  · intro i
    have marks : c.missing.toList = taken.map Value.isNoValue := by
      rw [column, missing_foldl_appended]
      rfl
    rw [← Array.getElem?_toList, marks, List.getElem?_map]
    rcases taken[i]? with _ | _ | s <;> simp

theorem offer_empty_of_misfit :
    let c := ((empty "n" .int).offer [.literal "10", .literal "2.5", .noValue]).1
    c.get? 1 = some .noValue ∧ c.get? 2 = none ∧
    (empty "n" .int).offer ([.literal "10", .literal "2.5", .noValue] ++ .literal "'x'" ::
      [.literal "-7"]) = (empty "n" .int).offer
        ([.literal "10", .literal "2.5", .noValue] ++ [.literal "-7"]) := by
  intro c
  obtain ⟨-, refused, unchanged, -, found, -⟩ :=
    offer_empty "n" .int [.literal "10", .literal "2.5", .noValue]
  refine ⟨(found 1).trans ?_, (found 2).trans ?_, unchanged (.literal "'x'") _ ?_⟩
  · decide +kernel
  · decide +kernel
  · exact (refused _).2 ⟨"'x'", rfl, by decide +kernel⟩

end Column
end Relational
