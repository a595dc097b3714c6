import Relational.Proofs.StoredCells

/-!
# What an expression comes to

The type of an expression is found before any row is read, from the columns of the schema and from the
shapes of the literals. On a row of cells that fit their columns, the expression then comes to a value
of that type, to no value, or to a fault of arithmetic. The types never turn out wrong on the way.
-/
namespace Relational

variable {K : Char → Prop}

/-- A cell that can be read by the type of its column. -/
def Value.WellFormed (type : ColumnType) : Value → Prop
  | .noValue => True
  | .literal s =>
    match type with
    | .string => IsQuoted (fun _ => True) s
    | .int => ∃ k, Integer.read? s = some k
    | .float => '.' ∈ s.toList ∧ '\'' ∉ s.toList ∧ ∃ x, Binary64.read? s = some x

def Row.WellFormed (s : Schema) (r : Row) : Prop :=
  List.Forall₂ (fun (a : Attribute) (v : Value) => v.WellFormed a.type) s.attributes r.values

/-- The cells and the literals that an expression computes with, from left to right. -/
def Expr.operands (s : Schema) (r : Row) : Expr → List Value
  | .column name => ((s.position? name).bind r.get?).toList
  | .literal v => [v]
  | .binary left _ right => left.operands s r ++ right.operands s r

def Scalar.kind? : Scalar → Option ColumnType
  | .noValue => none
  | .int _ => some .int
  | .float _ => some .float
  | .text _ => some .string

/-- A fault that arithmetic has on operands of the right types. -/
inductive IsArithmeticFault : Error → Prop
  | divisionByZero : IsArithmeticFault .divisionByZero
  | overflow (why : Overflow) : IsArithmeticFault (.overflow why)

/-- A computation comes to a scalar with the property, or to a fault of arithmetic. -/
def ComesTo (P : Scalar → Prop) : Except Error Scalar → Prop
  | .ok x => P x
  | .error e => IsArithmeticFault e

theorem ComesTo.mono {P Q : Scalar → Prop} {outcome : Except Error Scalar} (h : ComesTo P outcome)
    (implies : ∀ x, P x → Q x) : ComesTo Q outcome := by
  cases outcome with
  | ok x => exact implies x h
  | error e => exact h

theorem ComesTo.bind {P Q : Scalar → Prop} {outcome : Except Error Scalar}
    {next : Scalar → Except Error Scalar} (h : ComesTo P outcome)
    (more : ∀ x, P x → ComesTo Q (next x)) : ComesTo Q (outcome >>= next) := by
  cases outcome with
  | ok x => exact more x h
  | error e => exact h

namespace Scalar

variable {x l r : Scalar} {type? leftType? rightType? : Option ColumnType}
  {operands leftOperands rightOperands : List Value}

/-- The scalar is what an expression of the given type may come to with the given operands. -/
structure Fits (type? : Option ColumnType) (operands : List Value) (x : Scalar) : Prop where
  kind : x ≠ .noValue → x.kind? = type?
  missing : x = .noValue ↔ .noValue ∈ operands
  joined : ∀ s, x = .text s → ∃ contents : List String,
    (∀ content ∈ contents, '\'' ∉ content.toList) ∧ operands = contents.map Value.ofString ∧
      Value.literal s = Value.ofString (String.join contents)

theorem fits_noValue (h : .noValue ∈ operands) : Fits type? operands .noValue where
  kind ne := absurd rfl ne
  missing := iff_of_true rfl h
  joined _ same := nomatch same

theorem fits_int (k : Integer) (h : .noValue ∉ operands) : Fits (some .int) operands (.int k) where
  kind _ := rfl
  missing := iff_of_false nofun h
  joined _ same := nomatch same

theorem fits_float (x : Binary64) (h : .noValue ∉ operands) :
    Fits (some .float) operands (.float x) where
  kind _ := rfl
  missing := iff_of_false nofun h
  joined _ same := nomatch same

theorem fits_quoted {s : String} (h : IsQuoted K s) :
    Fits (some .string) [.literal s] (.text s) where
  kind _ := rfl
  missing := iff_of_false nofun (by simp)
  joined t same := by
    cases same
    obtain ⟨content, rfl, noQuote⟩ := h
    refine ⟨[content], ?_, rfl, by simp [Value.ofString]⟩
    intro c hc
    rw [List.mem_singleton.1 hc]
    exact fun quote => (noQuote _ quote).1 rfl

theorem Fits.join {s t : String} (hl : Fits leftType? leftOperands (.text s))
    (hr : Fits rightType? rightOperands (.text t)) :
    Fits (some .string) (leftOperands ++ rightOperands) (.text (joinQuoted s t)) := by
  obtain ⟨before, noQuote, rfl, hs⟩ := hl.joined s rfl
  obtain ⟨after, noQuote', rfl, ht⟩ := hr.joined t rfl
  refine ⟨fun _ => rfl, iff_of_false nofun ?_, ?_⟩
  · simp [Value.ofString]
  · intro u same
    refine ⟨before ++ after, ?_, List.map_append.symm, ?_⟩
    · exact fun c hc => (List.mem_append.1 hc).elim (noQuote c) (noQuote' c)
    · cases same
      cases hs
      cases ht
      rw [joinQuoted_quoted, String.join_append]
      rfl

theorem exists_ofStored {type : ColumnType} {v : Value} (h : v.WellFormed type) :
    ∃ x, ofStored type v = .ok x ∧ Fits (some type) [v] x := by
  cases v with
  | noValue => exact ⟨.noValue, rfl, fits_noValue List.mem_cons_self⟩
  | literal s =>
    cases type with
    | string => exact ⟨.text s, rfl, fits_quoted h⟩
    | int =>
      obtain ⟨k, hk⟩ := h
      exact ⟨.int k, by simp [ofStored, hk], fits_int k (by simp)⟩
    | float =>
      obtain ⟨-, -, x, hx⟩ := h
      exact ⟨.float x, by simp [ofStored, hx], fits_float x (by simp)⟩

theorem fits_ofOperand {v : Value} (written : v.Written K) :
    Fits (Formula.operandType? v) [v] (ofOperand v) := by
  have stored := written.ofOperand
  cases v with
  | noValue => exact fits_noValue List.mem_cons_self
  | literal s =>
    show Fits (some (ColumnType.ofOperand s)) _ _
    unfold ofOperand at stored ⊢
    unfold ColumnType.ofOperand
    dsimp only at stored ⊢
    cases hx : Binary64.read? (Text.trim s) with
    | none =>
      rw [hx] at stored
      exact fits_quoted stored
    | some x =>
      cases hk : x.whole? with
      | none => simpa [hk] using fits_float x (by simp)
      | some k => simpa [hk] using fits_int _ (by simp)

end Scalar

namespace Operation

variable {operation : Operation} {type : ColumnType} {l r x : Scalar}
  {type? leftType? rightType? : Option ColumnType} {leftOperands rightOperands : List Value}

theorem onIntegers_cases (operation : Operation) (l r : Integer) :
    (∃ k, operation.onIntegers l r = .ok k) ∨
      ∃ e, operation.onIntegers l r = .error e ∧ IsArithmeticFault e := by
  unfold onIntegers
  split
  · exact .inr ⟨_, rfl, .divisionByZero⟩
  · split
    · exact .inl ⟨_, rfl⟩
    · exact .inr ⟨_, rfl, .overflow _⟩

theorem onFloats_cases (operation : Operation) (l r : Binary64) :
    (∃ negative rank, operation.onFloats l r = .ok (.finite negative rank)) ∨
      ∃ e, operation.onFloats l r = .error e ∧ IsArithmeticFault e := by
  unfold onFloats
  split
  · exact .inr ⟨_, rfl, .divisionByZero⟩
  · split
    · next finite =>
      generalize operation.rounded l r = x at finite
      cases x with
      | finite negative rank => exact .inl ⟨negative, rank, rfl⟩
      | _ => cases finite
    · exact .inr ⟨_, rfl, .overflow _⟩

theorem apply_of_missing (h : l = .noValue ∨ r = .noValue) :
    operation.apply type l r = .ok .noValue := by
  rcases h with rfl | rfl
  · rfl
  · cases l <;> rfl

theorem apply_integers (k m : Integer) :
    operation.apply .int (.int k) (.int m) = (operation.onIntegers k m).map .int := rfl

theorem apply_floats {y z : Binary64} (hl : l.float? = some y) (hr : r.float? = some z) :
    operation.apply .float l r = (operation.onFloats y z).map .float := by
  have someLeft : l.isNoValue = false := by cases l <;> first | rfl | cases hl
  have someRight : r.isNoValue = false := by cases r <;> first | rfl | cases hr
  simp [apply, someLeft, someRight, hl, hr]

/-- What an operation may come to: its literal has the type that was found before. -/
def IsResult (type? : Option ColumnType) (operands : List Value) (x : Scalar) : Prop :=
  x.Fits type? operands ∧ ∀ type ∈ type?, x.value.HasType type

theorem comesTo_integers (operation : Operation) (k m : Integer) {operands : List Value}
    (present : .noValue ∉ operands) :
    ComesTo (IsResult (some .int) operands) (operation.apply .int (.int k) (.int m)) := by
  rw [apply_integers]
  rcases onIntegers_cases operation k m with ⟨n, hn⟩ | ⟨e, he, fault⟩
  · rw [hn]
    refine ⟨Scalar.fits_int n present, ?_⟩
    rintro _ ⟨⟩
    exact ColumnType.ofLiteral?_text n
  · rw [he]
    exact fault

theorem comesTo_floats {y z : Binary64} (hl : l.float? = some y) (hr : r.float? = some z)
    {operands : List Value} (present : .noValue ∉ operands) :
    ComesTo (IsResult (some .float) operands) (operation.apply .float l r) := by
  rw [apply_floats hl hr]
  rcases onFloats_cases operation y z with ⟨negative, rank, hx⟩ | ⟨e, he, fault⟩
  · rw [hx]
    refine ⟨Scalar.fits_float _ present, ?_⟩
    rintro _ ⟨⟩
    exact ColumnType.ofLiteral?_storedText negative rank
  · rw [he]
    exact fault

theorem comesTo_strings {s t : String} (hl : Scalar.Fits leftType? leftOperands (.text s))
    (hr : Scalar.Fits rightType? rightOperands (.text t)) :
    ComesTo (IsResult (some .string) (leftOperands ++ rightOperands))
      (operation.apply .string (.text s) (.text t)) := by
  have joined := hl.join hr
  refine ⟨joined, ?_⟩
  rintro _ ⟨⟩
  obtain ⟨_, -, -, quoted⟩ := joined.joined _ rfl
  refine ColumnType.ofLiteral?_eq_string_iff.2 ?_
  rw [Value.literal.inj quoted]
  simp

/-- What an operation comes to on operands of types that go together. -/
theorem comesTo_apply (hl : l.Fits leftType? leftOperands) (hr : r.Fits rightType? rightOperands)
    (typed : Formula.binaryType? operation leftType? rightType? = .ok type?) :
    ComesTo (IsResult type? (leftOperands ++ rightOperands))
      (operation.apply (type?.getD .int) l r) := by
  by_cases missing : l = .noValue ∨ r = .noValue
  · rw [apply_of_missing missing]
    refine ⟨Scalar.fits_noValue ?_, fun _ _ => trivial⟩
    exact List.mem_append.2 (missing.imp hl.missing.1 hr.missing.1)
  obtain ⟨someLeft, someRight⟩ := not_or.1 missing
  have present : Value.noValue ∉ leftOperands ++ rightOperands := fun inside =>
    (List.mem_append.1 inside).elim (someLeft ∘ hl.missing.2) (someRight ∘ hr.missing.2)
  cases hl.kind someLeft
  cases hr.kind someRight
  -- Types that do not go together are refused before, so one case is left for each pair of kinds.
  cases l with
  | noValue => exact absurd rfl someLeft
  | text s =>
    cases r with
    | noValue => exact absurd rfl someRight
    | text t =>
      cases operation with
      | add => cases typed; exact comesTo_strings hl hr
      | _ => cases typed
    | _ => cases typed
  | int k =>
    cases r with
    | noValue => exact absurd rfl someRight
    | text t => cases typed
    | int m => cases typed; exact comesTo_integers operation k m present
    | float y => cases typed; exact comesTo_floats rfl rfl present
  | float x =>
    cases r with
    | noValue => exact absurd rfl someRight
    | text t => cases typed
    | int m => cases typed; exact comesTo_floats rfl rfl present
    | float y => cases typed; exact comesTo_floats rfl rfl present

end Operation

theorem Schema.position?_of_resolve {s : Schema} {name : String} {i : Nat} {type : ColumnType}
    (h : s.resolve name = .ok (i, type)) : s.position? name = some i := by
  unfold resolve at h
  split at h
  · cases h
  · next j hj =>
    split at h <;> cases h
    exact hj

theorem Row.WellFormed.get? {s : Schema} {r : Row} (h : r.WellFormed s) {i : Nat} {a : Attribute}
    (ha : s.attributes[i]? = some a) : ∃ v, r.get? i = some v ∧ v.WellFormed a.type := by
  obtain ⟨hi, ha⟩ := List.getElem?_eq_some_iff.1 ha
  have hj : i < r.values.length := h.length_eq ▸ hi
  refine ⟨r.values[i], List.getElem?_eq_getElem hj, ?_⟩
  have here := h.get hi hj
  simpa [ha] using here

namespace Formula

variable {s : Schema} {r : Row}

theorem ofExpr_binary_eq_ok {left right : Expr} {operation : Operation} {f : Formula}
    {type? : Option ColumnType} (h : ofExpr s (.binary left operation right) = .ok (f, type?)) :
    ∃ l leftType? q rightType?, ofExpr s left = .ok (l, leftType?) ∧
      ofExpr s right = .ok (q, rightType?) ∧
      binaryType? operation leftType? rightType? = .ok type? ∧
      f = .binary l operation q (type?.getD .int) := by
  obtain ⟨⟨l, leftType?⟩, hl, afterLeft⟩ := bind_eq_ok.1 h
  obtain ⟨⟨q, rightType?⟩, hq, afterRight⟩ := bind_eq_ok.1 afterLeft
  obtain ⟨whole?, typed, made⟩ := bind_eq_ok.1 afterRight
  cases made
  exact ⟨l, leftType?, q, rightType?, hl, hq, typed, rfl⟩

/-- From what both sides come to, what an operation between them comes to. -/
theorem comesTo_binary {l q : Formula} {operation : Operation}
    {type? leftType? rightType? : Option ColumnType} {leftOperands rightOperands : List Value}
    (hl : ComesTo (Scalar.Fits leftType? leftOperands) (l.eval r))
    (hq : ComesTo (Scalar.Fits rightType? rightOperands) (q.eval r))
    (typed : binaryType? operation leftType? rightType? = .ok type?) :
    ComesTo (Operation.IsResult type? (leftOperands ++ rightOperands))
      (eval r (.binary l operation q (type?.getD .int))) :=
  hl.bind fun _ fitsLeft => hq.bind fun _ fitsRight =>
    Operation.comesTo_apply fitsLeft fitsRight typed

/-- Whatever the operations are, and however they are nested. -/
theorem comesTo_eval {e : Expr} (written : e.Written K) (hr : r.WellFormed s) {f : Formula}
    {type? : Option ColumnType} (hf : ofExpr s e = .ok (f, type?)) :
    ComesTo (Scalar.Fits type? (e.operands s r)) (f.eval r) := by
  induction e generalizing f type? with
  | column name =>
    obtain ⟨⟨i, type⟩, hi, made⟩ := bind_eq_ok.1 hf
    cases made
    obtain ⟨a, ha, -, rfl⟩ := Schema.resolve_eq_ok hi
    obtain ⟨v, hv, wellFormed⟩ := hr.get? ha
    obtain ⟨x, hx, fits⟩ := Scalar.exists_ofStored wellFormed
    have operands : Expr.operands s r (.column name) = [v] := by
      simp [Expr.operands, Schema.position?_of_resolve hi, hv]
    have value : eval r (.column i a.type) = .ok x := by
      simp only [eval, Row.read, hv]
      exact hx
    rw [operands, value]
    exact fits
  | literal v =>
    cases hf
    exact Scalar.fits_ofOperand written
  | binary left operation right ihl ihr =>
    obtain ⟨l, leftType?, q, rightType?, hl, hq, typed, rfl⟩ := ofExpr_binary_eq_ok hf
    exact (comesTo_binary (ihl written.1 hl) (ihr written.2 hq) typed).mono fun _ result => result.1

theorem comesTo_eval_binary {left right : Expr} {operation : Operation}
    (written : (Expr.binary left operation right).Written K) (hr : r.WellFormed s) {f : Formula}
    {type? : Option ColumnType} (hf : ofExpr s (.binary left operation right) = .ok (f, type?)) :
    ComesTo (Operation.IsResult type? (Expr.operands s r (.binary left operation right)))
      (f.eval r) := by
  obtain ⟨l, leftType?, q, rightType?, hl, hq, typed, rfl⟩ := ofExpr_binary_eq_ok hf
  exact comesTo_binary (comesTo_eval written.1 hr hl) (comesTo_eval written.2 hr hq) typed

end Formula

/-- The types of a select list are never wrong. An expression of a type comes to a value of that
type on every row, or there is no value, as one of its operands is missing, or arithmetic fails. A
value that has been computed is taken by a column of the type, and a string is made of the strings
of the operands. -/
theorem Formula.eval_readProjections {text : String} {ps : List Projection}
    (hps : Query.readProjections text = .ok ps) {e : Expr} {alias? : Option String}
    (he : .expr e alias? ∈ ps) {s : Schema} {r : Row} (hr : r.WellFormed s) {f : Formula}
    {type? : Option ColumnType} (hf : ofExpr s e = .ok (f, type?)) :
    (∃ x, f.eval r = .ok x ∧
      (x = .noValue ∨ x.kind? = type?) ∧
      (x = .noValue ↔ .noValue ∈ e.operands s r) ∧
      (∀ left operation right, e = .binary left operation right →
        ∀ type ∈ type?, x.value.HasType type ∧
          ∀ c : Column, c.type = type → ∃ d, c.push x.value = .ok d) ∧
      ∀ t, x = .text t → ∃ contents : List String,
        (∀ content ∈ contents, '\'' ∉ content.toList) ∧
        e.operands s r = contents.map Value.ofString ∧
        x.value = Value.ofString (String.join contents)) ∨
    f.eval r = .error .divisionByZero ∨ ∃ why, f.eval r = .error (.overflow why) := by
  have written : e.Written fun _ => True := by
    have read :=
      (Query.Rule.yields_separated Query.yields_projection).runOn (fun _ _ => trivial) hps
    exact (read.2 _ he).1
  have comes := comesTo_eval written hr hf
  cases hx : f.eval r with
  | error why =>
    rw [hx] at comes
    cases comes with
    | divisionByZero => exact .inr (.inl rfl)
    | overflow why => exact .inr (.inr ⟨why, rfl⟩)
  | ok x =>
    rw [hx] at comes
    obtain ⟨kind, missing, joined⟩ : x.Fits type? (e.operands s r) := comes
    refine .inl ⟨x, rfl, ?_, missing, ?_, ?_⟩
    · exact (Decidable.em (x = .noValue)).imp_right kind
    · rintro left operation right rfl type htype
      have result := comesTo_eval_binary written hr hf
      rw [hx] at result
      have typed : x.value.HasType type := result.2 type htype
      refine ⟨typed, fun c hc => ?_⟩
      rw [Column.push_eq, hc, if_pos typed]
      exact ⟨_, rfl⟩
    · rintro t rfl
      exact joined t rfl

theorem Formula.eval_readProjections_of_strings :
    let s : Schema := ⟨[⟨"n", .int⟩, ⟨"a", .string⟩]⟩
    let r : Row := ⟨[.literal "7", .ofString "x"]⟩
    let comma : Expr := .literal (.ofString ", ")
    let e : Expr := .binary (.binary (.column "a") .add comma) .add (.column "a")
    ∃ f x, ofExpr s e = .ok (f, some .string) ∧ f.eval r = .ok x ∧ x.value = .ofString "x, x" ∧
      x.value.HasType .string ∧ ∃ contents : List String,
        e.operands s r = contents.map Value.ofString ∧
        x.value = Value.ofString (String.join contents) := by
  intro s r comma e
  let a : Formula := .column 1 .string
  let f : Formula := .binary (.binary a .add (.literal (.text "', '")) .string) .add a .string
  have read : Query.readProjections "n, (a + ', ') + a as b" =
      .ok [.expr (.column "n") none, .expr e (some "b")] := by decide +kernel
  have typed : ofExpr s e = .ok (f, some .string) := by decide +kernel
  have value : f.eval r = .ok (.text "'x, x'") := by decide +kernel
  have wellFormed : r.WellFormed s :=
    .cons ⟨_, show Integer.read? "7" = some (.clamp 7) by decide +kernel⟩
      (.cons ⟨"x", rfl, by simp⟩ .nil)
  rcases eval_readProjections read (List.mem_cons_of_mem _ List.mem_cons_self) wellFormed typed with
    ⟨x, hx, -, -, computed, joined⟩ | hx | ⟨why, hx⟩
  · cases hx.symm.trans value
    obtain ⟨contents, -, operands, whole⟩ := joined _ rfl
    exact ⟨f, _, typed, value, rfl, (computed _ _ _ rfl _ rfl).1, contents, operands, whole⟩
  · cases hx.symm.trans value
  · cases hx.symm.trans value

end Relational
