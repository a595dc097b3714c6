import Relational.Proofs.Tokens
import Relational.Query.Statement

/-!
# What can be said in a statement

A rule that reads good tokens yields something that is written with good tokens. So every literal of
a statement is a numeral with a sign at most, a quoted text without quotes inside or no value, and
every name that a statement gives to a column is one that can be read again.
-/
namespace Relational

open Query (IsName IsNumeral Token Rule Statement)

variable {K : Char → Prop}

/-- A text between quotes, without quotes inside and with characters of the kind `K`. -/
def IsQuoted (K : Char → Prop) (s : String) : Prop :=
  ∃ content : String, s = "'" ++ content ++ "'" ∧ ∀ c ∈ content.toList, c ≠ '\'' ∧ K c

def IsNumber (s : String) : Prop :=
  ∃ digits : String, IsNumeral digits.toList ∧ (s = digits ∨ s = "-" ++ digits)

/-- A value as a query can write it. -/
def Value.Written (K : Char → Prop) : Value → Prop
  | .noValue => True
  | .literal s => IsQuoted K s ∨ IsNumber s

def Expr.Written (K : Char → Prop) : Expr → Prop
  | .column name => IsName name.toList
  | .literal v => v.Written K
  | .binary left _ right => left.Written K ∧ right.Written K

def Projection.Written (K : Char → Prop) : Projection → Prop
  | .star => True
  | .expr e alias? => e.Written K ∧ ∀ name ∈ alias?, IsName name.toList

/-- There is a column, and each has a name that can be read. -/
def Schema.Named (s : Schema) : Prop :=
  s.attributes ≠ [] ∧ ∀ a ∈ s.attributes, IsName a.name.toList

structure Select.Written (K : Char → Prop) (s : Select) : Prop where
  nonempty : s.projections ≠ []
  projections : ∀ p ∈ s.projections, p.Written K
  tables : s.tables ≠ []

def Query.Statement.Written (K : Char → Prop) : Statement → Prop
  | .createTable _ attributes => Schema.Named ⟨attributes⟩
  | .createTableAs _ s => s.Written K
  | .insert _ values => ∀ v ∈ values, v.Written K
  | .select s => s.Written K
  | _ => True

namespace Query.Rule

/-- From good tokens the rule reads something with the property `Q`, and leaves good tokens. -/
def Yields (K : Char → Prop) (p : Rule α) (Q : α → Prop) : Prop :=
  ∀ ts x rest, (∀ t ∈ ts, t.Good K) → p ts = .ok (x, rest) → Q x ∧ ∀ t ∈ rest, t.Good K

theorem yields_pure {Q : α → Prop} {x : α} (h : Q x) : Yields K (pure x : Rule α) Q := by
  intro ts y rest good hy
  cases hy
  exact ⟨h, good⟩

theorem Yields.bind {p : Rule α} {q : α → Rule β} {P : α → Prop} {Q : β → Prop}
    (hp : Yields K p P) (hq : ∀ x, P x → Yields K (q x) Q) : Yields K (p >>= q) Q := by
  intro ts y rest good hy
  rw [bind_apply] at hy
  split at hy
  · next x middle hx =>
    obtain ⟨px, still⟩ := hp ts x middle good hx
    exact hq x px middle y rest still hy
  · cases hy

theorem Yields.mono {p : Rule α} {P Q : α → Prop} (h : Yields K p P) (implies : ∀ x, P x → Q x) :
    Yields K p Q :=
  fun ts x rest good hx => (h ts x rest good hx).imp_left (implies x)

theorem yields_error {p : Rule α} {Q : α → Prop} (h : ∀ ts, ∃ e, p ts = .error e) :
    Yields K p Q := by
  intro ts x rest _ hx
  obtain ⟨e, he⟩ := h ts
  rw [he] at hx
  cases hx

theorem yields_unexpected {what : Expectation} {Q : α → Prop} : Yields K (unexpected what) Q :=
  yields_error fun ts => ⟨.expected what (next ts), rfl⟩

theorem yields_throw {why : Malformation} {Q : α → Prop} : Yields K (throw why : Rule α) Q :=
  yields_error fun _ => ⟨why, rfl⟩

theorem yields_get : Yields K (get : Rule (List Token)) fun _ => True := by
  intro ts x rest good hx
  cases hx
  exact ⟨trivial, good⟩

theorem yields_peek : Yields K peek (Token.Good K) := by
  intro ts x rest good hx
  cases hx
  refine ⟨?_, good⟩
  cases ts with
  | nil => trivial
  | cons t ts => exact good t List.mem_cons_self

theorem yields_advance : Yields K advance fun _ => True := by
  intro ts x rest good hx
  cases hx
  exact ⟨trivial, fun t ht => good t (List.mem_of_mem_tail ht)⟩

theorem yields_accept (t : Token) : Yields K (accept t) fun _ => True := by
  refine yields_peek.bind fun u _ => ?_
  split
  · exact yields_advance.bind fun _ _ => yields_pure trivial
  · exact yields_pure trivial

theorem yields_expect (t : Token) : Yields K (expect t) fun _ => True := by
  refine (yields_accept t).bind fun found _ => ?_
  split
  · exact yields_unexpected
  · exact yields_pure trivial

theorem yields_identifier : Yields K identifier fun name => IsName name.toList := by
  refine yields_peek.bind fun t good => ?_
  split
  · exact yields_advance.bind fun _ _ => yields_pure good
  · exact yields_unexpected

theorem yields_separatedRest {separator : Token} {item : Rule α} {Q : α → Prop}
    (h : Yields K item Q) (bound : Nat) :
    Yields K (separatedRest separator item bound) fun xs => ∀ x ∈ xs, Q x := by
  induction bound with
  | zero => exact yields_pure fun _ hx => nomatch hx
  | succ bound ih =>
    refine (yields_accept separator).bind fun found _ => ?_
    split
    · refine h.bind fun x hx => ih.bind fun xs hxs => ?_
      exact yields_pure (List.forall_mem_cons.2 ⟨hx, hxs⟩)
    · exact yields_pure fun _ hx => nomatch hx

theorem yields_separated {separator : Token} {item : Rule α} {Q : α → Prop} (h : Yields K item Q) :
    Yields K (separated separator item) fun xs => xs ≠ [] ∧ ∀ x ∈ xs, Q x := by
  refine h.bind fun x hx => yields_get.bind fun ts _ => ?_
  refine (yields_separatedRest h ts.length).bind fun xs hxs => ?_
  exact yields_pure ⟨List.cons_ne_nil x xs, List.forall_mem_cons.2 ⟨hx, hxs⟩⟩

/-- What a text says, if all of its tokens belong to it. -/
theorem Yields.runOn {p : Rule α} {Q : α → Prop} (h : Yields K p Q) {s : String} {x : α}
    (hK : ∀ c ∈ s.toList, K c) (hx : p.runOn s = .ok x) : Q x := by
  obtain ⟨ts, hts, hx⟩ := bind_eq_ok.1 hx
  obtain ⟨⟨y, rest⟩, hy, hx⟩ := bind_eq_ok.1 hx
  have yields := (h ts y rest (good_scan hK hts) hy).1
  dsimp only at hx
  split at hx
  · cases hx
    exact yields
  · cases hx

end Query.Rule

namespace Query

open Rule

theorem isQuoted_ofString {content : String} (h : ∀ c ∈ content.toList, c ≠ '\'' ∧ K c) :
    (Value.ofString content).Written K :=
  .inl ⟨content, rfl, h⟩

theorem yields_literal? : Yields K literal? fun v? => ∀ v ∈ v?, v.Written K := by
  have one (v : Value) (h : v.Written K) :
      Yields K (do advance; return some v) fun v? => ∀ v ∈ v?, v.Written K :=
    yields_advance.bind fun _ _ => yields_pure fun w hw => Option.some.inj hw ▸ h
  refine yields_peek.bind fun t good => ?_
  split
  · next digits => exact one _ (.inr ⟨digits, good, .inl rfl⟩)
  · exact one _ (isQuoted_ofString good)
  · exact one _ trivial
  · refine yields_advance.bind fun _ _ => yields_peek.bind fun u good => ?_
    split
    · next digits => exact one _ (.inr ⟨digits, good, .inr rfl⟩)
    · exact yields_unexpected
  · exact yields_pure fun _ hv => nomatch hv

theorem yields_literal : Yields K literal (Value.Written K) := by
  refine yields_literal?.bind fun v? hv => ?_
  split
  · next v => exact yields_pure (hv v rfl)
  · exact yields_unexpected

theorem yields_literals : Yields K literals fun vs => vs ≠ [] ∧ ∀ v ∈ vs, v.Written K :=
  yields_separated yields_literal

theorem yields_simpleOperand : Yields K simpleOperand (Expr.Written K) := by
  refine yields_peek.bind fun t good => ?_
  split
  · exact yields_advance.bind fun _ _ => yields_pure good
  · refine yields_literal?.bind fun v? hv => ?_
    split
    · next v => exact yields_pure (hv v rfl)
    · exact yields_unexpected

theorem yields_operand {inner : Rule Expr} (h : Yields K inner (Expr.Written K)) :
    Yields K (operand inner) (Expr.Written K) := by
  refine yields_peek.bind fun t _ => ?_
  split
  · refine yields_advance.bind fun _ _ => h.bind fun e he => ?_
    exact (yields_expect _).bind fun _ _ => yields_pure he
  · exact yields_throw
  · exact yields_simpleOperand

theorem yields_chainRest {operation? : Token → Option Operation} {item : Rule Expr}
    (h : Yields K item (Expr.Written K)) (bound : Nat) (left : Expr) (hleft : left.Written K) :
    Yields K (chainRest operation? item bound left) (Expr.Written K) := by
  induction bound generalizing left with
  | zero => exact yields_pure hleft
  | succ bound ih =>
    refine yields_peek.bind fun t _ => ?_
    split
    · refine yields_advance.bind fun _ _ => h.bind fun right hright => ?_
      exact ih _ ⟨hleft, hright⟩
    · exact yields_pure hleft

theorem yields_chain {operation? : Token → Option Operation} {item : Rule Expr}
    (h : Yields K item (Expr.Written K)) : Yields K (chain operation? item) (Expr.Written K) :=
  h.bind fun first hfirst => yields_get.bind fun ts _ => yields_chainRest h ts.length first hfirst

theorem yields_expressionWithin (depth : Nat) :
    Yields K (expressionWithin depth) (Expr.Written K) := by
  induction depth with
  | zero => exact yields_unexpected
  | succ depth ih => exact yields_chain (yields_chain (yields_operand ih))

theorem yields_expression : Yields K expression (Expr.Written K) :=
  yields_get.bind fun ts _ => yields_expressionWithin (ts.length + 1)

theorem yields_projection : Yields K projection (Projection.Written K) := by
  refine (yields_accept _).bind fun star _ => ?_
  split
  · exact yields_pure trivial
  · refine yields_expression.bind fun e he => (yields_accept _).bind fun named _ => ?_
    split
    · refine yields_identifier.bind fun name hname => ?_
      exact yields_pure ⟨he, fun n hn => Option.some.inj hn ▸ hname⟩
    · split
      · exact yields_pure ⟨he, fun n hn => nomatch hn⟩
      · exact yields_throw

theorem yields_condition : Yields K condition fun _ => True := by
  refine yields_peek.bind fun t _ => ?_
  split
  · refine yields_advance.bind fun _ _ => yields_peek.bind fun u _ => ?_
    split
    · refine yields_advance.bind fun _ _ => yields_simpleOperand.bind fun right _ => ?_
      exact yields_pure trivial
    · exact yields_unexpected
  · exact yields_unexpected

theorem yields_columnType : Yields K columnType fun _ => True := by
  refine yields_peek.bind fun t _ => ?_
  split
  · exact yields_advance.bind fun _ _ => yields_pure trivial
  · exact yields_advance.bind fun _ _ => yields_pure trivial
  · exact yields_advance.bind fun _ _ => yields_pure trivial
  · exact yields_throw
  · exact yields_unexpected

theorem yields_columnDefinition : Yields K columnDefinition fun a => IsName a.name.toList :=
  yields_identifier.bind fun _ hname => yields_columnType.bind fun _ _ => yields_pure hname

theorem yields_columnDefinitions :
    Yields K columnDefinitions fun as => Schema.Named ⟨as⟩ :=
  yields_separated yields_columnDefinition

theorem yields_selection : Yields K selection (Select.Written K) := by
  refine (yields_expect _).bind fun _ _ => ?_
  refine (yields_separated yields_projection).bind fun ps hps => ?_
  refine (yields_expect _).bind fun _ _ => ?_
  refine (yields_separated yields_identifier).bind fun names hnames => ?_
  refine (yields_accept _).bind fun found _ => ?_
  have written (cs : List Condition) : Select.Written K ⟨ps, names, cs⟩ := ⟨hps.1, hps.2, hnames.1⟩
  split
  · exact (yields_separated yields_condition).bind fun cs _ => yields_pure (written cs)
  · exact yields_pure (written [])

theorem yields_creation : Yields K creation (Statement.Written K) := by
  refine yields_identifier.bind fun name _ => yields_peek.bind fun t _ => ?_
  split
  · refine yields_advance.bind fun _ _ => yields_columnDefinitions.bind fun as has => ?_
    exact (yields_expect _).bind fun _ _ => yields_pure has
  · exact yields_advance.bind fun _ _ => yields_selection.bind fun s hs => yields_pure hs
  · exact yields_unexpected

theorem yields_insertion : Yields K insertion (Statement.Written K) := by
  refine yields_identifier.bind fun table _ => (yields_expect _).bind fun _ _ => ?_
  refine (yields_accept _).bind fun parenthesis _ => ?_
  split
  · refine yields_literals.bind fun vs hvs => ?_
    exact (yields_expect _).bind fun _ _ => yields_pure hvs.2
  · exact yields_literals.bind fun vs hvs => yields_pure hvs.2

theorem yields_command : Yields K command (Statement.Written K) := by
  have named (statement : String → Statement) (h : ∀ name, (statement name).Written K) :
      Yields K (do return statement (← identifier)) (Statement.Written K) :=
    yields_identifier.bind fun name _ => yields_pure (h name)
  refine yields_peek.bind fun t _ => ?_
  split
  · exact yields_advance.bind fun _ _ => (yields_expect _).bind fun _ _ => yields_creation
  · exact yields_advance.bind fun _ _ => named .load fun _ => trivial
  · exact yields_advance.bind fun _ _ => named .store fun _ => trivial
  · refine yields_advance.bind fun _ _ => (yields_expect _).bind fun _ _ => ?_
    exact named .dropTable fun _ => trivial
  · exact yields_advance.bind fun _ _ => (yields_expect _).bind fun _ _ => yields_insertion
  · exact yields_advance.bind fun _ _ => named .print fun _ => trivial
  · exact yields_selection.bind fun s hs => yields_pure hs
  · exact yields_unexpected

theorem yields_statement : Yields K statement (Statement.Written K) :=
  yields_command.bind fun _ hs => (yields_accept _).bind fun _ _ => yields_pure hs

theorem Statement.written_of_ofText {s : String} {statement : Statement}
    (h : Statement.ofText s = .ok statement) : statement.Written fun _ => True :=
  yields_statement.runOn (fun _ _ => trivial) h

theorem written_of_readLiterals {s : String} {values : List Value} (hK : ∀ c ∈ s.toList, K c)
    (h : readLiterals s = .ok values) : ∀ v ∈ values, v.Written K :=
  (yields_literals.runOn hK h).2

theorem named_of_readAttributes {s : String} {attributes : List Attribute}
    (h : readAttributes s = .ok attributes) : Schema.Named ⟨attributes⟩ :=
  yields_columnDefinitions.runOn (K := fun _ => True) (fun _ _ => trivial) h

end Query
end Relational
