import Relational.Proofs.Productions
import Relational.Proofs.ReadingBack

/-!
# Expressions in writing

An expression is written with all of its parentheses, so the text of a binary one is an operand
wherever it stands. Its tokens are those of its parts, which blanks and parentheses keep apart. So a
select list that has been read can be written and read again, and comes out as the same list.
-/
namespace Relational

open Query

variable {K : Char → Prop}

def Projection.text : Projection → String
  | .star => "*"
  | .expr e none => e.text
  | .expr e (some name) => e.text ++ " as " ++ name

def Operation.symbol : Operation → Symbol
  | .add => .plus
  | .sub => .minus
  | .mul => .star
  | .div => .slash

theorem Value.Written.spells {v : Value} (h : v.Written K) :
    ∃ ts, Spells v.text.toList ts ∧ IsLiteral ts v := by
  have reads : Reads Query.literal Value.text v := by
    cases v with
    | noValue => exact reads_noValue
    | literal s => exact h.elim IsQuoted.reads IsNumber.reads
  obtain ⟨ts, spelled, read⟩ := reads
  obtain ⟨us, same, literal⟩ := sound_literal _ _ _ (read [])
  rw [List.append_nil, List.append_nil] at same
  exact ⟨ts, spelled, same ▸ literal⟩

namespace Query

theorem spells_operation (operation : Operation) {cs : List Char} {ts : List Token}
    (h : Spells cs ts) :
    Spells (operation.text.toList ++ cs) (.symbol operation.symbol :: ts) := by
  cases operation <;> exact h.symbol_cons rfl rfl

theorem spells_enclosed {cs : List Char} {ts : List Token} (h : Spells cs ts) :
    Spells ('(' :: (cs ++ [')'])) (.symbol .leftParen :: (ts ++ [.symbol .rightParen])) := by
  have close : Spells [')'] [.symbol .rightParen] := spells_nil.symbol_cons rfl rfl
  exact (h.append close fun rest _ => breaks_rightParen rest).symbol_cons rfl rfl

/-- Operands of any operation need no parentheses of their own. -/
theorem isExpression_binary {ls rs : List Token} {left right : Expr} (operation : Operation)
    (hl : IsOperand IsExpression ls left) (hr : IsOperand IsExpression rs right) :
    IsExpression (ls ++ .symbol operation.symbol :: rs) (.binary left operation right) := by
  cases operation with
  | add => exact .sum (.more (.one (.one hl)) .plus (.one hr))
  | sub => exact .sum (.more (.one (.one hl)) .minus (.one hr))
  | mul => exact .sum (.one (.more (.one hl) .star hr))
  | div => exact .sum (.one (.more (.one hl) .slash hr))

end Query

/-- A written expression is read as an operand, however it is nested. -/
theorem Expr.Written.spells {e : Expr} (h : e.Written K) :
    ∃ ts, Spells e.text.toList ts ∧ IsOperand IsExpression ts e := by
  induction e with
  | column name => exact ⟨_, spells_identifier h, .simple (.column name)⟩
  | literal v =>
    obtain ⟨ts, spelled, literal⟩ := Value.Written.spells h
    exact ⟨ts, spelled, .simple (.literal literal)⟩
  | binary left operation right ihl ihr =>
    obtain ⟨ls, hls, operandLeft⟩ := ihl h.1
    obtain ⟨rs, hrs, operandRight⟩ := ihr h.2
    have after : Spells (' ' :: (operation.text.toList ++ ' ' :: right.text.toList))
        (.symbol operation.symbol :: rs) :=
      (spells_operation operation hrs.blank_cons).blank_cons
    -- The left side may end with a word or a number, and the blank ends that.
    have inside := hls.append after fun rest _ => breaks_blank _
    refine ⟨_, ?_, .parenthesized (isExpression_binary operation operandLeft operandRight)⟩
    simpa [text] using spells_enclosed inside

theorem spells_asName {name : String} (h : IsName name.toList) :
    Spells (" as " ++ name).toList [.keyword .asName, .identifier name] := by
  have as : Spells "as".toList [.keyword .asName] :=
    spells_ofName (by decide +kernel) (by decide +kernel)
  simpa using (as.spaced (spells_identifier h)).blank_cons

theorem Projection.Written.spells {p : Projection} (h : p.Written K)
    (named : ∀ e, p = .expr e none → ∃ name, e = .column name) :
    ∃ ts, Spells p.text.toList ts ∧ IsProjection ts p := by
  cases p with
  | star => exact ⟨_, spells_nil.symbol_cons (s := .star) rfl rfl, .star⟩
  | expr e alias? =>
    obtain ⟨ts, spelled, operand⟩ := h.1.spells
    have expression : IsExpression ts e := .sum (.one (.one operand))
    cases alias? with
    | none =>
      obtain ⟨name, rfl⟩ := named e rfl
      exact ⟨ts, spelled, .column expression⟩
    | some name =>
      refine ⟨_, ?_, .named name expression⟩
      have whole := spelled.append (spells_asName (h.2 name rfl)) fun rest _ => by
        rw [String.toList_append]
        exact breaks_blank _
      simpa [text] using whole

theorem Query.IsSeparated.forall {α : Type} {separator : Token} {item : Phrase α} {ts : List Token}
    {xs : List α} (h : IsSeparated separator item ts xs) : ∀ x ∈ xs, ∃ us, item us x := by
  induction h with
  | one h => exact fun x hx => ⟨_, List.mem_singleton.1 hx ▸ h⟩
  | more h _ ih =>
    intro x hx
    rcases List.mem_cons.1 hx with rfl | hx
    · exact ⟨_, h⟩
    · exact ih x hx

namespace Query

theorem Rule.runOn_eq_ok {α : Type} {p : Rule α} {s : String} {x : α} :
    p.runOn s = .ok x ↔ ∃ ts rest, scan s.toList = .ok ts ∧ p ts = .ok (x, rest) ∧
      Rule.next rest = .finish := by
  rw [Rule.runOn_eq, Relational.bind_eq_ok]
  simp only [Rule.readAll_eq_ok, exists_and_left]

theorem forall_isProjection_of_readProjections {text : String} {ps : List Projection}
    (h : readProjections text = .ok ps) : ∀ p ∈ ps, ∃ ts, IsProjection ts p := by
  obtain ⟨ts, rest, -, hread, -⟩ := Rule.runOn_eq_ok.1 h
  obtain ⟨us, -, hus⟩ := sound_projections _ _ _ hread
  exact hus.forall

/-- A select list that has been read is read again from its writing. -/
theorem readProjections_text {text : String} {ps : List Projection}
    (h : readProjections text = .ok ps) :
    readProjections (String.intercalate "," (ps.map Projection.text)) = .ok ps := by
  have good := (Rule.yields_separated yields_projection).runOn (K := fun _ => True)
    (fun _ _ => trivial) h
  have phrases := forall_isProjection_of_readProjections h
  have each : ∀ p ∈ ps, ∃ ts, Spells p.text.toList ts ∧ IsProjection ts p := by
    intro p hp
    refine (good.2 p hp).spells ?_
    rintro e rfl
    obtain ⟨ts, phrase⟩ := phrases _ hp
    cases phrase with
    | column => exact ⟨_, rfl⟩
  obtain ⟨ts, spelled, hts⟩ := spells_commaSeparated good.1 each
  exact (Rule.runOn_of_scan spelled.scan_eq).trans
    (complete_projections.readAll (by decide) hts)

theorem readProjections_text_of_signs :
    ∃ ps, readProjections "a, (b)* - 5 -.5/c as d,*, NoValue + 'x, (y' as e_1" = .ok ps ∧
      String.intercalate "," (ps.map Projection.text) =
        "a,((b * -5) - (.5 / c)) as d,*,(NoValue + 'x, (y') as e_1" ∧
      readProjections (String.intercalate "," (ps.map Projection.text)) = .ok ps := by
  have read : readProjections "a, (b)* - 5 -.5/c as d,*, NoValue + 'x, (y' as e_1" =
      .ok [.expr (.column "a") none,
        .expr (.binary (.binary (.column "b") .mul (.literal (.literal "-5"))) .sub
          (.binary (.literal (.literal ".5")) .div (.column "c"))) (some "d"), .star,
        .expr (.binary (.column "NoValue") .add (.literal (.ofString "x, (y"))) (some "e_1")] := by
    decide +kernel
  exact ⟨_, read, by decide +kernel, readProjections_text read⟩

end Query
end Relational
