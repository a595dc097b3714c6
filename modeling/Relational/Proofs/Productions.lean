import Relational.Proofs.Recognition
import Relational.Query.Clause

/-!
# The rules of the clauses read their productions

One pair of lemmas for each rule, in the order of the grammar: the rule is sound, and it is complete
up to the tokens with which its phrase could go on.
-/
namespace Relational.Query

open Rule

variable {ts rest : List Token}

theorem sound_literal? {v : Value} (h : literal? ts = .ok (some v, rest)) :
    ∃ us, ts = us ++ rest ∧ IsLiteral us v := by
  cases ts with
  | nil => cases h
  | cons t ts =>
    cases t with
    | number digits => cases h; exact ⟨_, rfl, .number digits⟩
    | string content => cases h; exact ⟨_, rfl, .string content⟩
    | noValue => cases h; exact ⟨_, rfl, .noValue⟩
    | symbol s =>
      cases s with
      | minus =>
        cases ts with
        | nil => cases h
        | cons u ts =>
          cases u with
          | number digits => cases h; exact ⟨_, rfl, .negative digits⟩
          | _ => cases h
      | _ => cases h
    | _ => cases h

theorem complete_literal? {us : List Token} {v : Value} (h : IsLiteral us v) (rest : List Token) :
    literal? (us ++ rest) = .ok (some v, rest) := by
  cases h <;> rfl

theorem sound_literal : Sound literal IsLiteral := by
  intro ts v rest h
  obtain ⟨v?, middle, hv, hsome⟩ := bind_apply_eq_ok.1 h
  cases v? with
  | none => cases hsome
  | some v => cases hsome; exact sound_literal? hv

theorem complete_literal : Complete literal IsLiteral [] :=
  fun _ _ h rest _ => bind_of_ok (complete_literal? h rest)

theorem sound_literals : Sound literals (IsCommaSeparated IsLiteral) :=
  sound_separated (by decide) sound_literal

theorem complete_literals : Complete literals (IsCommaSeparated IsLiteral) [.symbol .comma] :=
  complete_separated complete_literal (by decide)

theorem sound_simpleOperand : Sound simpleOperand IsSimpleOperand := by
  intro ts e rest h
  unfold simpleOperand at h
  rw [peek_bind] at h
  cases hnext : next ts with
  | identifier name =>
    rw [hnext] at h
    cases h
    exact ⟨[_], eq_cons_of_next hnext nofun, .column name⟩
  | _ =>
    rw [hnext] at h
    obtain ⟨v?, middle, hv, hsome⟩ := bind_apply_eq_ok.1 h
    cases v? with
    | none => cases hsome
    | some v =>
      cases hsome
      obtain ⟨us, hts, hus⟩ := sound_literal? hv
      exact ⟨us, hts, .literal hus⟩

theorem complete_simpleOperand : Complete simpleOperand IsSimpleOperand [] := by
  intro us e h rest _
  cases h with
  | column name => rfl
  | literal h => cases h <;> rfl

section Expressions

variable {inner : Rule Expr} {phrase : Phrase Expr} {further : List Token}

theorem operand_leftParen (inner : Rule Expr) (ts : List Token) :
    operand inner (.symbol .leftParen :: ts) =
      (inner >>= fun e => expect (.symbol .rightParen) >>= fun _ => pure e) ts := rfl

theorem sound_operand (h : Sound inner phrase) : Sound (operand inner) (IsOperand phrase) := by
  intro ts e rest he
  have simple (he : simpleOperand ts = .ok (e, rest)) :
      ∃ us, ts = us ++ rest ∧ IsOperand phrase us e := by
    obtain ⟨us, hts, hus⟩ := sound_simpleOperand _ _ _ he
    exact ⟨us, hts, .simple hus⟩
  cases ts with
  | nil => exact simple he
  | cons t ts =>
    cases t with
    | symbol s =>
      cases s with
      | leftParen =>
        rw [operand_leftParen] at he
        obtain ⟨x, middle, hx, hclose⟩ := bind_apply_eq_ok.1 he
        obtain ⟨_, last, hexpect, hpure⟩ := bind_apply_eq_ok.1 hclose
        cases hpure
        obtain ⟨us, rfl, hus⟩ := h _ _ _ hx
        cases (expect_eq_ok (by decide)).1 hexpect
        exact ⟨_ :: (us ++ [.symbol .rightParen]), by simp, .parenthesized hus⟩
      | dot => cases he
      | _ => exact simple he
    | _ => exact simple he

theorem complete_operand (h : Complete inner phrase further)
    (apart : .symbol .rightParen ∉ further) : Complete (operand inner) (IsOperand phrase) [] := by
  intro us e he rest _
  cases he with
  | simple he =>
    cases he with
    | column name => rfl
    | literal he => cases he <;> rfl
  | @parenthesized us e hus =>
    rw [List.cons_append, List.append_assoc, operand_leftParen]
    refine (bind_of_ok (h us e hus (_ :: rest) apart)).trans ?_
    exact bind_of_ok (expect_cons _ rest)

theorem sound_expressionWithin (depth : Nat) : Sound (expressionWithin depth) IsExpression := by
  induction depth with
  | zero => exact fun _ _ _ h => nomatch h
  | succ depth ih =>
    intro ts e rest he
    obtain ⟨us, hts, hus⟩ :=
      sound_chain isLevel_additive (sound_chain isLevel_multiplicative (sound_operand ih)) _ _ _ he
    exact ⟨us, hts, .sum hus⟩

theorem IsOperand.imp {phrase other : Phrase Expr} {us : List Token} {e : Expr}
    (h : IsOperand phrase us e)
    (implies : ∀ vs x, vs.length < us.length → phrase vs x → other vs x) :
    IsOperand other us e := by
  cases h with
  | simple h => exact .simple h
  | parenthesized h =>
    refine .parenthesized (implies _ _ ?_ h)
    simp only [List.length_cons, List.length_append]
    omega

theorem IsChain.imp {operator : Token → Operation → Prop} {phrase other : Phrase Expr}
    {us : List Token} {e : Expr} (h : IsChain operator phrase us e)
    (implies : ∀ vs x, vs.length ≤ us.length → phrase vs x → other vs x) :
    IsChain operator other us e := by
  induction h with
  | one h => exact .one (implies _ _ (Nat.le_refl _) h)
  | @more us vs t left operation right hleft operates hright ih =>
    refine .more (ih fun ws x few => implies ws x ?_) operates (implies vs right ?_ hright)
    all_goals simp only [List.length_append, List.length_cons]; omega

/-- The tokens that continue an expression. -/
def operators : List Token :=
  [.symbol .plus, .symbol .minus, .symbol .star, .symbol .slash]

/-- An expression has room for no deeper parentheses than its length. -/
theorem complete_expressionWithin (depth : Nat) :
    Complete (expressionWithin depth) (fun us e => IsExpression us e ∧ us.length < depth)
      operators := by
  induction depth with
  | zero => exact fun _ _ h => absurd h.2 (Nat.not_lt_zero _)
  | succ depth ih =>
    refine (complete_chain isLevel_additive
      (complete_chain isLevel_multiplicative (complete_operand ih (by decide)) (by decide))
      (by decide)).mono ?_ (List.Subset.refl _)
    rintro us e ⟨⟨h⟩, few⟩
    -- Parentheses take two tokens, so an inner expression has room with one level less.
    refine h.imp fun vs x hvs sums => sums.imp fun ws y hws products => products.imp ?_
    exact fun zs z hzs hz => ⟨hz, by omega⟩

theorem sound_expression : Sound expression IsExpression :=
  fun ts => sound_expressionWithin (ts.length + 1) ts

theorem complete_expression : Complete expression IsExpression operators := by
  intro us e h rest ends
  have room : us.length < (us ++ rest).length + 1 := by
    rw [List.length_append]
    omega
  exact complete_expressionWithin _ us e ⟨h, room⟩ rest ends

theorem IsChain.next_ne {operator : Token → Operation → Prop} {phrase : Phrase Expr} {t : Token}
    (h : ∀ us e rest, phrase us e → next (us ++ rest) ≠ t) {us : List Token} {e : Expr}
    (he : IsChain operator phrase us e) (rest : List Token) : next (us ++ rest) ≠ t := by
  induction he generalizing rest with
  | one he => exact h _ _ rest he
  | more _ _ _ ih =>
    rw [List.append_assoc]
    exact ih _

/-- An expression does not begin with a star, which is a select list entry of its own. -/
theorem IsExpression.next_ne_star {us : List Token} {e : Expr} (h : IsExpression us e)
    (rest : List Token) : next (us ++ rest) ≠ .symbol .star := by
  obtain ⟨h⟩ := h
  refine h.next_ne (fun vs x after hx => hx.next_ne ?_ after) rest
  intro ws y after hy
  cases hy with
  | simple hy =>
    cases hy with
    | column name => nofun
    | literal hy => cases hy <;> nofun
  | parenthesized hy => nofun

end Expressions

theorem sound_projection : Sound projection IsProjection := by
  intro ts p rest h
  obtain ⟨star, afterStar, hstar, hread⟩ := bind_apply_eq_ok.1 h
  rcases (accept_eq_ok (by decide)).1 hstar with ⟨rfl, rfl⟩ | ⟨rfl, -, rfl⟩
  · cases hread
    exact ⟨_, rfl, .star⟩
  obtain ⟨e, middle, he, hnext⟩ := bind_apply_eq_ok.1 hread
  obtain ⟨named, afterAs, hnamed, hname⟩ := bind_apply_eq_ok.1 hnext
  obtain ⟨us, hts, hus⟩ := sound_expression _ _ _ he
  rcases (accept_eq_ok (by decide)).1 hnamed with ⟨rfl, rfl⟩ | ⟨rfl, -, rfl⟩
  · obtain ⟨name, last, hlast, hpure⟩ := bind_apply_eq_ok.1 hname
    cases hpure
    obtain ⟨_, rfl, ⟨name⟩⟩ := sound_identifier _ _ _ hlast
    exact ⟨us ++ [.keyword .asName, .identifier name], by simpa using hts, .named name hus⟩
  · cases e with
    | column name =>
      cases hname
      exact ⟨us, hts, .column hus⟩
    | _ => cases hname

theorem complete_projection :
    Complete projection IsProjection (.keyword .asName :: operators) := by
  intro us p h rest ends
  cases h with
  | star => rfl
  | column h =>
    obtain ⟨noAs, ends⟩ := not_or.1 fun h => ends (List.mem_cons.2 h)
    refine (bind_of_ok (accept_of_ne (h.next_ne_star rest))).trans ?_
    refine (bind_of_ok (complete_expression _ _ h rest ends)).trans ?_
    exact bind_of_ok (accept_of_ne noAs)
  | named name h =>
    rw [List.append_assoc]
    refine (bind_of_ok (accept_of_ne (h.next_ne_star _))).trans ?_
    have ends : next (.keyword .asName :: .identifier name :: rest) ∉ operators := by
      rw [next_cons]
      decide
    refine (bind_of_ok (complete_expression _ _ h _ ends)).trans ?_
    exact bind_of_ok (accept_cons _ _)

theorem sound_projections : Sound projections (IsCommaSeparated IsProjection) :=
  sound_separated (by decide) sound_projection

theorem complete_projections : Complete projections (IsCommaSeparated IsProjection)
    (.symbol .comma :: .keyword .asName :: operators) :=
  complete_separated complete_projection (by decide)

theorem comparison?_eq_some {t : Token} {comparison : Comparison} :
    comparison? t = some comparison ↔ IsComparison t comparison := by
  constructor
  · intro h
    unfold comparison? at h
    split at h <;> cases h <;> constructor
  · rintro ⟨⟩ <;> rfl

theorem IsComparison.ne_finish {t : Token} {comparison : Comparison}
    (h : IsComparison t comparison) : t ≠ .finish := by
  cases h <;> nofun

theorem condition_identifier (column : String) (ts : List Token) :
    condition (.identifier column :: ts) =
      match comparison? (next ts) with
      | some comparison =>
        (simpleOperand >>= fun right => pure ⟨column, comparison, right⟩) ts.tail
      | none => .error (.expected .comparison (next ts)) := by
  show (match comparison? (next ts) with | some _ => _ | none => _ : Rule Condition) ts = _
  cases comparison? (next ts) <;> rfl

theorem sound_condition : Sound condition IsCondition := by
  intro ts c rest h
  cases ts with
  | nil => cases h
  | cons t ts =>
    cases t with
    | identifier column =>
      rw [condition_identifier] at h
      split at h
      · next comparison hcomparison =>
        have compares := comparison?_eq_some.1 hcomparison
        obtain ⟨right, last, hright, hpure⟩ := bind_apply_eq_ok.1 h
        cases hpure
        obtain ⟨us, hts, hus⟩ := sound_simpleOperand _ _ _ hright
        refine ⟨_ :: next ts :: us, ?_, .compares column compares hus⟩
        rw [List.cons_append, List.cons_append, ← hts]
        exact congrArg _ (eq_cons_of_next rfl compares.ne_finish)
      · cases h
    | _ => cases h

theorem complete_condition : Complete condition IsCondition [] := by
  intro us c h rest ends
  cases h with
  | @compares column t comparison vs right hcompare hright =>
    rw [List.cons_append, List.cons_append, condition_identifier, next_cons,
      comparison?_eq_some.2 hcompare]
    exact bind_of_ok (complete_simpleOperand _ _ hright rest ends)

theorem sound_conditions : Sound conditions (IsSeparated (.keyword .andAlso) IsCondition) :=
  sound_separated (by decide) sound_condition

theorem complete_conditions : Complete conditions (IsSeparated (.keyword .andAlso) IsCondition)
    [.keyword .andAlso] :=
  complete_separated complete_condition (by decide)

theorem sound_columnDefinition : Sound columnDefinition IsColumnDefinition := by
  intro ts a rest h
  obtain ⟨name, middle, hname, htype⟩ := bind_apply_eq_ok.1 h
  obtain ⟨type, last, hread, hpure⟩ := bind_apply_eq_ok.1 htype
  cases hpure
  obtain ⟨_, rfl, ⟨name⟩⟩ := sound_identifier _ _ _ hname
  cases middle with
  | nil => cases hread
  | cons t ts =>
    cases t with
    | keyword k =>
      cases k with
      | string => cases hread; exact ⟨_, rfl, .typed name .string⟩
      | int => cases hread; exact ⟨_, rfl, .typed name .int⟩
      | float => cases hread; exact ⟨_, rfl, .typed name .float⟩
      | _ => cases hread
    | _ => cases hread

theorem complete_columnDefinition : Complete columnDefinition IsColumnDefinition [] := by
  intro us a h rest _
  cases h with
  | typed name htype => cases htype <;> rfl

theorem sound_columnDefinitions : Sound columnDefinitions (IsCommaSeparated IsColumnDefinition) :=
  sound_separated (by decide) sound_columnDefinition

theorem complete_columnDefinitions :
    Complete columnDefinitions (IsCommaSeparated IsColumnDefinition) [.symbol .comma] :=
  complete_separated complete_columnDefinition (by decide)

end Relational.Query
