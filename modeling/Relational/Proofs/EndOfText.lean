import Relational.Proofs.Tokens
import Relational.Query.Statement

/-!
# No rule reads past the end of the text

The tokens of a text end with `finish`, and no rule takes that token. So a rule does not see what comes
after it: on a list that goes on with any tokens `past` the end, it comes to the same result or fails
with the same message.

The rules with a bound look as far as there are tokens, so on the longer list they run with a larger
bound. For that reason two rules are compared here, the first of which reads the longer list, and the
number of tokens before the end is bounded too.
-/
namespace Relational.Query

/-- Tokens of a text up to its end: `finish` is the last one and the only one of its kind. -/
inductive Ended : List Token → Prop
  | finish : Ended [.finish]
  | cons {t ts} : t ≠ .finish → Ended ts → Ended (t :: ts)

theorem ofName_ne_finish (name : List Char) : Token.ofName name ≠ .finish := by
  unfold Token.ofName
  split
  · nofun
  · split <;> nofun

theorem Scanned.ne_finish {c : Char} {cs rest : List Char} {t : Token} (h : Scanned c cs t rest) :
    t ≠ .finish := by
  cases h with
  | name => exact ofName_ne_finish _
  | _ => nofun

theorem ended_scan {cs : List Char} {ts : List Token} (h : scan cs = .ok ts) : Ended ts := by
  induction cs using scan.induct generalizing ts with
  | case1 cs hc =>
    rw [scan_of_blank hc] at h
    cases h
    exact .finish
  | case2 cs c following hc e hs =>
    rw [scan_of_error hc hs] at h
    cases h
  | case3 cs c following hc t rest hs ih =>
    rw [scan_of_token hc hs] at h
    cases hr : scan rest with
    | error e => rw [hr] at h; cases h
    | ok us =>
      rw [hr] at h
      cases h
      exact .cons (scanToken_scanned hs).ne_finish (ih hr)

variable {α β : Type} {past ts : List Token} {n : Nat}

theorem Ended.next_append (h : Ended ts) (past : List Token) :
    Rule.next (ts ++ past) = Rule.next ts := by
  cases h <;> rfl

theorem Ended.ne_nil (h : Ended ts) : ts ≠ [] := by
  cases h <;> nofun

theorem Ended.tail (h : Ended ts) (more : Rule.next ts ≠ .finish) : Ended ts.tail := by
  cases h with
  | finish => exact absurd rfl more
  | cons _ h => exact h

namespace Rule

/-- With tokens past the end, `p` does what `q` does without them, and `q` leaves the end there. -/
def AgreesAt (past : List Token) (p q : Rule α) (ts : List Token) : Prop :=
  p (ts ++ past) = (q ts).map (fun result => (result.1, result.2 ++ past)) ∧
    ∀ x rest, q ts = .ok (x, rest) → Ended rest ∧ rest.length ≤ ts.length

def Agrees (past : List Token) (n : Nat) (p q : Rule α) : Prop :=
  ∀ ts, Ended ts → ts.length ≤ n → AgreesAt past p q ts

def AgreesFrom (t : Token) (past : List Token) (n : Nat) (p q : Rule α) : Prop :=
  ∀ ts, Ended ts → ts.length ≤ n → next ts = t → AgreesAt past p q ts

theorem Agrees.from {p q : Rule α} (h : Agrees past n p q) (t : Token) : AgreesFrom t past n p q :=
  fun ts ended few _ => h ts ended few

theorem Agrees.mono {p q : Rule α} {m : Nat} (h : Agrees past n p q) (hm : m ≤ n) :
    Agrees past m p q :=
  fun ts ended few => h ts ended (Nat.le_trans few hm)

theorem agrees_zero (p q : Rule α) : Agrees past 0 p q :=
  fun _ ended few => absurd (List.length_eq_zero_iff.1 (Nat.le_zero.1 few)) ended.ne_nil

theorem agrees_pure (x : α) : Agrees past n (pure x) (pure x) := by
  intro ts ended few
  refine ⟨rfl, fun y rest h => ?_⟩
  cases h
  exact ⟨ended, Nat.le_refl _⟩

theorem agrees_throw (why : Malformation) : Agrees past n (throw why : Rule α) (throw why) :=
  fun _ _ _ => ⟨rfl, fun _ _ h => nomatch h⟩

theorem agrees_unexpected (what : Expectation) :
    Agrees past n (unexpected what : Rule α) (unexpected what) := by
  intro ts ended few
  refine ⟨?_, fun _ _ h => nomatch h⟩
  show Except.error (Malformation.expected what (next (ts ++ past))) = _
  rw [ended.next_append]
  rfl

theorem AgreesAt.bind {p q : Rule α} {f g : α → Rule β} (h : AgreesAt past p q ts)
    (hf : ∀ x rest, Ended rest → rest.length ≤ ts.length → AgreesAt past (f x) (g x) rest) :
    AgreesAt past (p >>= f) (q >>= g) ts := by
  obtain ⟨same, stops⟩ := h
  unfold AgreesAt
  rw [bind_apply, bind_apply, same]
  cases hq : q ts with
  | error e => exact ⟨rfl, fun _ _ h => nomatch h⟩
  | ok result =>
    obtain ⟨ended, shorter⟩ := stops _ _ hq
    obtain ⟨same, stops⟩ := hf result.1 result.2 ended shorter
    refine ⟨same, fun y rest hy => ?_⟩
    exact (stops y rest hy).imp_right fun le => Nat.le_trans le shorter

theorem Agrees.bind {p q : Rule α} {f g : α → Rule β} (h : Agrees past n p q)
    (hf : ∀ x, Agrees past n (f x) (g x)) : Agrees past n (p >>= f) (q >>= g) :=
  fun ts ended few => (h ts ended few).bind fun x rest still shorter =>
    hf x rest still (Nat.le_trans shorter few)

theorem agrees_peek {f g : Token → Rule β} (h : ∀ t, AgreesFrom t past n (f t) (g t)) :
    Agrees past n (peek >>= f) (peek >>= g) := by
  intro ts ended few
  have same := h (next ts) ts ended few rfl
  unfold AgreesAt at same ⊢
  rw [bind_apply, bind_apply, peek_apply, peek_apply, ended.next_append]
  exact same

/-- A token that is not the end of the text is taken, and there is one token less to read. -/
theorem agreesFrom_advance {t : Token} {f g : Unit → Rule β} (ht : t ≠ .finish)
    (h : Agrees past (n - 1) (f ()) (g ())) :
    AgreesFrom t past n (advance >>= f) (advance >>= g) := by
  intro ts ended few first
  obtain ⟨same, stops⟩ := h ts.tail (ended.tail (first ▸ ht)) (by rw [List.length_tail]; omega)
  unfold AgreesAt
  rw [bind_apply, bind_apply, advance_apply, advance_apply, List.tail_append_of_ne_nil ended.ne_nil]
  refine ⟨same, fun y rest hy => (stops y rest hy).imp_right fun le => ?_⟩
  rw [List.length_tail] at le
  omega

theorem agrees_accept {t : Token} {f g : Bool → Rule β} (ht : t ≠ .finish)
    (found : Agrees past (n - 1) (f true) (g true)) (other : Agrees past n (f false) (g false)) :
    Agrees past n (accept t >>= f) (accept t >>= g) := by
  unfold accept
  simp only [bind_assoc]
  refine agrees_peek fun u => ?_
  by_cases h : u = t
  · simp only [h, if_true, bind_assoc, pure_bind]
    exact agreesFrom_advance ht found
  · simp only [h, if_false, pure_bind]
    exact other.from u

theorem agrees_expect {t : Token} {f g : Unit → Rule β} (ht : t ≠ .finish)
    (h : Agrees past (n - 1) (f ()) (g ())) : Agrees past n (expect t >>= f) (expect t >>= g) := by
  unfold expect
  simp only [bind_assoc]
  exact agrees_accept ht h (agrees_unexpected (.token t))

/-- A bound that is taken from the number of tokens. -/
theorem agrees_length {f g : Nat → Rule β} (h : ∀ m k, m ≤ n → Agrees past m (f (m + k)) (g m)) :
    Agrees past n (get >>= fun ts => f ts.length) (get >>= fun ts => g ts.length) := by
  intro ts ended few
  obtain ⟨same, stops⟩ := h ts.length past.length few ts ended (Nat.le_refl _)
  refine ⟨?_, stops⟩
  show f (ts ++ past).length (ts ++ past) = _
  rw [List.length_append]
  exact same

theorem agrees_identifier : Agrees past n identifier identifier := by
  refine agrees_peek fun t => ?_
  split
  · exact agreesFrom_advance nofun (agrees_pure _)
  · exact (agrees_unexpected _).from _

section Separated

variable {separator : Token} {p q : Rule α}

theorem agrees_separatedRest (hs : separator ≠ .finish) (bound more : Nat)
    (h : Agrees past bound p q) :
    Agrees past bound (separatedRest separator p (bound + more))
      (separatedRest separator q bound) := by
  induction bound with
  | zero => exact agrees_zero _ _
  | succ bound ih =>
    have shorter : Agrees past bound p q := h.mono (Nat.le_succ bound)
    rw [Nat.add_right_comm]
    refine agrees_accept hs ?_ (agrees_pure [])
    exact shorter.bind fun x => (ih shorter).bind fun xs => agrees_pure (x :: xs)

theorem agrees_separated (hs : separator ≠ .finish) (h : Agrees past n p q) :
    Agrees past n (separated separator p) (separated separator q) := by
  refine h.bind fun x => agrees_length
    (f := fun bound => separatedRest separator p bound >>= fun xs => pure (x :: xs))
    (g := fun bound => separatedRest separator q bound >>= fun xs => pure (x :: xs))
    fun m k few => ?_
  exact (agrees_separatedRest hs m k (h.mono few)).bind fun xs => agrees_pure (x :: xs)

end Separated

end Rule

open Rule

theorem agrees_literal? : Agrees past n literal? literal? := by
  refine agrees_peek fun t => ?_
  split
  · exact agreesFrom_advance nofun (agrees_pure _)
  · exact agreesFrom_advance nofun (agrees_pure _)
  · exact agreesFrom_advance nofun (agrees_pure _)
  · refine agreesFrom_advance nofun (agrees_peek fun u => ?_)
    split
    · exact agreesFrom_advance nofun (agrees_pure _)
    · exact (agrees_unexpected _).from _
  · exact (agrees_pure _).from _

theorem agrees_literal : Agrees past n literal literal := by
  refine agrees_literal?.bind fun v? => ?_
  split
  · exact agrees_pure _
  · exact agrees_unexpected _

theorem agrees_literals : Agrees past n literals literals :=
  agrees_separated nofun agrees_literal

theorem agrees_simpleOperand : Agrees past n simpleOperand simpleOperand := by
  refine agrees_peek fun t => ?_
  split
  · exact agreesFrom_advance nofun (agrees_pure _)
  · refine Agrees.from (agrees_literal?.bind fun v? => ?_) _
    split
    · exact agrees_pure _
    · exact agrees_unexpected _

section Expressions

variable {p q : Rule Expr} {operation? : Token → Option Operation}

theorem agrees_operand (h : Agrees past (n - 1) p q) :
    Agrees past n (operand p) (operand q) := by
  refine agrees_peek fun t => ?_
  split
  · refine agreesFrom_advance nofun (h.bind fun e => ?_)
    exact agrees_expect nofun (agrees_pure e)
  · exact (agrees_throw _).from _
  · exact agrees_simpleOperand.from _

theorem agrees_chainRest (hop : operation? .finish = none) (bound more : Nat)
    (h : Agrees past bound p q) (left : Expr) :
    Agrees past bound (chainRest operation? p (bound + more) left)
      (chainRest operation? q bound left) := by
  induction bound generalizing left with
  | zero => exact agrees_zero _ _
  | succ bound ih =>
    have shorter : Agrees past bound p q := h.mono (Nat.le_succ bound)
    rw [Nat.add_right_comm]
    refine agrees_peek fun t => ?_
    split
    · next operation ht =>
      have more : t ≠ .finish := by
        rintro rfl
        rw [hop] at ht
        cases ht
      exact agreesFrom_advance more (shorter.bind fun right => ih shorter _)
    · exact (agrees_pure left).from t

theorem agrees_chain (hop : operation? .finish = none) (h : Agrees past n p q) :
    Agrees past n (chain operation? p) (chain operation? q) :=
  h.bind fun first => agrees_length (f := fun bound => chainRest operation? p bound first)
    (g := fun bound => chainRest operation? q bound first)
    fun m k few => agrees_chainRest hop m k (h.mono few) first

theorem agrees_expressionWithin (depth more : Nat) :
    Agrees past depth (expressionWithin (depth + more)) (expressionWithin depth) := by
  induction depth with
  | zero => exact agrees_zero _ _
  | succ depth ih =>
    rw [Nat.add_right_comm]
    exact agrees_chain rfl (agrees_chain rfl (agrees_operand ih))

theorem agrees_expression : Agrees past n expression expression :=
  agrees_length (f := fun m => expressionWithin (m + 1)) (g := fun m => expressionWithin (m + 1))
    fun m k _ => Nat.add_right_comm m k 1 ▸ (agrees_expressionWithin (m + 1) k).mono (Nat.le_succ m)

end Expressions

theorem agrees_projection : Agrees past n projection projection := by
  refine agrees_accept nofun (agrees_pure _) (agrees_expression.bind fun e => ?_)
  refine agrees_accept nofun (agrees_identifier.bind fun name => agrees_pure _) ?_
  cases e with
  | column name => exact agrees_pure _
  | _ => exact agrees_throw _

theorem agrees_projections : Agrees past n projections projections :=
  agrees_separated nofun agrees_projection

theorem agrees_condition : Agrees past n condition condition := by
  refine agrees_peek fun t => ?_
  split
  · refine agreesFrom_advance nofun (agrees_peek fun u => ?_)
    split
    · next comparison hu =>
      have more : u ≠ .finish := by
        rintro rfl
        cases hu
      exact agreesFrom_advance more (agrees_simpleOperand.bind fun right => agrees_pure _)
    · exact (agrees_unexpected _).from _
  · exact (agrees_unexpected _).from _

theorem agrees_conditions : Agrees past n conditions conditions :=
  agrees_separated nofun agrees_condition

theorem agrees_columnType : Agrees past n columnType columnType := by
  refine agrees_peek fun t => ?_
  split
  · exact agreesFrom_advance nofun (agrees_pure _)
  · exact agreesFrom_advance nofun (agrees_pure _)
  · exact agreesFrom_advance nofun (agrees_pure _)
  · exact (agrees_throw _).from _
  · exact (agrees_unexpected _).from _

theorem agrees_columnDefinitions : Agrees past n columnDefinitions columnDefinitions :=
  agrees_separated nofun <| agrees_identifier.bind fun _ =>
    agrees_columnType.bind fun _ => agrees_pure _

theorem agrees_names :
    Agrees past n (commaSeparated identifier) (commaSeparated identifier) :=
  agrees_separated nofun agrees_identifier

theorem agrees_selection : Agrees past n selection selection := by
  refine agrees_expect nofun (agrees_projections.bind fun ps => ?_)
  refine agrees_expect nofun (agrees_names.bind fun names => ?_)
  exact agrees_accept nofun (agrees_conditions.bind fun cs => agrees_pure _) (agrees_pure _)

theorem agrees_creation : Agrees past n creation creation := by
  refine agrees_identifier.bind fun name => agrees_peek fun t => ?_
  split
  · refine agreesFrom_advance nofun (agrees_columnDefinitions.bind fun columns => ?_)
    exact agrees_expect nofun (agrees_pure _)
  · exact agreesFrom_advance nofun (agrees_selection.bind fun s => agrees_pure _)
  · exact (agrees_unexpected _).from _

theorem agrees_insertion : Agrees past n insertion insertion := by
  refine agrees_identifier.bind fun table => agrees_expect nofun ?_
  refine agrees_accept nofun ?_ (agrees_literals.bind fun values => agrees_pure _)
  exact agrees_literals.bind fun values => agrees_expect nofun (agrees_pure _)

theorem agrees_command : Agrees past n command command := by
  refine agrees_peek fun t => ?_
  split
  · exact agreesFrom_advance nofun (agrees_expect nofun agrees_creation)
  · exact agreesFrom_advance nofun (agrees_identifier.bind fun name => agrees_pure _)
  · exact agreesFrom_advance nofun (agrees_identifier.bind fun name => agrees_pure _)
  · refine agreesFrom_advance nofun (agrees_expect nofun ?_)
    exact agrees_identifier.bind fun name => agrees_pure _
  · exact agreesFrom_advance nofun (agrees_expect nofun agrees_insertion)
  · exact agreesFrom_advance nofun (agrees_identifier.bind fun name => agrees_pure _)
  · exact Agrees.from (agrees_selection.bind fun s => agrees_pure _) _
  · exact (agrees_unexpected _).from _

theorem agrees_statement : Agrees past n statement statement :=
  agrees_command.bind fun s => agrees_accept nofun (agrees_pure s) (agrees_pure s)

end Relational.Query
