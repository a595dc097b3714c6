import Relational.Query.Scan

/-!
# Rules

A rule reads a phrase from the front of a list of tokens and leaves the tokens after it. No rule reads
past the end of the text, since none takes the token `finish`.
-/
namespace Relational.Query

abbrev Rule := StateT (List Token) (Except Malformation)

namespace Rule

/-- The next token. Where there is none left, the text has ended. -/
def next (ts : List Token) : Token := ts.head?.getD .finish

@[simp] theorem next_nil : next [] = .finish := rfl

@[simp] theorem next_cons (t : Token) (ts : List Token) : next (t :: ts) = t := rfl

def peek : Rule Token := fun ts => .ok (next ts, ts)

def advance : Rule Unit := fun ts => .ok ((), ts.tail)

@[simp] theorem pure_apply (x : α) (ts : List Token) : (pure x : Rule α) ts = .ok (x, ts) := rfl

theorem bind_apply (p : Rule α) (q : α → Rule β) (ts : List Token) :
    (p >>= q) ts = match p ts with
      | .ok (x, rest) => q x rest
      | .error e => .error e := by
  show (p ts >>= fun r => q r.1 r.2) = _
  cases p ts <;> rfl

@[simp] theorem peek_apply (ts : List Token) : peek ts = .ok (next ts, ts) := rfl

@[simp] theorem advance_apply (ts : List Token) : advance ts = .ok ((), ts.tail) := rfl

def unexpected (what : Expectation) : Rule α :=
  fun ts => .error (.expected what (next ts))

/-- Takes the given token if it is the next one, and says whether it was. -/
def accept (t : Token) : Rule Bool := do
  if (← peek) = t then
    advance
    return true
  else return false

theorem accept_apply (t : Token) (ts : List Token) :
    accept t ts = if next ts = t then .ok (true, ts.tail) else .ok (false, ts) := by
  unfold accept
  rw [bind_apply, peek_apply]
  by_cases h : next ts = t <;> simp only [h, if_true, if_false] <;> rfl

def expect (t : Token) : Rule Unit := do
  if !(← accept t) then unexpected (.token t)

theorem expect_apply (t : Token) (ts : List Token) :
    expect t ts =
      if next ts = t then .ok ((), ts.tail) else .error (.expected (.token t) (next ts)) := by
  unfold expect
  rw [bind_apply, accept_apply]
  by_cases h : next ts = t <;> simp only [h, if_true, if_false] <;> rfl

def identifier : Rule String := do
  match ← peek with
  | .identifier name =>
    advance
    return name
  | _ => unexpected .identifier

theorem identifier_cons (name : String) (ts : List Token) :
    identifier (.identifier name :: ts) = .ok (name, ts) := rfl

/-- Items that each follow a separator, at most `bound` of them. -/
def separatedRest (separator : Token) (item : Rule α) : Nat → Rule (List α)
  | 0 => return []
  | bound + 1 => do
    if ← accept separator then
      let x ← item
      let xs ← separatedRest separator item bound
      return x :: xs
    else return []

/-- One item or more with separators between them. There are fewer separators than tokens. -/
def separated (separator : Token) (item : Rule α) : Rule (List α) := do
  let x ← item
  let xs ← separatedRest separator item (← get).length
  return x :: xs

def commaSeparated (item : Rule α) : Rule (List α) := separated (.symbol .comma) item

/-- Runs a rule that has to take all tokens of a text. -/
def runOn (rule : Rule α) (s : String) : Except Malformation α := do
  let tokens ← scan s.toList
  let (x, rest) ← rule.run tokens
  match next rest with
  | .finish => return x
  | found => throw (.trailing found)

end Rule
end Relational.Query
