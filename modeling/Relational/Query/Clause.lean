import Relational.Query.Rule
import Relational.Schema

/-!
# The clauses of a statement

Literals, expressions, select lists, conditions and column definitions. Multiplication and division
bind more tightly than addition and subtraction, and all four group to the left.
-/
namespace Relational.Query

open Rule

/-- Takes a literal if one begins at the next token. A minus has to be followed by a number. -/
def literal? : Rule (Option Value) := do
  match ← peek with
  | .number digits =>
    advance
    return some (.literal digits)
  | .string content =>
    advance
    return some (.ofString content)
  | .noValue =>
    advance
    return some .noValue
  | .symbol .minus =>
    advance
    match ← peek with
    | .number digits =>
      advance
      return some (.literal ("-" ++ digits))
    | _ => unexpected .numberAfterMinus
  | _ => return none

def literal : Rule Value := do
  match ← literal? with
  | some v => return v
  | none => unexpected .literal

def literals : Rule (List Value) := commaSeparated literal

def simpleOperand : Rule Expr := do
  match ← peek with
  | .identifier name =>
    advance
    return .column name
  | _ =>
    match ← literal? with
    | some v => return .literal v
    | none => unexpected .operand

def operand (inner : Rule Expr) : Rule Expr := do
  match ← peek with
  | .symbol .leftParen =>
    advance
    let e ← inner
    expect (.symbol .rightParen)
    return e
  | .symbol .dot => throw .dotOperator
  | _ => simpleOperand

def additive? : Token → Option Operation
  | .symbol .plus => some .add
  | .symbol .minus => some .sub
  | _ => none

def multiplicative? : Token → Option Operation
  | .symbol .star => some .mul
  | .symbol .slash => some .div
  | _ => none

/-- Operators of one level with their right operands, at most `bound` of them, after `left`. -/
def chainRest (operation? : Token → Option Operation) (item : Rule Expr) :
    Nat → Expr → Rule Expr
  | 0, left => return left
  | bound + 1, left => do
    match operation? (← peek) with
    | some operation =>
      advance
      let right ← item
      chainRest operation? item bound (.binary left operation right)
    | none => return left

def chain (operation? : Token → Option Operation) (item : Rule Expr) : Rule Expr := do
  let first ← item
  chainRest operation? item (← get).length first

/-- An expression in which parentheses are nested less than `depth` deep. -/
def expressionWithin : Nat → Rule Expr
  | 0 => unexpected .operand
  | depth + 1 => chain additive? (chain multiplicative? (operand (expressionWithin depth)))

/-- An expression. Parentheses are nested no deeper than there are tokens. -/
def expression : Rule Expr := do
  expressionWithin ((← get).length + 1)

def projection : Rule Projection := do
  if ← accept (.symbol .star) then return .star
  let e ← expression
  if ← accept (.keyword .asName) then
    let name ← identifier
    return .expr e (some name)
  match e with
  | .column _ => return .expr e none
  | _ => throw (.aliasRequired e)

def projections : Rule (List Projection) := commaSeparated projection

def comparison? : Token → Option Comparison
  | .symbol .equal => some .eq
  | .symbol .notEqual => some .ne
  | .symbol .lowerEqual => some .le
  | .symbol .greaterEqual => some .ge
  | .symbol .lower => some .lt
  | .symbol .greater => some .gt
  | _ => none

def condition : Rule Condition := do
  match ← peek with
  | .identifier column =>
    advance
    match comparison? (← peek) with
    | some comparison =>
      advance
      let right ← simpleOperand
      return ⟨column, comparison, right⟩
    | none => unexpected .comparison
  | _ => unexpected .conditionColumn

def conditions : Rule (List Condition) := separated (.keyword .andAlso) condition

def columnType : Rule ColumnType := do
  match ← peek with
  | .keyword .int =>
    advance
    return .int
  | .keyword .string =>
    advance
    return .string
  | .keyword .float =>
    advance
    return .float
  | .identifier name => throw (.unknownType name)
  | _ => unexpected .columnType

def columnDefinition : Rule Attribute := do
  let name ← identifier
  let type ← columnType
  return ⟨name, type⟩

def columnDefinitions : Rule (List Attribute) := commaSeparated columnDefinition

end Relational.Query
