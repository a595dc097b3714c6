import Relational.ColumnType
import Relational.Number.Thousandths

/-!
# Values

A cell holds no value or a literal. A literal is kept as it is written, quotes included; what it means
comes from the type of its column.
-/
namespace Relational

inductive Value where
  | noValue
  | literal (text : String)
deriving DecidableEq

namespace Value

/-- The word that stands for a missing value. -/
def noValueText : String := "NOVALUE"

/-- Reads a value, not minding blanks around it. -/
def ofText (s : String) : Value :=
  let content := Text.trim s
  if content = noValueText then .noValue else .literal content

/-- A string literal with the given content. -/
def ofString (content : String) : Value := .literal ("'" ++ content ++ "'")

def ofInteger (k : Integer) : Value := .literal k.text

def ofFloat (x : Binary64) : Value := .literal x.storedText

def isNoValue : Value → Bool
  | .noValue => true
  | .literal _ => false

def literal? : Value → Option String
  | .noValue => none
  | .literal s => some s

def integer? (v : Value) : Option Integer := v.literal?.bind Integer.read?

def float? (v : Value) : Option Binary64 := v.literal?.bind Binary64.read?

def text : Value → String
  | .noValue => noValueText
  | .literal s => s

/-- The form in which a value is stored in a column: floats get their three decimal places. -/
def normalized (v : Value) : ColumnType → Value
  | .float => (v.float?.map ofFloat).getD v
  | _ => v

@[simp] theorem isNoValue_noValue : isNoValue .noValue = true := rfl

@[simp] theorem isNoValue_literal (s : String) : isNoValue (.literal s) = false := rfl

@[simp] theorem normalized_noValue (type : ColumnType) : normalized .noValue type = .noValue := by
  cases type <;> rfl

@[simp] theorem normalized_string (v : Value) : v.normalized .string = v := rfl

@[simp] theorem normalized_int (v : Value) : v.normalized .int = v := rfl

end Value
end Relational
