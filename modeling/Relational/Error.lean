import Relational.Expr
import Relational.Query.Token

/-!
# Errors

What can go wrong, by cause, and the one place where each cause is put into words.
-/
namespace Relational

open Query (Token)

/-- What a rule of the query language was looking for. -/
inductive Expectation where
  | command
  | identifier
  | token (token : Token)
  | columnType
  | parenthesisOrAs
  | literal
  | numberAfterMinus
  | operand
  | conditionColumn
  | comparison
deriving DecidableEq

def Expectation.text : Expectation → String
  | .command => "a command"
  | .identifier => "identifier"
  | .token t => t.shown
  | .columnType => "a column type"
  | .parenthesisOrAs => "'(' or 'as'"
  | .literal => "a literal"
  | .numberAfterMinus => "a number after '-'"
  | .operand => "a column or a literal"
  | .conditionColumn => "a column name on the left of a condition"
  | .comparison => "a comparison operator"

inductive Malformation where
  | unsupportedCharacter (c : Char)
  | loneOperator (c : Char)
  | severalDots
  | unterminatedString
  | expected (what : Expectation) (found : Token)
  | unknownType (name : String)
  | trailing (found : Token)
  | aliasRequired (expr : Expr)
  | dotOperator
  | compoundOperand (expr : Expr)
  | missingHeader
  | noSourceTable
deriving DecidableEq

def Malformation.text : Malformation → String
  | .unsupportedCharacter c => "character " ++ Text.quotedChar c ++ " is not supported"
  | .loneOperator c => "invalid operator " ++ Text.quotedChar c
  | .severalDots => "multiple dots are not allowed for a float"
  | .unterminatedString => "unterminated string"
  | .expected what found => "expected " ++ what.text ++ ", found " ++ found.shown
  | .unknownType name => "invalid column type " ++ Text.quoted name
  | .trailing found => "unexpected token after statement: " ++ found.shown
  | .aliasRequired expr => "expression " ++ expr.text ++ " requires an alias"
  | .dotOperator => "invalid operator '.*'"
  | .compoundOperand expr =>
    "condition operand " ++ expr.text ++ " must be a column or a literal"
  | .missingHeader => "missing table header"
  | .noSourceTable => "no source table"

inductive TypeConflict where
  | comparedKinds
  | notANumber (text : String)
  | stringOperation (operation : Operation)
  | combinedKinds
  | nonIntegerOperands
  | untyped (expr : Expr)
  | misfit (text column : String) (type : ColumnType)
deriving DecidableEq

def TypeConflict.text : TypeConflict → String
  | .comparedKinds => "can't compare string and non-string"
  | .notANumber text => text ++ " is not a number"
  | .stringOperation operation =>
    "operator " ++ operation.text ++ " is not supported on strings"
  | .combinedKinds => "can't compute string and non-string"
  | .nonIntegerOperands => "expected two int operands"
  | .untyped expr => "cannot infer the type of expression " ++ expr.text
  | .misfit text column type =>
    "value " ++ text ++ " does not fit column " ++ column ++ " of type " ++ type.name

/-- An arithmetic operation without a representable result. -/
inductive Overflow where
  | integer (left : Integer) (operation : Operation) (right : Integer)
  | float (left : Binary64) (operation : Operation) (right : Binary64)
deriving DecidableEq

def Overflow.text : Overflow → String
  | .integer left operation right =>
    "integer overflow in " ++ left.text ++ " " ++ operation.text ++ " " ++ right.text
  | .float left operation right =>
    "float overflow in " ++ left.text ++ " " ++ operation.text ++ " " ++ right.text

inductive FileFault where
  | noSuchFile
  | notADirectory
  | isADirectory
  | invalidText
  | noRoom
  /-- Any other answer of the system, in its own words. -/
  | other (text : String)
deriving DecidableEq

def FileFault.text : FileFault → String
  | .noSuchFile => "No such file or directory (os error 2)"
  | .notADirectory => "Not a directory (os error 20)"
  | .isADirectory => "Is a directory (os error 21)"
  | .invalidText => "stream did not contain valid UTF-8"
  | .noRoom => "failed to write whole buffer"
  | .other text => text

inductive Error where
  | malformed (why : Malformation)
  | tableNotFound (name : String)
  | columnNotFound (name : String)
  | typeConflict (why : TypeConflict)
  | divisionByZero
  | overflow (why : Overflow)
  /-- A row has the wrong number of values or a value of the wrong type. -/
  | schemaViolation
  /-- The path is empty for a stream without a name. -/
  | file (path : String) (why : FileFault)
  /-- A position that is not there. -/
  | outOfRange (position : Nat)
deriving DecidableEq

namespace Error

def message : Error → String
  | .malformed why => "Malformed query: " ++ why.text
  | .tableNotFound name => "table " ++ name ++ " does not exist"
  | .columnNotFound name => "column " ++ name ++ " does not exist"
  | .typeConflict why => why.text
  | .divisionByZero => "division by zero"
  | .overflow why => "arithmetic error: " ++ why.text
  | .schemaViolation => "row does not match the given table"
  | .file path why => "couldn't access table file " ++ path ++ ": " ++ why.text
  | .outOfRange position => "position " ++ toString position ++ " is out of range"

/-- Names the file in a fault of a stream. -/
def inFile (path : String) : Error → Error
  | .file _ why => .file path why
  | e => e

end Error
end Relational
