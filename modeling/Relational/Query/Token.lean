import Relational.Text.Quoted

/-!
# Tokens

The words and signs of the query language.
-/
namespace Relational.Query

inductive Keyword where
  | create
  | table
  | asName
  | load
  | store
  | drop
  | insert
  | into
  | values
  | print
  | select
  | fromTables
  | whereRows
  | andAlso
  | string
  | int
  | float
deriving DecidableEq

namespace Keyword

def all : List Keyword :=
  [.create, .table, .asName, .load, .store, .drop, .insert, .into, .values, .print, .select,
   .fromTables, .whereRows, .andAlso, .string, .int, .float]

theorem mem_all (k : Keyword) : k ∈ all := by cases k <;> decide

def spelling : Keyword → String
  | .create => "create"
  | .table => "table"
  | .asName => "as"
  | .load => "load"
  | .store => "store"
  | .drop => "drop"
  | .insert => "insert"
  | .into => "into"
  | .values => "values"
  | .print => "print"
  | .select => "select"
  | .fromTables => "from"
  | .whereRows => "where"
  | .andAlso => "and"
  | .string => "string"
  | .int => "int"
  | .float => "float"

/-- The name of the keyword in messages. -/
def label : Keyword → String
  | .create => "Create"
  | .table => "Table"
  | .asName => "As"
  | .load => "Load"
  | .store => "Store"
  | .drop => "Drop"
  | .insert => "Insert"
  | .into => "Into"
  | .values => "Values"
  | .print => "Print"
  | .select => "Select"
  | .fromTables => "From"
  | .whereRows => "Where"
  | .andAlso => "And"
  | .string => "StringType"
  | .int => "Int"
  | .float => "Float"

/-- The keyword that a word is, in any mixture of small and capital letters. -/
def ofWord? (word : List Char) : Option Keyword :=
  all.find? fun k => k.spelling.toList == word.map Char.toLower

end Keyword

inductive Symbol where
  | leftParen
  | rightParen
  | comma
  | semicolon
  | dot
  | star
  | plus
  | minus
  | slash
  | equal
  | notEqual
  | lower
  | lowerEqual
  | greater
  | greaterEqual
deriving DecidableEq

namespace Symbol

def spelling : Symbol → String
  | .leftParen => "("
  | .rightParen => ")"
  | .comma => ","
  | .semicolon => ";"
  | .dot => "."
  | .star => "*"
  | .plus => "+"
  | .minus => "-"
  | .slash => "/"
  | .equal => "=="
  | .notEqual => "!="
  | .lower => "<"
  | .lowerEqual => "<="
  | .greater => ">"
  | .greaterEqual => ">="

/-- The name of the symbol in messages. -/
def label : Symbol → String
  | .leftParen => "LeftParen"
  | .rightParen => "RightParen"
  | .comma => "Comma"
  | .semicolon => "Semicolon"
  | .dot => "Dot"
  | .star => "Star"
  | .plus => "Plus"
  | .minus => "Minus"
  | .slash => "Slash"
  | .equal => "Equal"
  | .notEqual => "NotEqual"
  | .lower => "Lower"
  | .lowerEqual => "LowerEqual"
  | .greater => "Greater"
  | .greaterEqual => "GreaterEqual"

end Symbol

inductive Token where
  | keyword (keyword : Keyword)
  | symbol (symbol : Symbol)
  | identifier (name : String)
  /-- A number as it is written. -/
  | number (digits : String)
  /-- The content of a string literal, without its quotes. -/
  | string (content : String)
  | noValue
  /-- The end of the text. -/
  | finish
deriving DecidableEq

namespace Token

/-- The name of the kind of token in messages. -/
def label : Token → String
  | .keyword k => k.label
  | .symbol s => s.label
  | .identifier _ => "Ident"
  | .number _ => "Number"
  | .string _ => "String"
  | .noValue => "NoValue"
  | .finish => "Eof"

def content? : Token → Option String
  | .identifier s => some s
  | .number s => some s
  | .string s => some s
  | _ => none

def shown (t : Token) : String :=
  match t.content? with
  | some s => t.label ++ "(" ++ Text.quoted s ++ ")"
  | none => t.label

end Token
end Relational.Query
