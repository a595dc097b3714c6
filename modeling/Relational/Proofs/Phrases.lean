import Relational.Query.Statement

/-!
# The grammar of the query language

Which tokens make up a literal, an expression, a clause or a statement, and what they mean. These
are the productions of the language, one constructor for each, and say nothing of how tokens are
read. Grouping to the left and the rank of the operators are in the productions: the left side of an
operator is a phrase of its own level, and its right side is a phrase of the level below.
-/
namespace Relational.Query

/-- A kind of phrase: the tokens of a phrase together with its meaning. -/
abbrev Phrase (α : Type) := List Token → α → Prop

/-- One item or more with separators between them. -/
inductive IsSeparated (separator : Token) (item : Phrase α) : Phrase (List α)
  | one {ts x} : item ts x → IsSeparated separator item ts [x]
  | more {ts us x xs} : item ts x → IsSeparated separator item us xs →
    IsSeparated separator item (ts ++ separator :: us) (x :: xs)

abbrev IsCommaSeparated (item : Phrase α) : Phrase (List α) := IsSeparated (.symbol .comma) item

inductive IsIdentifier : Phrase String
  | identifier (name : String) : IsIdentifier [.identifier name] name

inductive IsLiteral : Phrase Value
  | number (digits : String) : IsLiteral [.number digits] (.literal digits)
  | negative (digits : String) :
    IsLiteral [.symbol .minus, .number digits] (.literal ("-" ++ digits))
  | string (content : String) : IsLiteral [.string content] (.ofString content)
  | noValue : IsLiteral [.noValue] .noValue

inductive IsSimpleOperand : Phrase Expr
  | column (name : String) : IsSimpleOperand [.identifier name] (.column name)
  | literal {ts v} : IsLiteral ts v → IsSimpleOperand ts (.literal v)

inductive IsOperand (inner : Phrase Expr) : Phrase Expr
  | simple {ts e} : IsSimpleOperand ts e → IsOperand inner ts e
  | parenthesized {ts e} : inner ts e →
    IsOperand inner (.symbol .leftParen :: (ts ++ [.symbol .rightParen])) e

inductive IsAdditive : Token → Operation → Prop
  | plus : IsAdditive (.symbol .plus) .add
  | minus : IsAdditive (.symbol .minus) .sub

inductive IsMultiplicative : Token → Operation → Prop
  | star : IsMultiplicative (.symbol .star) .mul
  | slash : IsMultiplicative (.symbol .slash) .div

/-- Items with operators of one level between them, grouped to the left. -/
inductive IsChain (operator : Token → Operation → Prop) (item : Phrase Expr) : Phrase Expr
  | one {ts e} : item ts e → IsChain operator item ts e
  | more {ts us t left operation right} : IsChain operator item ts left → operator t operation →
    item us right → IsChain operator item (ts ++ t :: us) (.binary left operation right)

inductive IsExpression : Phrase Expr
  | sum {ts e} : IsChain IsAdditive (IsChain IsMultiplicative (IsOperand IsExpression)) ts e →
    IsExpression ts e

/-- An entry of a select list. Only a column, with parentheses around it or not, needs no name. -/
inductive IsProjection : Phrase Projection
  | star : IsProjection [.symbol .star] .star
  | column {ts name} : IsExpression ts (.column name) → IsProjection ts (.expr (.column name) none)
  | named {ts e} (name : String) : IsExpression ts e →
    IsProjection (ts ++ [.keyword .asName, .identifier name]) (.expr e (some name))

inductive IsComparison : Token → Comparison → Prop
  | eq : IsComparison (.symbol .equal) .eq
  | ne : IsComparison (.symbol .notEqual) .ne
  | le : IsComparison (.symbol .lowerEqual) .le
  | ge : IsComparison (.symbol .greaterEqual) .ge
  | lt : IsComparison (.symbol .lower) .lt
  | gt : IsComparison (.symbol .greater) .gt

inductive IsCondition : Phrase Condition
  | compares (column : String) {t comparison ts right} : IsComparison t comparison →
    IsSimpleOperand ts right →
    IsCondition (.identifier column :: t :: ts) ⟨column, comparison, right⟩

inductive IsColumnType : Token → ColumnType → Prop
  | string : IsColumnType (.keyword .string) .string
  | int : IsColumnType (.keyword .int) .int
  | float : IsColumnType (.keyword .float) .float

inductive IsColumnDefinition : Phrase Attribute
  | typed (name : String) {t type} : IsColumnType t type →
    IsColumnDefinition [.identifier name, t] ⟨name, type⟩

inductive IsSelection : Phrase Select
  | all {ps projections ns names} : IsCommaSeparated IsProjection ps projections →
    IsCommaSeparated IsIdentifier ns names →
    IsSelection (.keyword .select :: (ps ++ .keyword .fromTables :: ns)) ⟨projections, names, []⟩
  | restricted {ps projections ns names cs conditions} :
    IsCommaSeparated IsProjection ps projections → IsCommaSeparated IsIdentifier ns names →
    IsSeparated (.keyword .andAlso) IsCondition cs conditions →
    IsSelection (.keyword .select :: (ps ++ .keyword .fromTables ::
      (ns ++ .keyword .whereRows :: cs))) ⟨projections, names, conditions⟩

inductive IsCommand : Phrase Statement
  | createTable (name : String) {ts attributes} :
    IsCommaSeparated IsColumnDefinition ts attributes →
    IsCommand (.keyword .create :: .keyword .table :: .identifier name :: .symbol .leftParen ::
      (ts ++ [.symbol .rightParen])) (.createTable name attributes)
  | createTableAs (name : String) {ts select} : IsSelection ts select →
    IsCommand (.keyword .create :: .keyword .table :: .identifier name :: .keyword .asName :: ts)
      (.createTableAs name select)
  | load (name : String) : IsCommand [.keyword .load, .identifier name] (.load name)
  | store (name : String) : IsCommand [.keyword .store, .identifier name] (.store name)
  | dropTable (name : String) :
    IsCommand [.keyword .drop, .keyword .table, .identifier name] (.dropTable name)
  | insert (table : String) {ts values} : IsCommaSeparated IsLiteral ts values →
    IsCommand (.keyword .insert :: .keyword .into :: .identifier table :: .keyword .values :: ts)
      (.insert table values)
  | insertEnclosed (table : String) {ts values} : IsCommaSeparated IsLiteral ts values →
    IsCommand (.keyword .insert :: .keyword .into :: .identifier table :: .keyword .values ::
      .symbol .leftParen :: (ts ++ [.symbol .rightParen])) (.insert table values)
  | print (name : String) : IsCommand [.keyword .print, .identifier name] (.print name)
  | select {ts select} : IsSelection ts select → IsCommand ts (.select select)

/-- All tokens of a text that is one command, with a semicolon after it or without one. -/
inductive IsStatement : Phrase Statement
  | plain {ts s} : IsCommand ts s → IsStatement (ts ++ [.finish]) s
  | closed {ts s} : IsCommand ts s → IsStatement (ts ++ [.symbol .semicolon, .finish]) s

end Relational.Query
