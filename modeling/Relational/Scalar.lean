import Relational.Error
import Relational.Number.Arithmetic

/-!
# Scalars

The values that expressions compute with, and the arithmetic on them. Integers never wrap and floats
never become infinite: such a result is an error.
-/
namespace Relational

inductive Scalar where
  | noValue
  | int (k : Integer)
  | float (x : Binary64)
  /-- A string literal with its quotes. -/
  | text (s : String)
deriving DecidableEq

namespace Scalar

def ofStored (type : ColumnType) : Value → Except Error Scalar
  | .noValue => .ok .noValue
  | .literal s =>
    match type with
    | .string => .ok (.text s)
    | .int =>
      match Integer.read? s with
      | some k => .ok (.int k)
      | none => .error (.typeConflict (.notANumber s))
    | .float =>
      match Binary64.read? s with
      | some x => .ok (.float x)
      | none => .error (.typeConflict (.notANumber s))

/-- Reads a literal operand, whose type is the one that `ColumnType.ofOperand` finds. -/
def ofOperand : Value → Scalar
  | .noValue => .noValue
  | .literal s =>
    match Binary64.read? (Text.trim s) with
    | none => .text s
    | some x =>
      match x.whole? with
      | some k => .int (Integer.clamp k)
      | none => .float x

def isNoValue : Scalar → Bool
  | .noValue => true
  | _ => false

def float? : Scalar → Option Binary64
  | .int k => some (Binary64.ofInt k.val)
  | .float x => some x
  | _ => none

def value : Scalar → Value
  | .noValue => .noValue
  | .int k => .ofInteger k
  | .float x => .ofFloat x
  | .text s => .literal s

end Scalar

/-- Two quoted strings as one: the inner two quotes are taken out. -/
def joinQuoted (l r : String) : String := String.ofList (l.toList.dropLast ++ r.toList.tail)

namespace Operation

/-- The exact result of an operation on integers. Division drops the fraction. -/
def exact (operation : Operation) (l r : Int) : Int :=
  match operation with
  | .add => l + r
  | .sub => l - r
  | .mul => l * r
  | .div => l.tdiv r

def onIntegers (operation : Operation) (l r : Integer) : Except Error Integer :=
  if operation = .div ∧ r.val = 0 then .error .divisionByZero
  else
    match Integer.ofInt? (operation.exact l.val r.val) with
    | some k => .ok k
    | none => .error (.overflow (.integer l operation r))

def rounded (operation : Operation) (l r : Binary64) : Binary64 :=
  match operation with
  | .add => l.add r
  | .sub => l.sub r
  | .mul => l.mul r
  | .div => l.div r

def onFloats (operation : Operation) (l r : Binary64) : Except Error Binary64 :=
  if operation = .div ∧ r.isZero then .error .divisionByZero
  else if (operation.rounded l r).isFinite then .ok (operation.rounded l r)
  else .error (.overflow (.float l operation r))

/-- The result of an operation whose operands have been found to make the given type. -/
def apply (operation : Operation) (type : ColumnType) (l r : Scalar) : Except Error Scalar :=
  if l.isNoValue || r.isNoValue then .ok .noValue
  else
    match type with
    | .string =>
      match l, r with
      | .text l, .text r => .ok (.text (joinQuoted l r))
      | _, _ => .error (.typeConflict .combinedKinds)
    | .int =>
      match l, r with
      | .int l, .int r => (operation.onIntegers l r).map .int
      | _, _ => .error (.typeConflict .nonIntegerOperands)
    | .float =>
      match l.float?, r.float? with
      | some l, some r => (operation.onFloats l r).map .float
      | _, _ => .error (.typeConflict .combinedKinds)

/-- The type of a result. Strings can only be added, and only to strings; one float makes a float. -/
def resultType (operation : Operation) : ColumnType → ColumnType → Except Error ColumnType
  | .string, .string =>
    if operation = .add then .ok .string
    else .error (.typeConflict (.stringOperation operation))
  | .string, _ => .error (.typeConflict .combinedKinds)
  | _, .string => .error (.typeConflict .combinedKinds)
  | .int, .int => .ok .int
  | _, _ => .ok .float

end Operation
end Relational
