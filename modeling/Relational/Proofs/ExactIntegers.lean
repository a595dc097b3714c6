import Relational.Proofs.IntegerOperands

/-!
# Expressions on exact integers

An expression on integers is computed step by step in 64 bits, and this is compared with the exact
integers. The faults of the exact calculation are the divisions by zero and the results that need
more than 64 bits, listed in the order of the steps: both operands of an operation come before the
operation, the left one first. Without a fault the expression comes to the exact result, and
otherwise to the error that reports the first fault. What stands after this fault in the list is
never computed.
-/
namespace Relational

/-- What goes wrong in one step of an exact calculation. -/
inductive Fault where
  | zeroDivisor
  | outOfRange (left : Int) (operation : Operation) (right : Int)
deriving DecidableEq

/-- The error that a fault is reported as. It names the operands, which are integers of 64 bits. -/
def Fault.IsReportedAs : Fault → Error → Prop
  | .zeroDivisor, e => e = .divisionByZero
  | .outOfRange l operation r, e =>
    ∃ k m : Integer, k.val = l ∧ m.val = r ∧ e = .overflow (.integer k operation m)

namespace Operation

def fault? (operation : Operation) (l r : Int) : Option Fault :=
  if operation = .div ∧ r = 0 then some .zeroDivisor
  else if -2 ^ 63 ≤ operation.exact l r ∧ operation.exact l r < 2 ^ 63 then none
  else some (.outOfRange l operation r)

variable {operation : Operation} {k m : Integer} {fault : Fault}

theorem onIntegers_of_fault?_eq_none (h : operation.fault? k.val m.val = none) :
    ∃ n : Integer, n.val = operation.exact k.val m.val ∧ operation.onIntegers k m = .ok n := by
  unfold fault? at h
  split at h
  · cases h
  · next divisor =>
    split at h
    · next inside =>
      let n : Integer := ⟨operation.exact k.val m.val, inside.1, inside.2⟩
      have found : Integer.ofInt? (operation.exact k.val m.val) = some n :=
        Integer.ofInt?_eq_some_iff.2 rfl
      exact ⟨n, rfl, by rw [onIntegers, if_neg divisor, found]⟩
    · cases h

theorem onIntegers_of_fault? (h : operation.fault? k.val m.val = some fault) :
    ∃ e, operation.onIntegers k m = .error e ∧ fault.IsReportedAs e := by
  unfold fault? at h
  split at h
  · next divisor =>
    cases h
    exact ⟨_, if_pos divisor, rfl⟩
  · next divisor =>
    split at h
    · cases h
    · next outside =>
      cases h
      have noInteger : Integer.ofInt? (operation.exact k.val m.val) = none :=
        Integer.ofInt?_eq_none_iff.2 (by omega)
      refine ⟨.overflow (.integer k operation m), ?_, k, m, rfl, rfl, rfl⟩
      rw [onIntegers, if_neg divisor, noInteger]

end Operation

namespace Formula

def positions : Formula → List Nat
  | .column position _ => [position]
  | .literal _ => []
  | .binary left _ right _ => left.positions ++ right.positions

/-- The formula is made of integer columns and of integers. -/
def OnIntegers : Formula → Prop
  | .column _ type => type = .int
  | .literal scalar => ∃ k, scalar = .int k
  | .binary left _ right _ => left.OnIntegers ∧ right.OnIntegers

/-- The exact result on the given cells. It is of no account if there is a fault. -/
def exact (cell : Nat → Int) : Formula → Int
  | .column position _ => cell position
  | .literal (.int k) => k.val
  | .literal _ => 0
  | .binary left operation right _ => operation.exact (left.exact cell) (right.exact cell)

/-- The faults of the exact calculation, in the order of its steps. -/
def faults (cell : Nat → Int) : Formula → List Fault
  | .column _ _ => []
  | .literal _ => []
  | .binary left operation right _ =>
    left.faults cell ++ right.faults cell ++
      (operation.fault? (left.exact cell) (right.exact cell)).toList

variable {cell : Nat → Int} {row : Row} {f : Formula} {outcome : Except Error Scalar}

/-- The outcome is the exact result of the formula, or the report of its first fault. -/
def IsOutcome (cell : Nat → Int) (f : Formula) (outcome : Except Error Scalar) : Prop :=
  match f.faults cell with
  | [] => ∃ k : Integer, k.val = f.exact cell ∧ outcome = .ok (.int k)
  | fault :: _ => ∃ e, outcome = .error e ∧ fault.IsReportedAs e

theorem isOutcome_of_nil (h : f.faults cell = []) :
    f.IsOutcome cell outcome ↔ ∃ k : Integer, k.val = f.exact cell ∧ outcome = .ok (.int k) := by
  rw [IsOutcome, h]

theorem isOutcome_of_cons {fault : Fault} {rest : List Fault} (h : f.faults cell = fault :: rest) :
    f.IsOutcome cell outcome ↔ ∃ e, outcome = .error e ∧ fault.IsReportedAs e := by
  rw [IsOutcome, h]

/-- From the outcomes of both operands, the outcome of an operation on integers. -/
theorem isOutcome_binary {left right : Formula} (operation : Operation)
    (hl : left.IsOutcome cell (left.eval row)) (hr : right.IsOutcome cell (right.eval row)) :
    IsOutcome cell (.binary left operation right .int)
      (eval row (.binary left operation right .int)) := by
  cases leftFaults : left.faults cell with
  | cons fault rest =>
    obtain ⟨e, failed, reported⟩ := (isOutcome_of_cons leftFaults).1 hl
    refine (isOutcome_of_cons (by rw [faults, leftFaults]; rfl)).2 ⟨e, ?_, reported⟩
    rw [eval, failed]
    rfl
  | nil =>
    obtain ⟨k, hk, first⟩ := (isOutcome_of_nil leftFaults).1 hl
    cases rightFaults : right.faults cell with
    | cons fault rest =>
      obtain ⟨e, failed, reported⟩ := (isOutcome_of_cons rightFaults).1 hr
      refine (isOutcome_of_cons (by rw [faults, leftFaults, rightFaults]; rfl)).2 ⟨e, ?_, reported⟩
      rw [eval, first, failed]
      rfl
    | nil =>
      obtain ⟨m, hm, second⟩ := (isOutcome_of_nil rightFaults).1 hr
      have computed : eval row (.binary left operation right .int) =
          (operation.onIntegers k m).map .int := by
        rw [eval, first, second]
        rfl
      have last : faults cell (.binary left operation right .int) =
          (operation.fault? k.val m.val).toList := by
        rw [faults, leftFaults, rightFaults, hk, hm]
        rfl
      rw [computed]
      cases fault : operation.fault? k.val m.val with
      | some fault =>
        obtain ⟨e, failed, reported⟩ := Operation.onIntegers_of_fault? fault
        rw [failed]
        exact (isOutcome_of_cons (last.trans (congrArg _ fault))).2 ⟨e, rfl, reported⟩
      | none =>
        obtain ⟨n, hn, done⟩ := Operation.onIntegers_of_fault?_eq_none fault
        rw [done]
        refine (isOutcome_of_nil (last.trans (congrArg _ fault))).2 ⟨n, ?_, rfl⟩
        rw [hn, hk, hm]
        rfl

/-- The type of a formula on integers is found to be that of integers at every operation. -/
theorem isOutcome_eval {s : Schema} {e : Expr} {type? : Option ColumnType}
    (compiled : ofExpr s e = .ok (f, type?)) (leaves : f.OnIntegers)
    (read : ∀ i ∈ f.positions, ∃ k : Integer,
      (row.get? i).bind Value.integer? = some k ∧ k.val = cell i) :
    type? = some .int ∧ f.IsOutcome cell (f.eval row) := by
  induction e generalizing f type? with
  | column name =>
    obtain ⟨⟨i, type⟩, -, made⟩ := bind_eq_ok.1 compiled
    cases made
    obtain rfl : type = .int := leaves
    obtain ⟨k, found, hk⟩ := read i List.mem_cons_self
    obtain ⟨v, hv, value⟩ := Option.bind_eq_some_iff.1 found
    refine ⟨rfl, (isOutcome_of_nil rfl).2 ⟨k, hk, ?_⟩⟩
    cases v with
    | noValue => cases value
    | literal text =>
      have number : Integer.read? text = some k := value
      simp only [eval, Row.read, hv, bind, Except.bind, Scalar.ofStored, number]
  | literal v =>
    rw [ofExpr_literal] at compiled
    cases compiled
    obtain ⟨k, hk⟩ := leaves
    rw [hk]
    exact ⟨rfl, (isOutcome_of_nil rfl).2 ⟨k, rfl, rfl⟩⟩
  | binary left operation right ihl ihr =>
    obtain ⟨l, leftType?, q, rightType?, hl, hq, typed, rfl⟩ := ofExpr_binary_eq_ok compiled
    obtain ⟨rfl, first⟩ := ihl hl leaves.1 fun i hi => read i (List.mem_append_left _ hi)
    obtain ⟨rfl, second⟩ := ihr hq leaves.2 fun i hi => read i (List.mem_append_right _ hi)
    cases typed
    exact ⟨rfl, isOutcome_binary operation first second⟩

/-- An expression on integers never wraps. It comes to an integer if and only if the exact
calculation has no fault, and then to its result. Otherwise it fails, and reports the fault that
comes first. -/
theorem eval_eq_exact {s : Schema} {e : Expr} {type? : Option ColumnType}
    (compiled : ofExpr s e = .ok (f, type?)) (leaves : f.OnIntegers)
    (read : ∀ i ∈ f.positions, ∃ k : Integer,
      (row.get? i).bind Value.integer? = some k ∧ k.val = cell i) :
    (∀ k : Integer, f.eval row = .ok (.int k) ↔ f.faults cell = [] ∧ k.val = f.exact cell) ∧
    (f.faults cell = [] → ∃ k, f.eval row = .ok (.int k)) ∧
    (∀ fault rest, f.faults cell = fault :: rest →
      ∃ error, f.eval row = .error error ∧ fault.IsReportedAs error) := by
  obtain ⟨-, outcome⟩ := isOutcome_eval compiled leaves read
  refine ⟨fun k => ⟨fun done => ?_, ?_⟩, fun faultless => ?_, fun fault rest first => ?_⟩
  · cases faults : f.faults cell with
    | nil =>
      obtain ⟨n, hn, value⟩ := (isOutcome_of_nil faults).1 outcome
      cases done.symm.trans value
      exact ⟨rfl, hn⟩
    | cons fault rest =>
      obtain ⟨error, failed, -⟩ := (isOutcome_of_cons faults).1 outcome
      cases done.symm.trans failed
  · rintro ⟨faultless, hk⟩
    obtain ⟨n, hn, value⟩ := (isOutcome_of_nil faultless).1 outcome
    rw [value, Integer.ext (hn.trans hk.symm)]
  · obtain ⟨k, -, value⟩ := (isOutcome_of_nil faultless).1 outcome
    exact ⟨k, value⟩
  · exact (isOutcome_of_cons first).1 outcome

/-- The least integer divided by minus one is the first of two faults. Without it and without the
division by zero there is a result, rounded towards zero. -/
theorem eval_eq_exact_of_least_integer :
    let s : Schema := ⟨[⟨"n", .int⟩, ⟨"m", .int⟩, ⟨"z", .int⟩]⟩
    let row : Row := ⟨[.literal "-9223372036854775808", .literal "-1", .literal "0"]⟩
    let cell : Nat → Int := fun i => if i = 0 then -2 ^ 63 else if i = 1 then -1 else 0
    let quotient : Formula := .binary (.column 0 .int) .div (.column 1 .int) .int
    let f : Formula := .binary quotient .mul
      (.binary (.literal (.int (.clamp 7))) .div (.column 2 .int) .int) .int
    let g : Formula := .binary (.binary (.column 1 .int) .mul (.literal (.int (.clamp 7))) .int) .div
      (.literal (.int (.clamp 2))) .int
    (ofExpr s (.binary (.binary (.column "n") .div (.column "m")) .mul
        (.binary (.literal (.literal "7")) .div (.column "z"))) = .ok (f, some .int) ∧
      ofExpr s (.binary (.binary (.column "m") .mul (.literal (.literal "7.0"))) .div
        (.literal (.literal "2"))) = .ok (g, some .int)) ∧
      f.faults cell = [.outOfRange (-2 ^ 63) .div (-1), .zeroDivisor] ∧
      (∃ error, f.eval row = .error error ∧
        (Fault.outOfRange (-2 ^ 63) .div (-1)).IsReportedAs error) ∧
      g.eval row = .ok (.int (.clamp (-3))) := by
  intro s row cell quotient f g
  have read : ∀ i ∈ [0, 1, 2], ∃ k : Integer,
      (row.get? i).bind Value.integer? = some k ∧ k.val = cell i := by
    simp only [List.forall_mem_cons]
    exact ⟨⟨.clamp (-2 ^ 63), by decide, by decide⟩, ⟨.clamp (-1), by decide, by decide⟩,
      ⟨.clamp 0, by decide, by decide⟩, nofun⟩
  have first : ofExpr s (.binary (.binary (.column "n") .div (.column "m")) .mul
      (.binary (.literal (.literal "7")) .div (.column "z"))) = .ok (f, some .int) := by
    decide +kernel
  have second : ofExpr s (.binary (.binary (.column "m") .mul (.literal (.literal "7.0"))) .div
      (.literal (.literal "2"))) = .ok (g, some .int) := by
    decide +kernel
  have faults : f.faults cell = [.outOfRange (-2 ^ 63) .div (-1), .zeroDivisor] := by decide
  have inside : ∀ i ∈ g.positions, i ∈ [0, 1, 2] := by decide
  obtain ⟨-, -, reported⟩ := eval_eq_exact first ⟨⟨rfl, rfl⟩, ⟨_, rfl⟩, rfl⟩ read
  obtain ⟨value, -, -⟩ := eval_eq_exact second ⟨⟨rfl, _, rfl⟩, _, rfl⟩
    fun i hi => read i (inside i hi)
  exact ⟨⟨first, second⟩, faults, reported _ _ faults, (value _).2 (by decide)⟩

end Formula
end Relational
