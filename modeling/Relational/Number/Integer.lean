/-!
# Integers of 64 bits

The integers from `-2 ^ 63` up to `2 ^ 63 - 1`. A result outside of this range is no integer of this
kind: it is refused and never wrapped.
-/
namespace Relational

structure Integer where
  val : Int
  lower : -0x8000000000000000 ≤ val
  upper : val < 0x8000000000000000
deriving DecidableEq

namespace Integer

theorem ext {a b : Integer} (h : a.val = b.val) : a = b := by
  cases a; cases b; cases h; rfl

def ofInt? (k : Int) : Option Integer :=
  if h : -0x8000000000000000 ≤ k ∧ k < 0x8000000000000000 then some ⟨k, h.1, h.2⟩ else none

theorem ofInt?_eq_some_iff {k : Int} {a : Integer} : ofInt? k = some a ↔ a.val = k := by
  constructor
  · intro h
    unfold ofInt? at h
    split at h
    · cases h; rfl
    · cases h
  · intro h
    subst h
    exact dif_pos ⟨a.lower, a.upper⟩

theorem ofInt?_eq_none_iff {k : Int} :
    ofInt? k = none ↔ k < -0x8000000000000000 ∨ 0x8000000000000000 ≤ k := by
  unfold ofInt?
  split <;> simp <;> omega

@[simp] theorem ofInt?_val (a : Integer) : ofInt? a.val = some a := ofInt?_eq_some_iff.2 rfl

/-- The integer nearest to `k`. -/
def clamp (k : Int) : Integer where
  val := max (-0x8000000000000000) (min k 0x7fffffffffffffff)
  lower := by omega
  upper := by omega

@[simp] theorem clamp_val (a : Integer) : clamp a.val = a := by
  apply ext
  have := a.lower
  have := a.upper
  simp only [clamp]
  omega

def text (a : Integer) : String := toString a.val

end Integer
end Relational
