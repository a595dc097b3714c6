import Relational.Number.Binary64

/-!
# Arithmetic on floating-point numbers

Each operation is the exact one followed by one rounding.
-/
namespace Relational.Binary64

def neg : Binary64 → Binary64
  | .finite negative rank => .finite (!negative) rank
  | .infinite negative => .infinite (!negative)
  | .nan => .nan

/-- A sum of zero is negative only if both terms are. -/
def add : Binary64 → Binary64 → Binary64
  | .nan, _ => .nan
  | _, .nan => .nan
  | .infinite s, .infinite t => if s = t then .infinite s else .nan
  | .infinite s, .finite _ _ => .infinite s
  | .finite _ _, .infinite t => .infinite t
  | .finite s j, .finite t k =>
    let sum := signedUnits s j + signedUnits t k
    if sum = 0 then zero (s && t) else ofQuotient (sum < 0) sum.natAbs 1

def sub (x y : Binary64) : Binary64 := add x (neg y)

def isZero : Binary64 → Bool
  | .finite _ rank => rank.val = 0
  | _ => false

def mul : Binary64 → Binary64 → Binary64
  | .nan, _ => .nan
  | _, .nan => .nan
  | .infinite s, .infinite t => .infinite (s != t)
  | .infinite s, .finite t k => if k.val = 0 then .nan else .infinite (s != t)
  | .finite s j, .infinite t => if j.val = 0 then .nan else .infinite (s != t)
  | .finite s j, .finite t k => ofQuotient (s != t) (units j * units k) unitsPerOne

def div : Binary64 → Binary64 → Binary64
  | .nan, _ => .nan
  | _, .nan => .nan
  | .infinite _, .infinite _ => .nan
  | .infinite s, .finite t _ => .infinite (s != t)
  | .finite s _, .infinite t => zero (s != t)
  | .finite s j, .finite t k =>
    if k.val = 0 then if j.val = 0 then .nan else .infinite (s != t)
    else ofQuotient (s != t) (units j * unitsPerOne) (units k)

end Relational.Binary64
