/-!
# Ranges of code points

A property of characters is given as a list of closed ranges of code points, in ascending order.
-/
namespace Relational.Unicode

def covers (ranges : List (Nat × Nat)) (c : Char) : Bool :=
  ranges.any fun range => range.1 ≤ c.toNat && c.toNat ≤ range.2

theorem covers_iff {ranges : List (Nat × Nat)} {c : Char} :
    covers ranges c = true ↔ ∃ range ∈ ranges, range.1 ≤ c.toNat ∧ c.toNat ≤ range.2 := by
  simp [covers]

@[simp] theorem covers_nil (c : Char) : covers [] c = false := rfl

theorem covers_eq_false_of_apart {rs ss : List (Nat × Nat)} {c : Char} (h : covers rs c = true)
    (apart : ∀ r ∈ rs, ∀ s ∈ ss, r.2 < s.1 ∨ s.2 < r.1) : covers ss c = false := by
  rw [← Bool.not_eq_true, covers_iff]
  rintro ⟨s, hs, lower, upper⟩
  obtain ⟨r, hr, lower', upper'⟩ := covers_iff.1 h
  have := apart r hr s hs
  omega

theorem forall_between {P : Char → Prop} {first count : Nat}
    (within : ∀ n < count, P (Char.ofNat (first + n))) {c : Char} (lower : first ≤ c.toNat)
    (upper : c.toNat < first + count) : P c := by
  have here := within (c.toNat - first) (by omega)
  rwa [show first + (c.toNat - first) = c.toNat by omega, Char.ofNat_toNat] at here

end Relational.Unicode
