/-!
# Powers of two

Page sizes and slot counts are powers of two. Zero is none.
-/

namespace ClassLoading

def isPowerOfTwo (n : Nat) : Bool :=
  n == 1 <<< n.log2

theorem isPowerOfTwo_iff {n : Nat} : isPowerOfTwo n = true ↔ ∃ k, n = 1 <<< k := by
  rw [isPowerOfTwo, beq_iff_eq]
  refine ⟨fun h => ⟨n.log2, h⟩, ?_⟩
  rintro ⟨k, rfl⟩
  rw [Nat.one_shiftLeft, Nat.log2_two_pow, Nat.one_shiftLeft]

end ClassLoading
