import Mathlib.Algebra.Group.Nat.Defs
import ClassLoading.Memory.Arena

/-!
# Checked arithmetic

The operations on sizes, words and buffers as a machine has them, where some have no result: a sum
may be too large, a difference below zero, a shift may push bits out of a word, and bytes may lie
past the end of their buffer. Where there is a result it is that of the unchecked operation.
-/

namespace ClassLoading

/-- A number that a size can say. -/
def checkedSize (n : Nat) : Option Nat :=
  if n ≤ sizeLimit then some n else none

/-- A difference that is not below zero. -/
def checkedSub (m n : Nat) : Option Nat :=
  if n ≤ m then some (m - n) else none

/-- The difference of two sizes, going round where it is below zero. -/
def wrappingSub (m n : Nat) : Nat :=
  (m + (sizeLimit + 1) - n) % (sizeLimit + 1)

theorem checkedSize_eq {n : Nat} (h : n ≤ sizeLimit) : checkedSize n = some n :=
  if_pos h

theorem checkedSub_eq {m n : Nat} (h : n ≤ m) : checkedSub m n = some (m - n) :=
  if_pos h

/-- A shift that keeps all bits of the word. -/
def checkedShift (word : UInt32) (shift : Nat) : Option UInt32 :=
  if shift < 32 ∧ word.toNat * 2 ^ shift < 2 ^ 32 then some (word <<< UInt32.ofNat shift) else none

/-- The bytes between two positions, if they are all there. -/
def checkedSlice (bytes : List UInt8) (start stop : Nat) : Option (List UInt8) :=
  if start ≤ stop ∧ stop ≤ bytes.length then some (bytes.extract start stop) else none

theorem checkedSlice_eq {bytes : List UInt8} {start n : Nat} (h : start + n ≤ bytes.length) :
    checkedSlice bytes start (start + n) = some ((bytes.drop start).take n) := by
  simp [checkedSlice, h, List.extract_eq_take_drop]

theorem exists_checkedShift {word : UInt32} {shift : Nat} (hshift : shift < 32)
    (hfits : word.toNat * 2 ^ shift < 2 ^ 32) :
    ∃ shifted, checkedShift word shift = some shifted ∧ shifted.toNat = word.toNat * 2 ^ shift := by
  have hword : shift < 2 ^ 32 := by omega
  refine ⟨_, if_pos ⟨hshift, hfits⟩, ?_⟩
  rw [UInt32.toNat_shiftLeft, UInt32.toNat_ofNat_of_lt' hword, Nat.mod_eq_of_lt hshift,
    Nat.shiftLeft_eq, Nat.mod_eq_of_lt hfits]

end ClassLoading
