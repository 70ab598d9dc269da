/-!
# Slot words

What a slot of the table holds: zero where it is empty, and otherwise the hash of a name above the
id of a class plus one. The largest id does not fit beside a hash: its successor runs over into the
lowest bit of the hash.
-/

namespace ClassLoading.Slot

abbrev empty : UInt64 := 0

def pack (hash id : UInt32) : UInt64 :=
  hash.toUInt64 <<< 32 ||| (id.toUInt64 + 1)

/-- The hash in a word. -/
def hash (word : UInt64) : UInt32 :=
  (word >>> 32).toUInt32

/-- The id in a word. -/
def id (word : UInt64) : UInt32 :=
  word.toUInt32 - 1

theorem toNat_successor (id : UInt32) : (id.toUInt64 + 1).toNat = id.toNat + 1 := by
  have := id.toNat_lt
  rw [UInt64.toNat_add, UInt32.toNat_toUInt64, UInt64.toNat_one]
  exact Nat.mod_eq_of_lt (by omega)

theorem pack_ne_empty (hash id : UInt32) : pack hash id ≠ empty := by
  intro h
  have hlow := congrArg UInt64.toNat h
  rw [pack, UInt64.toNat_or, toNat_successor, UInt64.toNat_zero, Nat.or_eq_zero_iff] at hlow
  omega

end ClassLoading.Slot
