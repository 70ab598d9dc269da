import ClassLoading.Class.Decoding
import ClassLoading.PowerOfTwo

/-!
# Configuration

How the slot table of a registry is sized, and what a loader accepts. A table starts with some
slots and doubles up to a maximum, both powers of two, whenever one more entry would fill more than
a given percentage of it.
-/

namespace ClassLoading

/-- The bytes of a slot. -/
def slotSize : Nat := 8

/-- The most slots a table can have. -/
def slotLimit : Nat := 1 <<< 31

structure Sizing where
  initialSlots : Nat := 64
  maxSlots : Nat := 4194304
  loadPercent : Nat := 70
  deriving DecidableEq

namespace Sizing

/-- The first rule that a sizing breaks. -/
def fault? (s : Sizing) : Option SizingFault :=
  if !isPowerOfTwo s.initialSlots then some (.initialNotPowerOfTwo s.initialSlots)
  else if !isPowerOfTwo s.maxSlots then some (.maxNotPowerOfTwo s.maxSlots)
  else if s.maxSlots < s.initialSlots then some (.initialExceedsMax s.initialSlots s.maxSlots)
  else if slotLimit < s.maxSlots then some (.maxTooLarge s.maxSlots)
  else if s.loadPercent < 1 || 95 < s.loadPercent then some (.loadOutOfRange s.loadPercent)
  else none

def validate (s : Sizing) : Except Fault Unit :=
  match s.fault? with
  | some fault => .error (.invalidSizing fault)
  | none => .ok ()

/-- The bytes the largest table takes, or the most a 64-bit size can say. -/
def reservationSize (s : Sizing) : Nat :=
  min (s.maxSlots * slotSize) ((1 <<< 64) - 1)

end Sizing

structure LoaderConfig where
  limits : Limits := {}
  sizing : Sizing := {}
  deriving DecidableEq

end ClassLoading
