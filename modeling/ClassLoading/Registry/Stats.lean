/-!
# Registry statistics

How full a registry is and how far its entries are from their homes.
-/

namespace ClassLoading

structure RegistryStats where
  slots : Nat
  occupied : Nat
  committed : Nat
  maxProbe : Nat
  meanProbe : Float

/-- The share of the slots that is occupied, zero if there are none. -/
def loadRatio (slots occupied : UInt64) : Float :=
  if slots = 0 then 0 else occupied.toFloat / slots.toFloat

def RegistryStats.load (s : RegistryStats) : Float :=
  loadRatio (UInt64.ofNat s.slots) (UInt64.ofNat s.occupied)

end ClassLoading
