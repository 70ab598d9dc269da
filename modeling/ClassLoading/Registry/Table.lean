import ClassLoading.Config
import ClassLoading.Memory.Arena
import ClassLoading.Registry.SlotArray

/-!
# Slot tables

A table finds ids by 32-bit hashes: a slot array in the committed bytes of an arena, which has room
for the largest number of slots and commits more as the table doubles. Making room and inserting are
two steps, so that a caller can store what the id stands for in between. Ids whose hashes agree are
told apart by the caller.
-/

namespace ClassLoading

structure Table where
  arena : Arena
  slots : Nat
  occupied : Nat
  maxSlots : Nat
  loadPercent : Nat

/-- How far the entries of a table are from their homes. -/
structure Probes where
  max : Nat
  total : Nat
  entries : Nat
  deriving DecidableEq

/-- The mean distance, zero if there are no entries. -/
def Probes.mean (p : Probes) : Float :=
  if p.entries = 0 then 0 else (UInt64.ofNat p.total).toFloat / (UInt64.ofNat p.entries).toFloat

namespace Table

/-- A table with no entries, whose arena has been sized but committed no slots. -/
def ofArena (arena : Arena) (sizing : Sizing) : Except Refusal Table :=
  if arena.range.base % slotSize ≠ 0 then
    .error ⟨.reservationFailed arena.reserved .misaligned, arena.release⟩
  else
    match arena.grow (sizing.initialSlots * slotSize) with
    | (.error fault, arena) => .error ⟨fault, arena.release⟩
    | (.ok _, arena) => .ok ⟨arena, sizing.initialSlots, 0, sizing.maxSlots, sizing.loadPercent⟩

def new (mapper : Mapper) (sizing : Sizing) : Except Refusal Table :=
  match sizing.validate with
  | .error fault => .error ⟨fault, []⟩
  | .ok () =>
    match Arena.reserve mapper sizing.reservationSize with
    | .error refusal => .error refusal
    | .ok arena => ofArena arena sizing

def slotArray (t : Table) : SlotArray :=
  ⟨t.arena.range.bytes, t.slots⟩

def withSlotArray (t : Table) (s : SlotArray) : Table :=
  { t with arena := t.arena.setBytes s.bytes, slots := s.count }

/-- The id that a search meets first among those under a hash that the caller accepts. -/
def find? (t : Table) (hash : UInt32) (accept : UInt32 → Bool) : Option UInt32 :=
  (t.slotArray.ids hash).find? accept

/-- The ids that the caller is asked about in a search. -/
def asked (t : Table) (hash : UInt32) (accept : UInt32 → Bool) : List UInt32 :=
  let ids := t.slotArray.ids hash
  ids.take ((ids.takeWhile fun id => !accept id).length + 1)

/-- Commits the bytes for twice as many slots, where they are not committed yet. -/
def commitDouble (t : Table) : Except Fault Unit × Table :=
  let needed := 2 * t.slots * slotSize
  if needed ≤ t.arena.committed then (.ok (), t)
  else
    match t.arena.grow (needed - t.arena.committed) with
    | (.ok _, arena) => (.ok (), { t with arena := arena })
    | (.error fault, arena) => (.error fault, { t with arena := arena })

/-- Doubles the slots. If an entry then found no place, those before it would stand in the new slots
already; but each finds one (`SlotArray.exists_double`), and the table is kept as it was here. -/
def grow (t : Table) : Except Fault Unit × Table :=
  match t.commitDouble with
  | (.error fault, t) => (.error fault, t)
  | (.ok (), t) =>
    match t.slotArray.double? with
    | some s => (.ok (), t.withSlotArray s)
    | none => (.error (.registryFull (2 * t.slots)), t)

/-- Whether one more entry would exceed the load factor of a table that can still grow. -/
def isCrowded (t : Table) : Bool :=
  t.slots * t.loadPercent < (t.occupied + 1) * 100 && t.slots < t.maxSlots

/-- Makes room for one more entry, doubling a crowded table. -/
def makeRoom (t : Table) : Except Fault Unit × Table :=
  match if t.isCrowded then t.grow else (.ok (), t) with
  | (.error fault, t) => (.error fault, t)
  | (.ok (), t) => if t.slots ≤ t.occupied then (.error (.registryFull t.slots), t) else (.ok (), t)

/-- Enters an id under a hash, without making room first. -/
def insert (t : Table) (hash id : UInt32) : Except Fault Unit × Table :=
  if t.slots ≤ t.occupied then (.error (.registryFull t.slots), t)
  else
    match t.slotArray.place? (Slot.pack hash id) with
    | none => (.error (.registryFull t.slots), t)
    | some s => (.ok (), { t.withSlotArray s with occupied := t.occupied + 1 })

/-- Makes room for an id and enters it under a hash. -/
def add (t : Table) (hash id : UInt32) : Except Fault Unit × Table :=
  match t.makeRoom with
  | (.error fault, t) => (.error fault, t)
  | (.ok (), t) => t.insert hash id

def probes (t : Table) : Probes :=
  let s := t.slotArray
  let distances := s.entries.map fun (i, word) => s.distance word i
  ⟨distances.foldl max 0, distances.foldr (· + ·) 0, t.occupied⟩

end Table

end ClassLoading
