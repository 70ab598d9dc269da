import ClassLoading.Memory.Store
import ClassLoading.Registry.Slot

/-!
# Slot arrays

Entries in a ring of slots, by Robin Hood hashing. The hash of an entry names its home, and an entry
sits there or some distance further round. An entry that seeks a slot goes round from its home; it
takes the place of the first resident that is nearer to its own home, and the resident goes on
seeking from there. So a search can stop at a resident that is nearer to its home than the search
has come, as well as at an empty slot.
-/

namespace ClassLoading

/-- A number of slots, eight bytes each, from the start of a store. -/
structure SlotArray where
  bytes : Store
  count : Nat

namespace SlotArray

variable (s : SlotArray)

def word (i : Nat) : UInt64 :=
  s.bytes.word i

def setWord (i : Nat) (word : UInt64) : SlotArray :=
  { s with bytes := s.bytes.setWord i word }

/-- The slot after another one, going round. -/
def next (i : Nat) : Nat :=
  (i + 1) % s.count

/-- The slot where the entries of a hash belong. -/
def home (hash : UInt32) : Nat :=
  hash.toNat % s.count

/-- How far a slot lies from the home of the entry in it. -/
def distance (word : UInt64) (i : Nat) : Nat :=
  (i + s.count - s.home (Slot.hash word)) % s.count

/-- The entries, in slot order, with the slots they are in. -/
def entries : List (Nat × UInt64) :=
  (List.range s.count).filterMap fun i =>
    let word := s.word i
    if word = Slot.empty then none else some (i, word)

/-- The ids under a hash that a search meets from slot `i` on, which is `passed` slots from home,
looking at up to `most` slots. -/
def idsFrom (hash : UInt32) : (most i passed : Nat) → List UInt32
  | 0, _, _ => []
  | most + 1, i, passed =>
    let word := s.word i
    if word = Slot.empty ∨ s.distance word i < passed then []
    else
      let later := idsFrom hash most (s.next i) (passed + 1)
      if Slot.hash word = hash then Slot.id word :: later else later

/-- The ids under a hash, in the order a search meets them. -/
def ids (hash : UInt32) : List UInt32 :=
  s.idsFrom hash s.count (s.home hash) 0

/-- Whether one of `most` slots from `i` on is empty. -/
def hasEmptyFrom : (most i : Nat) → Bool
  | 0, _ => false
  | most + 1, i => s.word i == Slot.empty || hasEmptyFrom most (s.next i)

/-- Finds a slot for an entry that has come to slot `i`, which is `passed` slots from its home,
looking at up to `most` slots. -/
def settle (s : SlotArray) : (most : Nat) → (entry : UInt64) → (i passed : Nat) → SlotArray
  | 0, _, _, _ => s
  | most + 1, entry, i, passed =>
    let resident := s.word i
    if resident = Slot.empty then s.setWord i entry
    else if s.distance resident i < passed then
      (s.setWord i entry).settle most resident (s.next i) (s.distance resident i + 1)
    else s.settle most entry (s.next i) (passed + 1)

/-- The array with one more entry, if there is an empty slot. -/
def place? (entry : UInt64) : Option SlotArray :=
  let start := s.home (Slot.hash entry)
  if s.hasEmptyFrom s.count start then some (s.settle s.count entry start 0) else none

def placeAll? (entries : List UInt64) : Option SlotArray :=
  entries.foldlM place? s

def clear : SlotArray :=
  (List.range s.count).foldl (fun s i => s.setWord i Slot.empty) s

/-- The same entries in twice as many slots; those behind the slots so far have to be empty. -/
def double? : Option SlotArray :=
  placeAll? { s.clear with count := 2 * s.count } (s.entries.map Prod.snd)

end SlotArray

end ClassLoading
