import ClassLoading.Memory.Mapper

/-!
# Arenas

An arena reserves one range of addresses and commits pages from its front as it grows. The range
never moves and committed bytes stay where they are; only committed bytes can be read and written.
Each arena answers for its range: it is handed back once, when the arena is released or cannot be
made usable.
-/

namespace ClassLoading

/-- The largest number of bytes a size can say. -/
def sizeLimit : Nat := (1 <<< 64) - 1

/-- Something that could not be set up: why, and what has passed with the mapper. -/
structure Refusal where
  fault : Fault
  history : History

/-- The bytes from `start` up to `stop`. -/
structure Span where
  start : Nat
  stop : Nat
  deriving DecidableEq

structure Arena where
  mapper : Mapper
  history : History
  range : PageRange
  committed : Nat

namespace Arena

/-- A size rounded up to whole pages, unless that takes it past the largest size. -/
def roundToPage (size page : Nat) : Option Nat :=
  if size + (page - 1) ≤ sizeLimit then some ((size + (page - 1)) / page * page) else none

/-- Reserves a number of bytes, rounded up to whole pages, and commits none of them. -/
def reserve (mapper : Mapper) (size : Nat) : Except Refusal Arena :=
  match roundToPage size mapper.pageSize with
  | none => .error ⟨.reservationFailed size (.unroundable mapper.pageSize), []⟩
  | some 0 => .error ⟨.reservationFailed 0 .empty, []⟩
  | some size =>
    match mapper.reserve [] size with
    | (.error fault, history) => .error ⟨fault, history⟩
    | (.ok range, history) =>
      if range.length < size then .error ⟨.reservationFailed size (.short range.length), history⟩
      else .ok ⟨mapper, history, range, 0⟩

def reserved (a : Arena) : Nat :=
  a.range.length

/-- Where the committed bytes would end after growing, if they stay inside the reservation. -/
def grownEnd? (a : Arena) (additional : Nat) : Option Nat :=
  match roundToPage additional a.mapper.pageSize with
  | none => none
  | some size =>
    let stop := a.committed + size
    if stop ≤ sizeLimit ∧ stop ≤ a.reserved then some stop else none

/-- Commits some more bytes, rounded up to whole pages, and answers which. Growing by nothing asks
for nothing. -/
def grow (a : Arena) (additional : Nat) : Except Fault Span × Arena :=
  if additional = 0 then (.ok ⟨a.committed, a.committed⟩, a)
  else
    match a.grownEnd? additional with
    | none =>
      (.error (.reservationExhausted (min (a.committed + additional) sizeLimit) a.reserved), a)
    | some stop =>
      match a.mapper.commit a.history a.range.toExtent a.committed (stop - a.committed) with
      | (.ok (), history) =>
        (.ok ⟨a.committed, stop⟩, { a with history := history, committed := stop })
      | (.error fault, history) => (.error fault, { a with history := history })

/-- Some of the committed bytes. -/
def read? (a : Arena) (offset n : Nat) : Option (List UInt8) :=
  if offset + n ≤ a.committed then some (a.range.bytes.read offset n) else none

def setBytes (a : Arena) (bytes : Store) : Arena :=
  { a with range := { a.range with bytes := bytes } }

/-- Replaces some of the committed bytes. -/
def write? (a : Arena) (offset : Nat) (bytes : List UInt8) : Option Arena :=
  if offset + bytes.length ≤ a.committed then
    some (a.setBytes (a.range.bytes.write offset bytes))
  else none

/-- Hands the range back, and answers all that has passed with the mapper. -/
def release (a : Arena) : History :=
  a.mapper.release a.history a.range.toExtent

end Arena

end ClassLoading
