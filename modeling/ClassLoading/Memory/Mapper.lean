import ClassLoading.Fault
import ClassLoading.Memory.Store

/-!
# Page mappers

Memory comes from a page mapper: it reserves a range of addresses, commits pages inside it and takes
the range back. A mapper answers as it likes, and its answers may depend on everything that has
passed before; that history is kept, the latest event first. The bytes of a range are zero until
they are written.
-/

namespace ClassLoading

/-- Where a range of addresses lies. -/
structure Extent where
  base : Nat
  length : Nat
  deriving DecidableEq

/-- A range of addresses and the bytes in it. -/
structure PageRange extends Extent where
  bytes : Store

/-- Something that has passed between a mapper and those it serves. -/
inductive MapperEvent where
  | reserved (size : Nat) (extent : Option Extent)
  | committed (offset size : Nat) (granted : Bool)
  | released (extent : Extent) (accepted : Bool)
  deriving DecidableEq

abbrev History :=
  List MapperEvent

namespace History

/-- The sizes asked for, in order. -/
def reservations (h : History) : List Nat :=
  h.reverse.filterMap fun
    | .reserved size _ => some size
    | _ => none

/-- The offsets and sizes committed, in order. -/
def commits (h : History) : List (Nat × Nat) :=
  h.reverse.filterMap fun
    | .committed offset size true => some (offset, size)
    | _ => none

/-- The ranges handed back, in order. -/
def releases (h : History) : List Extent :=
  h.reverse.filterMap fun
    | .released extent _ => some extent
    | _ => none

end History

inductive ReserveAnswer where
  | granted (extent : Extent)
  | refused (size : Nat) (fault : ReservationFault)
  deriving DecidableEq

inductive CommitAnswer where
  | granted
  | refused (reason : String)
  | crashed
  deriving DecidableEq

structure Mapper where
  pageSize : Nat
  onReserve : History → (size : Nat) → ReserveAnswer
  onCommit : History → Extent → (offset size : Nat) → CommitAnswer
  onRelease : History → Extent → Bool

namespace Mapper

def reserve (m : Mapper) (past : History) (size : Nat) : Except Fault PageRange × History :=
  match m.onReserve past size with
  | .granted extent => (.ok ⟨extent, .blank⟩, .reserved size (some extent) :: past)
  | .refused size' fault => (.error (.reservationFailed size' fault), .reserved size none :: past)

def commit (m : Mapper) (past : History) (extent : Extent) (offset size : Nat) :
    Except Fault Unit × History :=
  match m.onCommit past extent offset size with
  | .granted => (.ok (), .committed offset size true :: past)
  | .refused reason =>
    (.error (.commitFailed size offset reason), .committed offset size false :: past)
  | .crashed => (.error .mapperCrashed, .committed offset size false :: past)

/-- Hands a range back. A mapper may refuse it, which changes nothing. -/
def release (m : Mapper) (past : History) (extent : Extent) : History :=
  .released extent (m.onRelease past extent) :: past

/-- The largest range of addresses there is. -/
def maxLength : Nat := (1 <<< 63) - 1

/-- The pages of the system: any range up to the largest can be reserved, and any part of a range
can be committed. -/
def system : Mapper where
  pageSize := 4096
  onReserve _ size :=
    if size = 0 then .refused size .empty
    else if maxLength < size then .refused size (.refused "memory map length overflows isize")
    else .granted ⟨4096, size⟩
  onCommit _ extent offset size :=
    if offset + size < 1 <<< 64 ∧ offset + size ≤ extent.length then .granted
    else .refused s!"range ends past the {extent.length} byte reservation"
  onRelease _ _ := true

end Mapper

end ClassLoading
