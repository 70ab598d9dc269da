import ClassLoading.Memory.Mapper

/-!
# Scripted mappers

Mappers that serve the pages of the system until a script says otherwise: reservations that are
refused, too short or out of line, commits that fail or crash after some have succeeded, releases
that are not accepted. They rehearse what a mapper may do.
-/

namespace ClassLoading

inductive ReserveScript where
  | whole
  | fail
  | short
  | misaligned
  deriving DecidableEq

structure MapperScript where
  pageSize : Nat := 4096
  reserve : ReserveScript := .whole
  /-- How many commits succeed before all others fail. -/
  failAfter : Option Nat := none
  /-- How many commits succeed before the next one crashes. -/
  crashAfter : Option Nat := none
  releaseFails : Bool := false

namespace MapperScript

/-- Whether a number of commits has been reached. -/
def reached (limit : Option Nat) (past : History) : Bool :=
  limit.any fun n => n ≤ past.commits.length

def mapper (script : MapperScript) : Mapper where
  pageSize := script.pageSize
  onReserve past size :=
    match script.reserve with
    | .whole => Mapper.system.onReserve past size
    | .fail => .refused size (.refused "refused")
    | .short => Mapper.system.onReserve past (size - 1)
    | .misaligned =>
      match Mapper.system.onReserve past size with
      | .granted extent => .granted ⟨extent.base + 1, extent.length⟩
      | refused => refused
  onCommit past extent offset size :=
    if reached script.crashAfter past then .crashed
    else if reached script.failAfter past then .refused "no commits left"
    else Mapper.system.onCommit past extent offset size
  onRelease _ _ := !script.releaseFails

end MapperScript

end ClassLoading
