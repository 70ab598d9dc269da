/-!
# Access

The flags of a class or member: whether it is public, constant or static. An access is a byte, of
which only the low three bits have a meaning; the others can be told and cleared, never named.
-/

namespace ClassLoading

structure Access where
  bits : UInt8
  deriving DecidableEq

namespace Access

/-- The flags and their bits. -/
def flags : List (String × UInt8) :=
  [("PUB", 1), ("CONST", 2), ("STATIC", 4)]

def pub : Access := ⟨1⟩

/-- The bits that have a meaning. -/
def mask : UInt8 := 7

def isDefined (access : Access) : Bool :=
  access.bits &&& mask == access.bits

def truncate (access : Access) : Access :=
  ⟨access.bits &&& mask⟩

def isEmpty (access : Access) : Bool :=
  access.bits == 0

/-- The names of the flags set, lowest bit first. -/
def names (access : Access) : List String :=
  (flags.filter fun flag => access.bits &&& flag.2 != 0).map Prod.fst

/-- The flags set, as shown to a programmer. -/
def describe (access : Access) : String :=
  match access.names with
  | [] => "AccessFlags(0x0)"
  | names => "AccessFlags(" ++ " | ".intercalate names ++ ")"

end Access

end ClassLoading
