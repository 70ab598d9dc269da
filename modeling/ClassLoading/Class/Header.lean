import ClassLoading.Bytes.Cursor
import ClassLoading.Class.Access
import ClassLoading.Class.Kind

/-!
# Class file headers

Six bytes open a class file: four that never change, the version, and one that holds the kind of
the class in its top two bits and the access in the rest. A class has at least one access flag and
no undefined one.
-/

namespace ClassLoading

structure Header where
  version : UInt8
  kind : ClassKind
  access : Access
  deriving DecidableEq

namespace Header

/-- The four bytes every class file begins with: `$GLR`. -/
def magic : List UInt8 := [0x24, 0x47, 0x4C, 0x52]

def minVersion : UInt8 := 1

/-- The bits of the header byte that hold the access. -/
def accessMask : UInt8 := 0x3F

/-- The header byte of a kind and an access, cut to the bits there is room for. -/
def byte (kind : ClassKind) (access : Access) : UInt8 :=
  UInt8.ofNat kind.code <<< 6 ||| access.bits &&& accessMask

def encode (header : Header) : List UInt8 :=
  magic ++ [header.version, byte header.kind header.access]

def read : Reader Header := do
  let found ← Reader.take 4
  Reader.require (found == magic) (.badMagic found)
  let version ← Reader.byte
  Reader.require (minVersion ≤ version) (.unsupportedVersion version)
  let header ← Reader.byte
  let access : Access := ⟨header &&& accessMask⟩
  Reader.require (access.isDefined && !access.isEmpty) (.badAccess header)
  return ⟨version, .ofHeader header, access⟩

end Header

end ClassLoading
