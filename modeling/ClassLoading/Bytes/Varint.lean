import ClassLoading.Bytes.Cursor

/-!
# Variable-length numbers

A 32-bit number in groups of seven bits, the lowest group first, one group to a byte; the high bit
of a byte says that another one follows. Writing takes as few bytes as will do. Reading takes any
form of up to five bytes whose value fits 32 bits.
-/

namespace ClassLoading.Varint

/-- The groups of `n`, in at most `most` bytes. -/
def groups : (most : Nat) → (n : Nat) → List UInt8
  | 0, _ => []
  | most + 1, n =>
    if n < 128 then [UInt8.ofNat n]
    else UInt8.ofNat (n % 128 + 128) :: groups most (n / 128)

def encode (n : UInt32) : List UInt8 :=
  groups 5 n.toNat

/-- Reads up to `most` further bytes of the number that began at `start`, whose groups so far add
up to `value`; the next one weighs `weight`. The last byte allowed holds four bits only. -/
def readGroups (start : Nat) : (most : Nat) → (weight value : Nat) → Reader UInt32
  | 0, _, _ => throw (.varintTooLong start)
  | most + 1, weight, value => do
    let b ← Reader.byte
    let group := b.toNat % 128
    Reader.require (most != 0 || group < 16) (.varintOverflow start)
    let value := value + group * weight
    if b.toNat < 128 then return UInt32.ofNat value
    readGroups start most (weight * 128) value

def read : Reader UInt32 := do
  let start ← Reader.position
  readGroups start 5 1 0

end ClassLoading.Varint
