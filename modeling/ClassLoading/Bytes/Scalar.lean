import ClassLoading.Bytes.Varint

/-!
# Scalars

The ten fixed-width types: integers of one to eight bytes, signed and unsigned, and the two
floating-point widths. The value of a type is the string of its bits, of which the signed and the
unsigned number are two views; a floating-point value is never interpreted. Streams mix values of
these types with variable-length numbers.
-/

namespace ClassLoading

inductive Scalar where
  | u8 | i8 | u16 | i16 | u32 | i32 | u64 | i64 | f32 | f64
  deriving DecidableEq

namespace Scalar

/-- The bytes a value takes. -/
def width : Scalar → Nat
  | u8 | i8 => 1
  | u16 | i16 => 2
  | u32 | i32 | f32 => 4
  | u64 | i64 | f64 => 8

/-- The bits of a value. -/
abbrev Bits (type : Scalar) :=
  BitVec (8 * type.width)

def encode (type : Scalar) (bits : type.Bits) : List UInt8 :=
  LittleEndian.encode type.width bits.toNat

def read (type : Scalar) : Reader type.Bits :=
  BitVec.ofNat _ <$> Reader.number type.width

end Scalar

/-- A value in a stream. -/
inductive StreamValue where
  | scalar (type : Scalar) (bits : type.Bits)
  | varint (value : UInt32)

namespace StreamValue

/-- What a reader must know to read a value. -/
inductive Shape where
  | scalar (type : Scalar)
  | varint
  deriving DecidableEq

def shape : StreamValue → Shape
  | scalar type _ => .scalar type
  | varint _ => .varint

def encode : StreamValue → List UInt8
  | scalar type bits => type.encode bits
  | varint value => Varint.encode value

def read : Shape → Reader StreamValue
  | .scalar type => scalar type <$> type.read
  | .varint => varint <$> Varint.read

end StreamValue

end ClassLoading
