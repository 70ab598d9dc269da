import ClassLoading.Bytes.Scalar
import ClassLoading.Proofs.Varints

/-!
# Streams of mixed values

A scalar is written as its bits are, eight of them to a byte and the lowest first, and is read from
these bytes alone; a number of variable length is read from any of its forms (`read_reads`). So the
readers of some shapes, one after the other, take a stream of such values and stop behind it
(`readAll_reads`). What was written is read back, and what was read without numbers of variable length
is written as it was (`streams_read_back`).
-/

namespace ClassLoading

open Form Reader

namespace Scalar

/-- The numbers of an integer type. -/
def Holds (type : Scalar) (n : Int) : Prop :=
  match type with
  | .i8 | .i16 | .i32 | .i64 => -2 ^ (8 * type.width - 1) ≤ n ∧ n < 2 ^ (8 * type.width - 1)
  | .u8 | .u16 | .u32 | .u64 => 0 ≤ n ∧ n < 2 ^ (8 * type.width)
  | .f32 | .f64 => False

/-- The number that bits of an integer type stand for: signed types have the two's complement. -/
def number? : (type : Scalar) → type.Bits → Option Int
  | .i8, bits | .i16, bits | .i32, bits | .i64, bits => some bits.toInt
  | .u8, bits | .u16, bits | .u32, bits | .u64, bits => some bits.toNat
  | .f32, _ | .f64, _ => none

variable (type : Scalar)

theorem encode_ofNat {n : Nat} (h : n < 1 <<< (8 * type.width)) :
    type.encode (BitVec.ofNat _ n) = LittleEndian.encode type.width n := by
  rw [Nat.one_shiftLeft] at h
  rw [encode, BitVec.toNat_ofNat, Nat.mod_eq_of_lt h]

theorem encode_number (bits : type.Bits) : Number type.width (type.encode bits) bits.toNat := by
  refine LittleEndian.encode_number ?_
  rw [Nat.one_shiftLeft]
  exact bits.isLt

theorem read_reads : type.read.Reads fun bytes bits => bytes = type.encode bits := by
  refine ((number_reads type.width).map (BitVec.ofNat _)).congr fun bytes bits => ⟨?_, ?_⟩
  · rintro ⟨n, hn, rfl⟩
    rw [type.encode_ofNat hn.lt]
    exact hn.eq_encode
  · rintro rfl
    exact ⟨bits.toNat, type.encode_number bits, by simp⟩

theorem toInt_ofInt {width : Nat} {n : Int} (hpos : 0 < width)
    (h : -2 ^ (width - 1) ≤ n ∧ n < 2 ^ (width - 1)) : (BitVec.ofInt width n).toInt = n :=
  BitVec.toInt_ofInt_eq_self hpos h.1 h.2

theorem toNat_ofInt {width : Nat} {n : Int} (h : 0 ≤ n ∧ n < 2 ^ width) :
    ((BitVec.ofInt width n).toNat : Int) = n := by
  have hmod : n % (2 ^ width : Nat) = n := Int.emod_eq_of_lt h.1 (by exact_mod_cast h.2)
  rw [BitVec.toNat_ofInt, hmod, Int.toNat_of_nonneg h.1]

theorem number?_ofInt {n : Int} (h : type.Holds n) : type.number? (BitVec.ofInt _ n) = some n := by
  cases type with
  | u8 | u16 | u32 | u64 => exact congrArg some (toNat_ofInt h)
  | i8 | i16 | i32 | i64 => exact congrArg some (toInt_ofInt (by decide) h)
  | f32 | f64 => exact h.elim

end Scalar

namespace StreamValue

/-- The bytes that stand for values of a shape. -/
inductive ShapeForm : Shape → Form StreamValue
  | scalar (type : Scalar) (bits : type.Bits) :
    ShapeForm (.scalar type) (type.encode bits) (.scalar type bits)
  | varint {bytes : List UInt8} {value : UInt32} :
    Varint.Encodes bytes value → ShapeForm .varint bytes (.varint value)

/-- Values of some shapes, one behind the other. -/
inductive StreamForm : List Shape → Form (List StreamValue)
  | nil : StreamForm [] [] []
  | cons {shape : Shape} {shapes : List Shape} {x y : List UInt8} {value : StreamValue}
    {values : List StreamValue} : ShapeForm shape x value → StreamForm shapes y values →
    StreamForm (shape :: shapes) (x ++ y) (value :: values)

/-- Values written one after the other. -/
def encodeAll (values : List StreamValue) : List UInt8 :=
  values.flatMap encode

/-- Reads a value of each shape in turn. -/
def readAll : List Shape → Reader (List StreamValue)
  | [] => pure []
  | shape :: shapes => do
    let value ← read shape
    let values ← readAll shapes
    return value :: values

theorem read_reads (shape : Shape) : (read shape).Reads (ShapeForm shape) := by
  cases shape with
  | scalar type =>
    refine ((Scalar.read_reads type).map _).congr fun bytes value => ⟨?_, fun h => ?_⟩
    · rintro ⟨bits, rfl, rfl⟩
      exact .scalar type bits
    · cases h
      exact ⟨_, rfl, rfl⟩
  | varint =>
    refine (Varint.read_encodes.map _).congr fun bytes value => ⟨?_, fun h => ?_⟩
    · rintro ⟨value, hbytes, rfl⟩
      exact .varint hbytes
    · cases h with
      | varint hbytes => exact ⟨_, hbytes, rfl⟩

theorem readAll_reads : ∀ shapes : List Shape, (readAll shapes).Reads (StreamForm shapes)
  | [] => by
    refine (pure_reads []).congr fun bytes values => ⟨?_, fun h => ?_⟩
    · rintro ⟨rfl, rfl⟩
      exact .nil
    · cases h
      exact ⟨rfl, rfl⟩
  | shape :: shapes => by
    refine ((read_reads shape).bind fun value => (readAll_reads shapes).bind fun values =>
      pure_reads (value :: values)).congr fun bytes values => ⟨?_, fun h => ?_⟩
    · rintro ⟨value, x, _, rfl, hx, values, y, _, rfl, hy, rfl, rfl⟩
      simpa using StreamForm.cons hx hy
    · cases h with
      | cons hx hy => exact ⟨_, _, _, rfl, hx, _, _, [], by simp, hy, rfl, rfl⟩

theorem encode_form : ∀ value : StreamValue, ShapeForm value.shape value.encode value
  | scalar type bits => .scalar type bits
  | varint value => .varint (Varint.encode_encodes value)

theorem encodeAll_form : ∀ values : List StreamValue,
    StreamForm (values.map shape) (encodeAll values) values
  | [] => .nil
  | value :: values => .cons (encode_form value) (encodeAll_form values)

/-- Scalars have no other bytes than those that are written. -/
theorem encodeAll_of_form : ∀ {types : List Scalar} {bytes : List UInt8} {values : List StreamValue},
    StreamForm (types.map .scalar) bytes values →
      values.map shape = types.map .scalar ∧ encodeAll values = bytes
  | [], _, _, .nil => ⟨rfl, rfl⟩
  | type :: types, _, _, .cons hx hy => by
    obtain ⟨hshapes, rfl⟩ := encodeAll_of_form hy
    cases hx
    exact ⟨by simp [hshapes, shape], rfl⟩

/-- What is written is read back up to its end, whatever stands around it, and scalars that are read
are written as they were. A scalar is written as the digits of its bits in base 256, and each number
of an integer type is that of its bits. -/
theorem streams_read_back :
    (∀ (before : List UInt8) (values : List StreamValue) (behind : List UInt8),
      readAll (values.map shape)
          (Cursor.atOffset (before ++ encodeAll values ++ behind) before.length)
        = .ok values (Cursor.atOffset (before ++ encodeAll values ++ behind)
          (before ++ encodeAll values).length))
    ∧ (∀ (bytes : List UInt8) (offset : Nat) (types : List Scalar) (values : List StreamValue)
      (c : Cursor), readAll (types.map .scalar) (Cursor.atOffset bytes offset) = .ok values c →
        values.map shape = types.map .scalar ∧ bytes.drop offset = encodeAll values ++ c.rest
          ∧ c.pos = offset + (encodeAll values).length)
    ∧ (∀ (type : Scalar) (bits : type.Bits), (type.encode bits).length = type.width
      ∧ Nat.ofDigits 256 ((type.encode bits).map UInt8.toNat) = bits.toNat)
    ∧ ∀ (type : Scalar) (n : Int), type.Holds n → type.number? (BitVec.ofInt _ n) = some n := by
  refine ⟨fun before values behind => ?_, fun bytes offset types values c h => ?_,
    fun type bits => type.encode_number bits,
    fun type n h => type.number?_ofInt h⟩
  · have hread := (readAll_reads _).at (encodeAll_form values) before.length behind
    simpa [Cursor.atOffset] using hread
  · obtain ⟨x, hinput, hpos, hform⟩ := (readAll_reads _ _ _ _ _).1 h
    obtain ⟨hshapes, rfl⟩ := encodeAll_of_form hform
    exact ⟨hshapes, hinput, hpos⟩

/-- Minus two and a signaling NaN among other bytes, and the lowest number of a type. -/
theorem streams_read_back_nan :
    readAll [.scalar .i16, .scalar .f32]
        (Cursor.atOffset [0x2A, 0xFE, 0xFF, 0x01, 0x00, 0x80, 0x7F, 0x07] 1)
      = .ok [.scalar .i16 0xFFFE#16, .scalar .f32 0x7F800001#32] ⟨7, [0x07]⟩
    ∧ encodeAll [.scalar .i16 0xFFFE#16, .scalar .f32 0x7F800001#32] ++ [0x07]
      = [0xFE, 0xFF, 0x01, 0x00, 0x80, 0x7F, 0x07]
    ∧ Scalar.i16.Holds (-32768)
    ∧ Scalar.i16.number? (BitVec.ofInt _ (-32768)) = some (-32768) := by
  have hread : readAll [.scalar .i16, .scalar .f32]
      (Cursor.atOffset [0x2A, 0xFE, 0xFF, 0x01, 0x00, 0x80, 0x7F, 0x07] 1)
      = .ok [.scalar .i16 0xFFFE#16, .scalar .f32 0x7F800001#32] ⟨7, [0x07]⟩ := rfl
  have hlowest : Scalar.i16.Holds (-32768) := by simp [Scalar.Holds, Scalar.width]
  exact ⟨hread, (streams_read_back.2.1 _ 1 [.i16, .f32] _ _ hread).2.1.symm, hlowest,
    streams_read_back.2.2.2 _ _ hlowest⟩

end StreamValue

end ClassLoading
