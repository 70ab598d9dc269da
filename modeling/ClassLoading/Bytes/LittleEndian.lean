/-!
# Little-endian numbers

A number of `width` bytes, least significant byte first. Encoding keeps the number modulo
`256 ^ width` and always takes exactly `width` bytes; decoding is its inverse on strings of that
length. Scalars, class file lengths and slot words all share this one layout.
-/

namespace ClassLoading.LittleEndian

def encode : (width : Nat) → Nat → List UInt8
  | 0, _ => []
  | width + 1, n => UInt8.ofNat n :: encode width (n / 256)

def decode : List UInt8 → Nat
  | [] => 0
  | b :: rest => b.toNat + 256 * decode rest

@[simp] theorem length_encode (width n : Nat) : (encode width n).length = width := by
  induction width generalizing n with
  | zero => rfl
  | succ width ih => simp [encode, ih]

theorem span_succ (width : Nat) : 1 <<< (8 * (width + 1)) = 256 * 1 <<< (8 * width) := by
  rw [Nat.mul_succ, Nat.shiftLeft_add, Nat.shiftLeft_eq, Nat.mul_comm]

theorem decode_encode (width n : Nat) : decode (encode width n) = n % 1 <<< (8 * width) := by
  induction width generalizing n with
  | zero => simp [encode, decode, Nat.mod_one]
  | succ width ih =>
    have low : (UInt8.ofNat n).toNat = n % 256 := UInt8.toNat_ofNat'
    rw [encode, decode, ih, low, span_succ, Nat.mod_mul]

theorem decode_lt (bytes : List UInt8) : decode bytes < 1 <<< (8 * bytes.length) := by
  induction bytes with
  | nil => simp [decode]
  | cons b rest ih =>
    have := b.toNat_lt
    rw [decode, List.length_cons, span_succ]
    omega

theorem encode_decode (bytes : List UInt8) : encode bytes.length (decode bytes) = bytes := by
  induction bytes with
  | nil => rfl
  | cons b rest ih =>
    have hb := b.toNat_lt
    have hquot : (b.toNat + 256 * decode rest) / 256 = decode rest := by omega
    have hlow : UInt8.ofNat (b.toNat + 256 * decode rest) = b := by
      apply UInt8.toNat_inj.mp
      rw [UInt8.toNat_ofNat']
      omega
    rw [decode, List.length_cons, encode, hquot, hlow, ih]

theorem encode_mod (width n : Nat) : encode width (n % 1 <<< (8 * width)) = encode width n := by
  have h := encode_decode (encode width n)
  rwa [length_encode, decode_encode] at h

end ClassLoading.LittleEndian
