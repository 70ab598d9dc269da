/-!
# Hexadecimal text

Bytes as two upper-case digits each, and numbers in lower case without leading zeros.
-/

namespace ClassLoading.Hex

/-- Two upper-case digits. -/
def upperByte (b : UInt8) : String :=
  let digit (n : Nat) := (Nat.digitChar n).toUpper
  String.ofList [digit (b.toNat / 16), digit (b.toNat % 16)]

/-- Lower-case digits, without padding. -/
def lower (n : Nat) : String :=
  String.ofList (Nat.toDigits 16 n)

end ClassLoading.Hex
