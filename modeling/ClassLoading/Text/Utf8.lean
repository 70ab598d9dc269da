/-!
# UTF-8

Text as bytes. `encode` writes the characters of a text one after the other, each in its shortest
form; `decode` reads them back a byte at a time. A byte string that is no text is diagnosed at the
first character that goes wrong: either its bytes so far begin no character at all, or the string
ends while more bytes are owed.
-/

namespace ClassLoading.Utf8

/-- Why a byte string is no text. An index is that of the first byte of the faulty character; the
length of an invalid one counts the bytes that could still have begun a character. -/
inductive Fault where
  | invalid (length index : Nat)
  | incomplete (index : Nat)
  deriving DecidableEq

def Fault.message : Fault → String
  | .invalid length index => s!"invalid utf-8 sequence of {length} bytes from index {index}"
  | .incomplete index => s!"incomplete utf-8 byte sequence from index {index}"

def encode (text : List Char) : List UInt8 :=
  text.flatMap String.utf8EncodeChar

/-- What a byte means where a character may begin. -/
inductive Lead where
  | whole
  | opens (owed value low high : Nat)
  | invalid
  deriving DecidableEq

/-- The first byte of a character says how many bytes follow and bounds the next one: the bounds
leave out overlong forms, surrogates and values past the last code point. -/
def lead (b : Nat) : Lead :=
  if b < 0x80 then .whole
  else if b < 0xC2 then .invalid
  else if b < 0xE0 then .opens 1 (b - 0xC0) 0x80 0xBF
  else if b < 0xF0 then
    .opens 2 (b - 0xE0) (if b = 0xE0 then 0xA0 else 0x80) (if b = 0xED then 0x9F else 0xBF)
  else if b < 0xF5 then
    .opens 3 (b - 0xF0) (if b = 0xF0 then 0x90 else 0x80) (if b = 0xF4 then 0x8F else 0xBF)
  else .invalid

/-- A character that has begun: where, how many bytes it has and still owes, its value so far and
the range of its next byte. -/
structure Unfinished where
  start : Nat
  taken : Nat
  owed : Nat
  value : Nat
  low : Nat
  high : Nat

/-- Reads on at index `i`, inside the character `begun` if there is one; `done` holds the
characters before, the latest first. -/
def decodeFrom (i : Nat) (begun : Option Unfinished) (done : List Char) :
    List UInt8 → Except Fault (List Char)
  | [] =>
    match begun with
    | none => .ok done.reverse
    | some p => .error (.incomplete p.start)
  | b :: rest =>
    match begun with
    | none =>
      match lead b.toNat with
      | .whole => decodeFrom (i + 1) none (Char.ofNat b.toNat :: done) rest
      | .opens owed value low high =>
        decodeFrom (i + 1) (some ⟨i, 1, owed, value, low, high⟩) done rest
      | .invalid => .error (.invalid 1 i)
    | some p =>
      if p.low ≤ b.toNat ∧ b.toNat ≤ p.high then
        let value := 64 * p.value + b.toNat % 64
        if p.owed = 1 then decodeFrom (i + 1) none (Char.ofNat value :: done) rest
        else
          decodeFrom (i + 1) (some ⟨p.start, p.taken + 1, p.owed - 1, value, 0x80, 0xBF⟩) done rest
      else .error (.invalid p.taken p.start)

def decode (bytes : List UInt8) : Except Fault (List Char) :=
  decodeFrom 0 none [] bytes

end ClassLoading.Utf8
