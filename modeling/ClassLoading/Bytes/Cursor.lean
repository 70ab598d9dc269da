import ClassLoading.Bytes.LittleEndian
import ClassLoading.Fault

/-!
# Reading bytes

A cursor stands at a position of a byte string and holds the bytes still to come. A reader takes
some of them and yields a value or a fault; either way it says where it stopped. A read of `n` bytes
takes exactly `n`, or fails where it stands.
-/

namespace ClassLoading

structure Cursor where
  pos : Nat
  rest : List UInt8
  deriving DecidableEq

namespace Cursor

/-- A cursor at an offset of a byte string, which may lie past its end. -/
def atOffset (bytes : List UInt8) (offset : Nat) : Cursor :=
  ⟨offset, bytes.drop offset⟩

def start (bytes : List UInt8) : Cursor :=
  atOffset bytes 0

def remaining (c : Cursor) : Nat :=
  c.rest.length

def atEnd (c : Cursor) : Bool :=
  c.rest.isEmpty

end Cursor

/-- A computation that reads on from a cursor. -/
abbrev Reader :=
  EStateM Fault Cursor

namespace Reader

/-- The position of the next byte. -/
def position : Reader Nat :=
  fun c => .ok c.pos c

/-- The next `n` bytes. -/
def take (n : Nat) : Reader (List UInt8) := fun c =>
  let bytes := c.rest.take n
  if bytes.length = n then .ok bytes ⟨c.pos + n, c.rest.drop n⟩
  else .error (.truncated c.pos n c.remaining) c

/-- The next byte. -/
def byte : Reader UInt8 := fun c =>
  match c.rest with
  | [] => .error (.truncated c.pos 1 0) c
  | b :: rest => .ok b ⟨c.pos + 1, rest⟩

/-- The next `width` bytes as a little-endian number. -/
def number (width : Nat) : Reader Nat :=
  LittleEndian.decode <$> take width

/-- Passes if the condition holds and faults otherwise. -/
def require (condition : Bool) (fault : Fault) : Reader Unit :=
  if condition then pure () else throw fault

/-- Adds `count` items to those `done`; each is read knowing its index. -/
def repeatFrom {α : Type} (item : Nat → Reader α) (done : Array α) :
    (count : Nat) → Reader (Array α)
  | 0 => pure done
  | count + 1 => do
    let a ← item done.size
    repeatFrom item (done.push a) count

/-- Reads `count` items one after the other. -/
def repeated {α : Type} (count : Nat) (item : Nat → Reader α) : Reader (Array α) :=
  repeatFrom item #[] count

end Reader

end ClassLoading
