import ClassLoading.Bytes.Varint
import ClassLoading.Class.Basic
import ClassLoading.Class.Header

/-!
# Reading class files

A class is read front to back: the header, the constants, the fields and the methods. Each member
is checked against the constants as it is read, each count against a limit before anything behind
it is read, and nothing may follow the last method.
-/

namespace ClassLoading

/-- The most constants, fields and methods a class may declare. -/
structure Limits where
  constants : Nat := 65536
  fields : Nat := 4096
  methods : Nat := 4096
  deriving DecidableEq

/-- The largest limits a size can say, which no count reaches. -/
def Limits.unlimited : Limits :=
  ⟨(1 <<< 64) - 1, (1 <<< 64) - 1, (1 <<< 64) - 1⟩

namespace Reader

/-- A check that reads nothing. -/
def check {α : Type} : Except Fault α → Reader α
  | .ok a => pure a
  | .error fault => throw fault

def count : Reader Nat :=
  UInt32.toNat <$> Varint.read

def index : Reader UInt16 :=
  UInt16.ofNat <$> number 2

/-- Bytes behind their four-byte length. -/
def sized : Reader (List UInt8) := do
  let length ← number 4
  take length

/-- A list behind its count, which may not exceed `max`. -/
def counted {α : Type} (max : Nat) (tooMany : (count max : Nat) → Fault) (item : Nat → Reader α) :
    Reader (Array α) := do
  let n ← count
  require (n ≤ max) (tooMany n max)
  repeated n item

end Reader

open Reader

/-- The constant at `position` of a pool. -/
def Constant.read (position : Nat) : Reader Constant := do
  let tag ← byte
  match tag.toNat with
  | 0 => (fun n => signed (UInt64.ofNat n).toInt64) <$> number 8
  | 1 => (fun n => unsigned (UInt64.ofNat n)) <$> number 8
  | 2 => (fun n => float (UInt64.ofNat n)) <$> number 8
  | 3 =>
    let start ← Reader.position
    let bytes ← sized
    match Utf8.decode bytes with
    | .ok chars => return text (String.ofList chars)
    | .error fault => throw (.invalidText position start fault)
  | _ => throw (.unknownConstantTag tag position)

def Pool.read (max : Nat) : Reader Pool :=
  Pool.mk <$> counted max .poolTooLarge Constant.read

/-- The name of the class that owns the pool: its first constant. -/
def Pool.className (pool : Pool) : Except Fault String :=
  if pool.isEmpty then .ok "" else pool.expectText 0

def Access.read : Reader Access := do
  let start ← Reader.position
  let bits ← byte
  require (Access.mk bits).isDefined (.undefinedAccess bits start)
  return ⟨bits⟩

def CallKind.read : Reader CallKind := do
  let code ← byte
  match CallKind.all[code.toNat]? with
  | some kind => return kind
  | none => throw (.unknownCall code)

/-- The index of a text. -/
def readName (pool : Pool) : Reader UInt16 := do
  let name ← index
  let _ ← check (pool.expectText name.toNat)
  return name

/-- The index of any constant. -/
def readTag (pool : Pool) : Reader UInt16 := do
  let tag ← index
  check (pool.checkIndex tag.toNat)
  return tag

def readTags (pool : Pool) : Reader (List UInt16) := do
  let n ← count
  Array.toList <$> repeated n fun _ => readTag pool

def Field.read (pool : Pool) : Reader Field := do
  let access ← Access.read
  let name ← readName pool
  let start ← Reader.position
  let tags ← readTags pool
  require (!tags.isEmpty) (.untypedField start)
  return ⟨access, name, .ofTags tags⟩

def Method.read (pool : Pool) : Reader Method := do
  let access ← Access.read
  let dispatch ← CallKind.read
  let name ← readName pool
  let args ← readTags pool
  let body ← sized
  return ⟨access, dispatch, name, .ofTags args, body⟩

/-- Passes only where nothing is left to read. -/
def Reader.finish : Reader Unit := fun c =>
  if c.atEnd then .ok () c else .error (.trailingBytes c.remaining c.pos) c

namespace Class

def read (limits : Limits) : Reader Class := do
  let header ← Header.read
  let pool ← Pool.read limits.constants
  let name ← check pool.className
  let fields ← counted limits.fields .tooManyFields fun _ => Field.read pool
  let methods ← counted limits.methods .tooManyMethods fun _ => Method.read pool
  finish
  return ⟨header.kind, header.access, header.version, name, fields, methods, pool⟩

def decode (bytes : List UInt8) (limits : Limits) : Except Fault Class :=
  match read limits (Cursor.start bytes) with
  | .ok c _ => .ok c
  | .error fault _ => .error fault

end Class

end ClassLoading
