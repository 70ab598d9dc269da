import ClassLoading.Bytes.Scalar

/-!
# Instructions

The first byte of an instruction: the operation in its low five bits and a selector in its top
three. What a selector means depends on the operation: a type, a conversion, the width of a branch
offset, a way of calling or a way of touching an object. Some codes and some selectors have no
meaning.
-/

namespace ClassLoading

inductive Operation where
  | ret | ldc | add | sub | mul | div | mov | neg | cvt | mod | xor | shr | shl | and | or
  | jmp | je | jne | jl | jle | jg | jge | jinst | call | obj | arr | throw
  deriving DecidableEq

namespace Operation

/-- The operations in the order of their codes. -/
def all : List Operation :=
  [ret, ldc, add, sub, mul, div, mov, neg, cvt, mod, xor, shr, shl, and, or,
   jmp, je, jne, jl, jle, jg, jge, jinst, call, obj, arr, throw]

def code (op : Operation) : Nat :=
  all.idxOf op

def name : Operation → String
  | ret => "ret"
  | ldc => "ldc"
  | add => "add"
  | sub => "sub"
  | mul => "mul"
  | div => "div"
  | mov => "mov"
  | neg => "neg"
  | cvt => "cvt"
  | mod => "mod"
  | xor => "xor"
  | shr => "shr"
  | shl => "shl"
  | and => "and"
  | or => "or"
  | jmp => "jmp"
  | je => "je"
  | jne => "jne"
  | jl => "jl"
  | jle => "jle"
  | jg => "jg"
  | jge => "jge"
  | jinst => "jinst"
  | call => "call"
  | obj => "obj"
  | arr => "arr"
  | throw => "throw"

def isBranch (op : Operation) : Bool :=
  jmp.code ≤ op.code && op.code ≤ jinst.code

end Operation

inductive OperandType where
  | u8 | u16 | u32 | u64 | i32 | i64 | f32 | f64
  deriving DecidableEq

namespace OperandType

def all : List OperandType := [u8, u16, u32, u64, i32, i64, f32, f64]

def name : OperandType → String
  | u8 => "u8"
  | u16 => "u16"
  | u32 => "u32"
  | u64 => "u64"
  | i32 => "i32"
  | i64 => "i64"
  | f32 => "f32"
  | f64 => "f64"

def scalar : OperandType → Scalar
  | u8 => .u8
  | u16 => .u16
  | u32 => .u32
  | u64 => .u64
  | i32 => .i32
  | i64 => .i64
  | f32 => .f32
  | f64 => .f64

/-- The bytes a value takes. -/
def size (type : OperandType) : Nat :=
  type.scalar.width

end OperandType

/-- From and to floating point, signed and unsigned. -/
inductive Conversion where
  | ftoi | ftou | itou | itof | utoi | utof
  deriving DecidableEq

namespace Conversion

def all : List Conversion := [ftoi, ftou, itou, itof, utoi, utof]

def name : Conversion → String
  | ftoi => "ftoi"
  | ftou => "ftou"
  | itou => "itou"
  | itof => "itof"
  | utoi => "utoi"
  | utof => "utof"

end Conversion

inductive BranchOffset where
  | u8 | u16 | u32 | i8 | i16 | i32
  deriving DecidableEq

namespace BranchOffset

def all : List BranchOffset := [u8, u16, u32, i8, i16, i32]

def name : BranchOffset → String
  | u8 => "u8"
  | u16 => "u16"
  | u32 => "u32"
  | i8 => "i8"
  | i16 => "i16"
  | i32 => "i32"

end BranchOffset

inductive CallDispatch where
  | normal | tail | virtual
  deriving DecidableEq

namespace CallDispatch

def all : List CallDispatch := [normal, tail, virtual]

def name : CallDispatch → String
  | normal => "normal"
  | tail => "tail"
  | virtual => "virtual"

end CallDispatch

inductive ObjectAccess where
  | new | get | set | size
  deriving DecidableEq

namespace ObjectAccess

def all : List ObjectAccess := [new, get, set, size]

def name : ObjectAccess → String
  | new => "new"
  | get => "get"
  | set => "set"
  | size => "size"

end ObjectAccess

/-- What a selector stands for. -/
inductive Operand where
  | type (type : OperandType)
  | conversion (conversion : Conversion)
  | branch (offset : BranchOffset)
  | call (dispatch : CallDispatch)
  | object (access : ObjectAccess)
  deriving DecidableEq

/-- What a selector stands for after an operation, if anything. -/
def Operation.operand? (op : Operation) (selector : Nat) : Option Operand :=
  match op with
  | .cvt => Conversion.all[selector]?.map .conversion
  | .call => CallDispatch.all[selector]?.map .call
  | .obj | .arr => ObjectAccess.all[selector]?.map .object
  | op =>
    if op.isBranch then BranchOffset.all[selector]?.map .branch
    else OperandType.all[selector]?.map .type

structure Instruction where
  op : Operation
  selector : Nat
  deriving DecidableEq

namespace Instruction

def operand? (i : Instruction) : Option Operand :=
  i.op.operand? i.selector

def decode? (b : UInt8) : Option Instruction :=
  Operation.all[b.toNat % 32]?.map fun op => ⟨op, b.toNat / 32⟩

/-- Keeps the low three bits of the selector. -/
def encode (i : Instruction) : UInt8 :=
  UInt8.ofNat (i.selector % 8 * 32 + i.op.code)

end Instruction

end ClassLoading
