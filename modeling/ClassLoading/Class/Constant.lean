/-!
# Constants

The values a class file can hold in its constant pool: signed and unsigned 64-bit integers, 64-bit
floating-point numbers and texts. A floating-point number is kept as its bit pattern, so that every
one of them, not-a-numbers included, survives unchanged.
-/

namespace ClassLoading

/-- The kinds of constants, numbered by `tag` in a class file. -/
inductive ConstantKind where
  | i64
  | u64
  | f64
  | utf8
  deriving DecidableEq

namespace ConstantKind

def all : List ConstantKind := [i64, u64, f64, utf8]

def tag : ConstantKind → Nat
  | i64 => 0
  | u64 => 1
  | f64 => 2
  | utf8 => 3

def name : ConstantKind → String
  | i64 => "i64"
  | u64 => "u64"
  | f64 => "f64"
  | utf8 => "utf8"

end ConstantKind

inductive Constant where
  | signed (value : Int64)
  | unsigned (value : UInt64)
  | float (bits : UInt64)
  | text (value : String)
  deriving DecidableEq

namespace Constant

def kind : Constant → ConstantKind
  | signed _ => .i64
  | unsigned _ => .u64
  | float _ => .f64
  | text _ => .utf8

def signed? : Constant → Option Int64
  | signed value => some value
  | _ => none

def unsigned? : Constant → Option UInt64
  | unsigned value => some value
  | _ => none

def float? : Constant → Option UInt64
  | float bits => some bits
  | _ => none

def text? : Constant → Option String
  | text value => some value
  | _ => none

end Constant

end ClassLoading
