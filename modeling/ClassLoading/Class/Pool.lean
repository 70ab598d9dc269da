import ClassLoading.Class.Constant
import ClassLoading.Fault

/-!
# Constant pools

The constants of a class, in order. Members name each other and their types by the index of a
constant; a lookup answers nothing, or a fault that says what is wrong, where the index is past the
end or addresses a constant of another kind.
-/

namespace ClassLoading

structure Pool where
  entries : Array Constant
  deriving DecidableEq

namespace Pool

def size (pool : Pool) : Nat :=
  pool.entries.size

def isEmpty (pool : Pool) : Bool :=
  pool.entries.isEmpty

def get? (pool : Pool) (index : Nat) : Option Constant :=
  pool.entries[index]?

def text? (pool : Pool) (index : Nat) : Option String :=
  (pool.get? index).bind Constant.text?

def checkIndex (pool : Pool) (index : Nat) : Except Fault Unit :=
  if index < pool.size then .ok () else .error (.constantOutOfRange index pool.size)

def expectText (pool : Pool) (index : Nat) : Except Fault String :=
  match pool.get? index with
  | none => .error (.constantOutOfRange index pool.size)
  | some (.text value) => .ok value
  | some constant => .error (.constantMismatch index constant.kind)

end Pool

end ClassLoading
