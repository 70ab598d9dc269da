/-!
# Kinds of classes and of calls

What a class is and how a method is dispatched. Each kind has a code, its place in the list of all
kinds.
-/

namespace ClassLoading

inductive ClassKind where
  | struct
  | enum
  | trait
  | module
  deriving DecidableEq

namespace ClassKind

def all : List ClassKind := [struct, enum, trait, module]

def code : ClassKind → Nat
  | struct => 0
  | enum => 1
  | trait => 2
  | module => 3

def name : ClassKind → String
  | struct => "struct"
  | enum => "enum"
  | trait => "trait"
  | module => "module"

/-- The kind in the top two bits of a header byte. -/
def ofHeader (header : UInt8) : ClassKind :=
  match header.toNat / 64 with
  | 0 => struct
  | 1 => enum
  | 2 => trait
  | _ => module

end ClassKind

/-- A plain call, a tail call, a virtual call or a call into compiled code. -/
inductive CallKind where
  | call
  | tail
  | virtual
  | compiled
  deriving DecidableEq

namespace CallKind

def all : List CallKind := [call, tail, virtual, compiled]

def code : CallKind → Nat
  | call => 0
  | tail => 1
  | virtual => 2
  | compiled => 3

def name : CallKind → String
  | call => "call"
  | tail => "tcall"
  | virtual => "vcall"
  | compiled => "jcall"

end CallKind

end ClassLoading
