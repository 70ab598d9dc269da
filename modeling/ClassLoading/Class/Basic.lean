import ClassLoading.Class.Access
import ClassLoading.Class.Kind
import ClassLoading.Class.TypeRef

/-!
# Classes

A class as a class file describes it: its kind, access, version and name, its fields and methods in
order and the pool of constants they refer to. A class without a name is anonymous.
-/

namespace ClassLoading

structure Field where
  access : Access
  name : UInt16
  type : TypeRef
  deriving DecidableEq

structure Method where
  access : Access
  call : CallKind
  name : UInt16
  args : TypeRef
  body : List UInt8
  deriving DecidableEq

structure Class where
  kind : ClassKind
  access : Access
  version : UInt8
  name : String
  fields : Array Field
  methods : Array Method
  pool : Pool
  deriving DecidableEq

namespace Class

def isAnonymous (c : Class) : Bool :=
  c.name.isEmpty

/-- Where the first field of that name stands. -/
def findField? (c : Class) (name : String) : Option Nat :=
  c.fields.findIdx? fun field => c.pool.text? field.name.toNat == some name

/-- Where the first method of that name stands. -/
def findMethod? (c : Class) (name : String) : Option Nat :=
  c.methods.findIdx? fun method => c.pool.text? method.name.toNat == some name

end Class

end ClassLoading
