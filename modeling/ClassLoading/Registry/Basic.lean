import ClassLoading.Class.Basic
import ClassLoading.NameHash
import ClassLoading.Registry.Stats
import ClassLoading.Registry.Table

/-!
# Registries

A registry keeps classes in the order they were registered, which numbers them, and finds them by
name through a slot table. A name is registered once. Where the mapper crashes while the table
grows, the table can no longer be trusted: from then on nothing is registered or found by name,
while the classes already there can still be had by number.
-/

namespace ClassLoading

abbrev ClassId :=
  UInt32

structure Registry where
  classes : Array Class
  table : Table
  frozen : Bool

namespace Registry

def new (mapper : Mapper) (sizing : Sizing) : Except Refusal Registry :=
  match Table.new mapper sizing with
  | .error refusal => .error refusal
  | .ok table => .ok ⟨#[], table, false⟩

def size (r : Registry) : Nat :=
  r.classes.size

def isEmpty (r : Registry) : Bool :=
  r.classes.isEmpty

def get? (r : Registry) (id : ClassId) : Option Class :=
  r.classes[id.toNat]?

def hashName (name : String) : UInt32 :=
  NameHash.hash (Utf8.encode name.toList)

def isNamed (r : Registry) (name : String) (id : ClassId) : Bool :=
  (r.get? id).any fun c => c.name == name

/-- The class of that name, as the table has it. -/
def lookup? (r : Registry) (name : String) : Option ClassId :=
  r.table.find? (hashName name) (r.isNamed name)

/-- The class of that name. -/
def find? (r : Registry) (name : String) : Option ClassId :=
  if r.frozen then none
  else (r.lookup? name).filter fun id => (r.get? id).isSome

/-- Stores a class that there is room for and enters it in the table. -/
def store (r : Registry) (c : Class) : Except Fault ClassId × Registry :=
  if 1 <<< 32 ≤ r.size then (.error (.registryFull r.table.slots), r)
  else
    let id := UInt32.ofNat r.size
    match r.table.insert (hashName c.name) id with
    | (.error fault, table) =>
      (.error fault, { r with classes := r.classes.push c, table := table })
    | (.ok (), table) => (.ok id, { r with classes := r.classes.push c, table := table })

/-- Registers a class under its name and answers its number. -/
def insert (r : Registry) (c : Class) : Except Fault ClassId × Registry :=
  if r.frozen then (.error .frozen, r)
  else if (r.lookup? c.name).isSome then (.error (.duplicateClass c.name), r)
  else
    match r.table.makeRoom with
    | (.error .mapperCrashed, table) =>
      (.error .mapperCrashed, { r with table := table, frozen := true })
    | (.error fault, table) => (.error fault, { r with table := table })
    | (.ok (), table) => store { r with table := table } c

/-- The slots of the table, none if it can no longer be trusted. -/
def capacity (r : Registry) : Nat :=
  if r.frozen then 0 else r.table.slots

/-- The classes and their numbers, in the order they were registered. -/
def toList (r : Registry) : List (ClassId × Class) :=
  r.classes.toList.zipIdx.map fun (c, i) => (UInt32.ofNat i, c)

def stats (r : Registry) : Except Fault RegistryStats :=
  if r.frozen then .error .frozen
  else
    let probes := r.table.probes
    .ok ⟨r.table.slots, r.table.occupied, r.table.arena.committed, probes.max, probes.mean⟩

/-- The registry as shown to a programmer. -/
def describe (r : Registry) : String :=
  let slots := r.capacity
  let classes := r.size
  s!"ClassRegistry \x7b classes: {classes}, slots: {slots} \x7d"

/-- Hands the memory of the table back, and answers all that has passed with the mapper. -/
def release (r : Registry) : History :=
  r.table.arena.release

end Registry

end ClassLoading
