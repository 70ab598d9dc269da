import ClassLoading.Registry.Basic

/-!
# Loaders

A loader decodes class files and registers the classes in them. Several files at once come out as
they would one after the other. Types are resolved by name when they are asked for, so a name that
is still unknown is resolved once a class of that name has been loaded.
-/

namespace ClassLoading

structure Loader where
  config : LoaderConfig
  registry : Registry

/-- What a tag of a type stands for. -/
inductive Resolved where
  | found (id : ClassId)
  | unresolved (name : String)
  | notAName (tag : UInt16)
  deriving DecidableEq

namespace Loader

def new (mapper : Mapper) (config : LoaderConfig) : Except Refusal Loader :=
  match Registry.new mapper config.sizing with
  | .error refusal => .error refusal
  | .ok registry => .ok ⟨config, registry⟩

/-- Decodes a class file and registers nothing. -/
def decode (l : Loader) (bytes : List UInt8) : Except Fault Class :=
  Class.decode bytes l.config.limits

/-- Registers a class. -/
def register (l : Loader) (c : Class) : Except Fault ClassId × Loader :=
  match l.registry.insert c with
  | (result, registry) => (result, { l with registry := registry })

/-- Registers what was decoded. -/
def enroll (l : Loader) : Except Fault Class → Except Fault ClassId × Loader
  | .error fault => (.error fault, l)
  | .ok c => l.register c

def load (l : Loader) (bytes : List UInt8) : Except Fault ClassId × Loader :=
  l.enroll (l.decode bytes)

/-- Loads the contents of a file, unless it could not be read. -/
def loadFile (l : Loader) : Option (List UInt8) → Except Fault ClassId × Loader
  | none => (.error .unreadableFile, l)
  | some bytes => l.load bytes

/-- Registers what was decoded, in order. -/
def enrollAll (l : Loader) : List (Except Fault Class) → List (Except Fault ClassId) × Loader
  | [] => ([], l)
  | decoded :: rest =>
    match l.enroll decoded with
    | (result, l) =>
      match l.enrollAll rest with
      | (results, l) => (result :: results, l)

/-- Decodes all files and then registers the classes. -/
def loadAll (l : Loader) (files : List (List UInt8)) : List (Except Fault ClassId) × Loader :=
  l.enrollAll (files.map l.decode)

def resolveTag (l : Loader) (pool : Pool) (tag : UInt16) : Resolved :=
  match pool.text? tag.toNat with
  | none => .notAName tag
  | some name =>
    match l.registry.find? name with
    | some id => .found id
    | none => .unresolved name

/-- The classes that a type names in a pool, tag by tag. -/
def resolve (l : Loader) (type : TypeRef) (pool : Pool) : List Resolved :=
  type.tags.map (l.resolveTag pool)

end Loader

/-- The limits as shown to a programmer. -/
def Limits.describe (limits : Limits) : String :=
  let ⟨constants, fields, methods⟩ := limits
  s!"DecodeLimits \x7b max_constants: {constants}, max_fields: {fields}, " ++
    s!"max_methods: {methods} \x7d"

/-- The sizing as shown to a programmer. -/
def Sizing.describe (sizing : Sizing) : String :=
  let ⟨initial, max, load⟩ := sizing
  s!"RegistryConfig \x7b initial_slots: {initial}, max_slots: {max}, " ++
    s!"load_factor_percent: {load} \x7d"

/-- The loader as shown to a programmer. -/
def Loader.describe (l : Loader) : String :=
  "ClassLoader \x7b config: LoaderConfig \x7b limits: " ++ l.config.limits.describe ++
    ", registry: " ++ l.config.sizing.describe ++ " \x7d, registry: " ++ l.registry.describe ++
    " \x7d"

end ClassLoading
