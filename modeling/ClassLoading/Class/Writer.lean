import Std.Data.HashMap
import ClassLoading.Class.Encoding

/-!
# Writing class files

A writer gathers the parts of a class and encodes them at the end. Texts that it adds on its own
account, for the names of members and types, it adds once and finds again by an index; constants
added by hand are kept as they come. Every call answers a value or a fault together with the writer
after it: a member that fails leaves no record, though the texts it had added by then stay.
-/

namespace ClassLoading

structure Writer where
  version : UInt8
  kind : ClassKind
  access : Access
  constants : Array Constant
  /-- Where the texts that were added once are found again. -/
  interned : Std.HashMap String UInt16
  fields : Array Field
  methods : Array Method

namespace Writer

/-- The most constants a writer takes: as many as a two-byte index can tell apart. -/
def maxConstants : Nat := 65536

/-- A writer for a class without a name. -/
def anonymous (kind : ClassKind) (access : Access) : Writer where
  version := Header.minVersion
  kind := kind
  access := access
  constants := #[]
  interned := ∅
  fields := #[]
  methods := #[]

/-- A writer for a class with a name, which is its first constant. -/
def named (name : String) (kind : ClassKind) (access : Access) : Writer :=
  { anonymous kind access with
    constants := #[.text name]
    interned := (∅ : Std.HashMap String UInt16).insert name 0 }

def setVersion (w : Writer) (version : UInt8) : Writer :=
  { w with version := version }

/-- The first constant names the class, so before any other one an empty name comes first. -/
def nameFirst (w : Writer) : Writer :=
  if w.constants.isEmpty then
    { w with constants := #[.text ""], interned := w.interned.insert "" 0 }
  else w

/-- What keeps a constant out of a pool of `size` constants, if anything does. -/
def constantFault? (size : Nat) (constant : Constant) : Option Fault :=
  if maxConstants ≤ size then some (.poolTooLarge (size + 1) maxConstants)
  else
    match constant with
    | .text value =>
      if 1 <<< 32 ≤ value.utf8ByteSize then some (.oversizedText value.utf8ByteSize) else none
    | _ => none

/-- Adds a constant and answers its index. -/
def constant (w : Writer) (constant : Constant) : Except Fault UInt16 × Writer :=
  let w := w.nameFirst
  match constantFault? w.constants.size constant with
  | some fault => (.error fault, w)
  | none =>
    (.ok (UInt16.ofNat w.constants.size), { w with constants := w.constants.push constant })

/-- The index of a text, which is added unless it is there already. -/
def text (w : Writer) (value : String) : Except Fault UInt16 × Writer :=
  match w.interned[value]? with
  | some index => (.ok index, w)
  | none =>
    match w.constant (.text value) with
    | (.ok index, w) => (.ok index, { w with interned := w.interned.insert value index })
    | (.error fault, w) => (.error fault, w)

/-- The indices of several texts, up to the first that fails. -/
def texts (w : Writer) : List String → Except Fault (List UInt16) × Writer
  | [] => (.ok [], w)
  | value :: rest =>
    match w.text value with
    | (.error fault, w) => (.error fault, w)
    | (.ok index, w) =>
      match w.texts rest with
      | (.error fault, w) => (.error fault, w)
      | (.ok indices, w) => (.ok (index :: indices), w)

/-- The indices of the name of a member and of its types. -/
def member (w : Writer) (name : String) (types : List String) :
    Except Fault (UInt16 × List UInt16) × Writer :=
  match w.text name with
  | (.error fault, w) => (.error fault, w)
  | (.ok index, w) =>
    match w.texts types with
    | (.error fault, w) => (.error fault, w)
    | (.ok tags, w) => (.ok (index, tags), w)

/-- Adds a field; its type takes at least one name. -/
def field (w : Writer) (access : Access) (name : String) (types : List String) :
    Except Fault Unit × Writer :=
  if types.isEmpty then (.error (.fieldWithoutType name), w)
  else
    match w.member name types with
    | (.error fault, w) => (.error fault, w)
    | (.ok (index, tags), w) =>
      (.ok (), { w with fields := w.fields.push ⟨access, index, .ofTags tags⟩ })

/-- Adds a method. -/
def method (w : Writer) (access : Access) (dispatch : CallKind) (name : String)
    (args : List String) (body : List UInt8) : Except Fault Unit × Writer :=
  if 1 <<< 32 ≤ body.length then (.error (.oversizedBody body.length), w)
  else
    match w.member name args with
    | (.error fault, w) => (.error fault, w)
    | (.ok (index, tags), w) =>
      (.ok (), { w with methods := w.methods.push ⟨access, dispatch, index, .ofTags tags, body⟩ })

def header (w : Writer) : Header :=
  ⟨w.version, w.kind, w.access⟩

/-- The class file of the parts gathered so far. -/
def build (w : Writer) : List UInt8 :=
  encodeParts w.header w.constants.toList w.fields.toList w.methods.toList

end Writer

end ClassLoading
