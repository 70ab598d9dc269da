import ClassLoading.Bytes.Varint
import ClassLoading.Class.Basic
import ClassLoading.Class.Header

/-!
# Class files

The bytes of a class: the header, then the constants, the fields and the methods, each list behind
its count. Counts are variable-length, the lengths of texts and bodies take four bytes, and both
keep the low 32 bits.
-/

namespace ClassLoading

/-- A list behind its count. -/
def encodeCounted {α : Type} (item : α → List UInt8) (items : List α) : List UInt8 :=
  Varint.encode (UInt32.ofNat items.length) ++ items.flatMap item

/-- Bytes behind their four-byte length. -/
def encodeSized (bytes : List UInt8) : List UInt8 :=
  LittleEndian.encode 4 bytes.length ++ bytes

def encodeIndex (index : UInt16) : List UInt8 :=
  LittleEndian.encode 2 index.toNat

def Constant.encodeValue : Constant → List UInt8
  | signed value => LittleEndian.encode 8 value.toUInt64.toNat
  | unsigned value => LittleEndian.encode 8 value.toNat
  | float bits => LittleEndian.encode 8 bits.toNat
  | text value => encodeSized (Utf8.encode value.toList)

def Constant.encode (constant : Constant) : List UInt8 :=
  UInt8.ofNat constant.kind.tag :: constant.encodeValue

def TypeRef.encode (type : TypeRef) : List UInt8 :=
  encodeCounted encodeIndex type.tags

def Field.encode (field : Field) : List UInt8 :=
  field.access.bits :: encodeIndex field.name ++ field.type.encode

def Method.encode (method : Method) : List UInt8 :=
  method.access.bits :: UInt8.ofNat method.call.code :: encodeIndex method.name ++
    method.args.encode ++ encodeSized method.body

def encodeParts (header : Header) (constants : List Constant) (fields : List Field)
    (methods : List Method) : List UInt8 :=
  header.encode ++ encodeCounted Constant.encode constants ++ encodeCounted Field.encode fields ++
    encodeCounted Method.encode methods

end ClassLoading
