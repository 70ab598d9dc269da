import ClassLoading.Class.Constant
import ClassLoading.Text.Hex
import ClassLoading.Text.Utf8

/-!
# Faults

Everything that can go wrong, one case for each cause, with the data that describe it. The wording
is in the three `message` functions alone, so that all else tells faults apart by their cause.
-/

namespace ClassLoading

/-- The rules a sizing of the slot table can break. -/
inductive SizingFault where
  | initialNotPowerOfTwo (slots : Nat)
  | maxNotPowerOfTwo (slots : Nat)
  | initialExceedsMax (initial max : Nat)
  | maxTooLarge (slots : Nat)
  | loadOutOfRange (percent : Nat)
  deriving DecidableEq

def SizingFault.message : SizingFault → String
  | .initialNotPowerOfTwo slots => s!"initial_slots must be a power of two, got {slots}"
  | .maxNotPowerOfTwo slots => s!"max_slots must be a power of two, got {slots}"
  | .initialExceedsMax initial max => s!"initial_slots ({initial}) exceeds max_slots ({max})"
  | .maxTooLarge slots => s!"max_slots ({slots}) exceeds the 2^31 slot limit"
  | .loadOutOfRange percent => s!"load_factor_percent must be within 1..=95, got {percent}"

/-- Why no usable range of addresses could be reserved. -/
inductive ReservationFault where
  | unroundable (page : Nat)
  | empty
  | short (length : Nat)
  | misaligned
  | refused (reason : String)
  deriving DecidableEq

def ReservationFault.message : ReservationFault → String
  | .unroundable page => s!"size does not round to {page} byte pages"
  | .empty => "cannot reserve an empty range"
  | .short length => s!"mapper returned only {length} bytes"
  | .misaligned => "reservation is not aligned for slot words"
  | .refused reason => reason

inductive Fault where
  /- Reading class files -/
  | truncated (offset needed available : Nat)
  | badMagic (found : List UInt8)
  | unsupportedVersion (found : UInt8)
  | badAccess (header : UInt8)
  | unknownConstantTag (tag : UInt8) (index : Nat)
  | constantOutOfRange (index size : Nat)
  | constantMismatch (index : Nat) (found : ConstantKind)
  | poolTooLarge (count max : Nat)
  | tooManyFields (count max : Nat)
  | tooManyMethods (count max : Nat)
  | unknownCall (kind : UInt8)
  | varintOverflow (start : Nat)
  | varintTooLong (start : Nat)
  | invalidText (index start : Nat) (fault : Utf8.Fault)
  | trailingBytes (count offset : Nat)
  | untypedField (offset : Nat)
  | undefinedAccess (bits : UInt8) (offset : Nat)
  /- Writing class files -/
  | fieldWithoutType (name : String)
  | oversizedText (bytes : Nat)
  | oversizedBody (bytes : Nat)
  /- Registering classes -/
  | duplicateClass (name : String)
  | registryFull (slots : Nat)
  | frozen
  | invalidSizing (fault : SizingFault)
  /- Memory and files -/
  | reservationFailed (size : Nat) (fault : ReservationFault)
  | commitFailed (size offset : Nat) (reason : String)
  | reservationExhausted (requested reserved : Nat)
  /-- The mapper broke down during a commit instead of answering. -/
  | mapperCrashed
  | unreadableFile
  deriving DecidableEq

def Fault.message : Fault → String
  | .truncated offset needed available =>
    s!"Truncated input at offset {offset}: needed {needed} bytes, {available} available"
  | .badMagic found =>
    "Bad class file magic - [" ++ ", ".intercalate (found.map Hex.upperByte) ++ "]"
  | .unsupportedVersion found => s!"Unsupported class file version {found}, minimum is 1"
  | .badAccess header => "Invalid class access in header byte 0x" ++ Hex.upperByte header
  | .unknownConstantTag tag index => s!"Unknown constant tag {tag} at entry {index}"
  | .constantOutOfRange index size =>
    s!"Constant index {index} out of range, pool has {size} entries"
  | .constantMismatch index found => s!"Constant {index} is a " ++ found.name ++ ", expected utf8"
  | .poolTooLarge count max => s!"Constant pool declares {count} entries, maximum is {max}"
  | .tooManyFields count max => s!"Class declares {count} fields, maximum is {max}"
  | .tooManyMethods count max => s!"Class declares {count} methods, maximum is {max}"
  | .unknownCall kind => s!"Unknown method call kind {kind}"
  | .varintOverflow start => s!"Varint at offset {start} overflows 32 bits"
  | .varintTooLong start => s!"Varint at offset {start} is longer than 5 bytes"
  | .invalidText index start fault =>
    s!"Invalid UTF-8 string constant {index} at offset {start}: " ++ fault.message
  | .trailingBytes count offset =>
    s!"{count} trailing bytes after the last method at offset {offset}"
  | .untypedField offset => s!"Field type at offset {offset} has no tags"
  | .undefinedAccess bits offset =>
    "Member access 0x" ++ Hex.upperByte bits ++ s!" at offset {offset} has undefined bits"
  | .fieldWithoutType name => s!"Field '{name}' needs at least one type"
  | .oversizedText bytes => s!"String constant of {bytes} bytes does not fit a u32 length"
  | .oversizedBody bytes => s!"Method body of {bytes} bytes does not fit a u32 length"
  | .duplicateClass name => s!"Class '{name}' is already registered"
  | .registryFull slots => s!"Class registry is full ({slots} slots)"
  | .frozen => "Failed to lock target"
  | .invalidSizing fault => "Invalid configuration - " ++ fault.message
  | .reservationFailed size fault =>
    s!"Failed to reserve {size} bytes of address space - " ++ fault.message
  | .commitFailed size offset reason =>
    s!"Failed to commit {size} bytes at offset {offset} - " ++ reason
  | .reservationExhausted requested reserved =>
    s!"Arena growth to {requested} bytes exceeds the {reserved} byte reservation"
  | .mapperCrashed => "The page mapper crashed during a commit"
  | .unreadableFile => "The class file cannot be read"

end ClassLoading
