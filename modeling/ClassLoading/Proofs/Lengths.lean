import ClassLoading.Proofs.WriterRuns

/-!
# Counts and lengths of class files

A class file tells the number of its constants, of its fields and methods and of the tags of each,
and the lengths of its texts and bodies, in 32 bits (`Tally`). Those of the constants, of the bodies
and of all texts but one are true, since the calls that add them turn away what does not fit. No call
counts the records and the tags, and the name of a class is taken as it comes: they are told modulo
two to the thirty-second, so truly just where they are fewer (`Writer.tallies_after`).
-/

namespace ClassLoading

/-- What the counts and lengths of a class file are of. -/
inductive TallyKind where
  | constants | fields | methods | tags | text | body
  deriving DecidableEq

/-- A count or length of a class file and the true number. -/
structure Tally where
  kind : TallyKind
  number : Nat
  deriving DecidableEq

namespace Tally

def encode (tally : Tally) : List UInt8 :=
  match tally.kind with
  | .text | .body => LittleEndian.encode 4 tally.number
  | .constants | .fields | .methods | .tags => Varint.encode (UInt32.ofNat tally.number)

/-- How a decoder reads a count or length. -/
def reader : TallyKind → Reader Nat
  | .text | .body => Reader.number 4
  | .constants | .fields | .methods | .tags => Reader.count

/-- What is written for a number is read as `n`, whatever follows it. -/
def Reads (tally : Tally) (n : Nat) : Prop :=
  ∀ pos rest, reader tally.kind ⟨pos, tally.encode ++ rest⟩
    = .ok n ⟨pos + tally.encode.length, rest⟩

end Tally

/-- A piece of a class file: a count or length, or bytes that are none. -/
inductive Part where
  | tally (tally : Tally)
  | plain (bytes : List UInt8)

namespace Part

def encode : Part → List UInt8
  | .tally t => t.encode
  | .plain bytes => bytes

def tally? : Part → Option Tally
  | .tally t => some t
  | .plain _ => none

end Part

def Constant.parts : Constant → List Part
  | .text value =>
    [.plain [3], .tally ⟨.text, value.utf8ByteSize⟩, .plain (Utf8.encode value.toList)]
  | constant => [.plain constant.encode]

def TypeRef.parts (type : TypeRef) : List Part :=
  [.tally ⟨.tags, type.tags.length⟩, .plain (type.tags.flatMap encodeIndex)]

def Field.parts (field : Field) : List Part :=
  .plain (field.access.bits :: encodeIndex field.name) :: field.type.parts

def Method.parts (method : Method) : List Part :=
  .plain (method.access.bits :: UInt8.ofNat method.call.code :: encodeIndex method.name)
    :: method.args.parts ++ [.tally ⟨.body, method.body.length⟩, .plain method.body]

namespace Writer

/-- The class file piece by piece. -/
def parts (w : Writer) : List Part :=
  .plain w.header.encode
    :: .tally ⟨.constants, w.constants.size⟩ :: w.constants.toList.flatMap Constant.parts
    ++ .tally ⟨.fields, w.fields.size⟩ :: w.fields.toList.flatMap Field.parts
    ++ .tally ⟨.methods, w.methods.size⟩ :: w.methods.toList.flatMap Method.parts

/-- All counts and lengths of the class file, in order. -/
def tallies (w : Writer) : List Tally :=
  w.parts.filterMap Part.tally?

end Writer

/-- A text too long to be added, unless it is the name of the class and there already. -/
def TooLong (name : String) (value : String) : Prop :=
  2 ^ 32 ≤ value.utf8ByteSize ∧ value ≠ name

/-- A call that would add a text or a body too long for its length. -/
def WriterCall.Oversized (name : String) : WriterCall → Prop
  | .version _ => False
  | .constant added => ¬ added.Fits
  | .text value => TooLong name value
  | .field written => ∃ value ∈ written.name :: written.types, TooLong name value
  | .method written => 2 ^ 32 ≤ written.body.length
      ∨ ∃ value ∈ written.name :: written.args, TooLong name value

section Tallies

namespace Tally

variable {tally : Tally} {n n' : Nat}

theorem Reads.unique (h : tally.Reads n) (h' : tally.Reads n') : n = n' := by
  have heq := (h 0 []).symm.trans (h' 0 [])
  simp only [EStateM.Result.ok.injEq, and_true] at heq
  exact heq

theorem count_reads_mod (n pos : Nat) (rest : List UInt8) :
    Reader.count ⟨pos, Varint.encode (UInt32.ofNat n) ++ rest⟩
      = .ok (n % 2 ^ 32) ⟨pos + (Varint.encode (UInt32.ofNat n)).length, rest⟩ := by
  have hmod : UInt32.ofNat n = UInt32.ofNat (n % 2 ^ 32) := by
    rw [← UInt32.toNat_inj, UInt32.toNat_ofNat', UInt32.toNat_ofNat', Nat.mod_mod]
  rw [hmod]
  exact Reader.count_reads.at (encode_count (Nat.mod_lt n (by decide))) pos rest

theorem number_reads_mod (n pos : Nat) (rest : List UInt8) :
    Reader.number 4 ⟨pos, LittleEndian.encode 4 n ++ rest⟩
      = .ok (n % 2 ^ 32) ⟨pos + (LittleEndian.encode 4 n).length, rest⟩ := by
  rw [← LittleEndian.encode_mod 4 n]
  exact (Reader.number_reads 4).at (LittleEndian.encode_number (Nat.mod_lt n (by decide))) pos rest

/-- A number is told modulo two to the thirty-second. -/
theorem reads_mod (tally : Tally) : tally.Reads (tally.number % 2 ^ 32) := by
  rcases tally with ⟨_ | _ | _ | _ | _ | _, n⟩
  · exact count_reads_mod n
  · exact count_reads_mod n
  · exact count_reads_mod n
  · exact count_reads_mod n
  · exact number_reads_mod n
  · exact number_reads_mod n

theorem reads_number_iff : tally.Reads tally.number ↔ tally.number < 2 ^ 32 := by
  constructor
  · intro h
    rw [h.unique tally.reads_mod]
    exact Nat.mod_lt _ (by decide)
  · intro h
    have hreads := tally.reads_mod
    rwa [Nat.mod_eq_of_lt h] at hreads

end Tally

end Tallies

section Parts

theorem Constant.encode_parts (constant : Constant) :
    constant.parts.flatMap Part.encode = constant.encode := by
  cases constant <;> simp [Constant.parts, Part.encode, Tally.encode, Constant.encode,
    Constant.encodeValue, encodeSized, length_encode_toList, Constant.kind, ConstantKind.tag]

theorem TypeRef.encode_parts (type : TypeRef) : type.parts.flatMap Part.encode = type.encode := by
  simp [TypeRef.parts, Part.encode, Tally.encode, TypeRef.encode, encodeCounted]

theorem Field.encode_parts (field : Field) : field.parts.flatMap Part.encode = field.encode := by
  simp [Field.parts, Part.encode, TypeRef.encode_parts, Field.encode]

theorem Method.encode_parts (method : Method) :
    method.parts.flatMap Part.encode = method.encode := by
  simp [Method.parts, Part.encode, Tally.encode, TypeRef.encode_parts, Method.encode, encodeSized]

theorem Writer.encode_parts (w : Writer) : w.parts.flatMap Part.encode = w.build := by
  simp [Writer.parts, Part.encode, Tally.encode, Writer.build, encodeParts, encodeCounted,
    List.flatMap_assoc, Constant.encode_parts, Field.encode_parts, Method.encode_parts]

theorem Constant.mem_tallies_iff {constant : Constant} {tally : Tally} :
    tally ∈ constant.parts.filterMap Part.tally?
      ↔ ∃ value, constant = .text value ∧ tally = ⟨.text, value.utf8ByteSize⟩ := by
  cases constant <;> simp [Constant.parts, Part.tally?, eq_comm]

theorem Field.mem_tallies_iff {field : Field} {tally : Tally} :
    tally ∈ field.parts.filterMap Part.tally? ↔ tally = ⟨.tags, field.type.tags.length⟩ := by
  simp [Field.parts, TypeRef.parts, Part.tally?, eq_comm]

theorem Method.mem_tallies_iff {method : Method} {tally : Tally} :
    tally ∈ method.parts.filterMap Part.tally?
      ↔ tally = ⟨.tags, method.args.tags.length⟩ ∨ tally = ⟨.body, method.body.length⟩ := by
  simp [Method.parts, TypeRef.parts, Part.tally?, eq_comm]

theorem Writer.mem_tallies_iff {w : Writer} {tally : Tally} :
    tally ∈ w.tallies ↔ tally = ⟨.constants, w.constants.size⟩
      ∨ (∃ value, .text value ∈ w.constants ∧ tally = ⟨.text, value.utf8ByteSize⟩)
      ∨ tally = ⟨.fields, w.fields.size⟩
      ∨ (∃ field ∈ w.fields, tally = ⟨.tags, field.type.tags.length⟩)
      ∨ tally = ⟨.methods, w.methods.size⟩
      ∨ ∃ method ∈ w.methods, tally = ⟨.tags, method.args.tags.length⟩
          ∨ tally = ⟨.body, method.body.length⟩ := by
  have hplain : ∀ bytes, (Part.plain bytes).tally? = none := fun _ => rfl
  have htally : ∀ t, (Part.tally t).tally? = some t := fun _ => rfl
  simp only [Writer.tallies, Writer.parts, List.cons_append, List.filterMap_cons, hplain, htally,
    List.filterMap_append, List.filterMap_flatMap, List.mem_cons, List.mem_append,
    List.mem_flatMap, Array.mem_toList_iff, Constant.mem_tallies_iff, Field.mem_tallies_iff,
    Method.mem_tallies_iff]
  have htexts : (∃ constant ∈ w.constants, ∃ value, constant = .text value
        ∧ tally = ⟨.text, value.utf8ByteSize⟩)
      ↔ ∃ value, .text value ∈ w.constants ∧ tally = ⟨.text, value.utf8ByteSize⟩ := by
    simp only [← exists_and_left]
    rw [exists_comm]
    simp
  rw [htexts]
  simp only [or_assoc]

end Parts

namespace Writer

variable {o : WriterOpening} {told : Told} {name? : Option String} {w : Writer}

section Numbers

/-- A number that may be too large is one that no call checks. -/
theorem Gathered.tally_cases (h : Gathered o told w) {tally : Tally} (htally : tally ∈ w.tallies) :
    tally.number < 2 ^ 32 ∨ tally = ⟨.text, o.name.utf8ByteSize⟩
      ∨ tally.kind ∈ [.fields, .methods, .tags] := by
  rcases mem_tallies_iff.1 htally with rfl | ⟨value, hmem, rfl⟩ | rfl | ⟨field, -, rfl⟩ | rfl |
    ⟨method, hmem, rfl | rfl⟩
  · exact .inl (Nat.lt_of_le_of_lt h.sound.room (by decide))
  · obtain ⟨i, hi⟩ := Array.mem_iff_getElem?.1 hmem
    rcases h.sound.fits_or_name hi with hfits | hname
    · exact .inl hfits
    · rw [Constant.text.inj hname]
      exact .inr (.inl rfl)
  · exact .inr (.inr (by simp))
  · exact .inr (.inr (by simp))
  · exact .inr (.inr (by simp))
  · exact .inr (.inr (by simp))
  · obtain ⟨written, hwritten, hspells⟩ :=
      exists_of_forall₂ h.methods method (Array.mem_toList_iff.2 hmem)
    rw [hspells.body]
    exact .inl (h.sized written hwritten)

theorem Gathered.tallies_lt_iff (h : Gathered o told w) :
    (∀ tally ∈ w.tallies, tally.number < 2 ^ 32)
      ↔ o.name.utf8ByteSize < 2 ^ 32 ∧ told.Countable := by
  constructor
  · intro hlt
    refine ⟨?_, ?_, ?_, fun written hwritten => ?_, fun written hwritten => ?_⟩
    · rcases h.sound.first with ⟨-, hname⟩ | hfirst
      · rw [WriterOpening.name, hname]
        decide
      · exact hlt _ (mem_tallies_iff.2 (.inr (.inl ⟨_, Array.mem_of_getElem? hfirst, rfl⟩)))
    · rw [← h.size_fields]
      exact hlt ⟨.fields, _⟩ (mem_tallies_iff.2 (by simp))
    · rw [← h.size_methods]
      exact hlt ⟨.methods, _⟩ (mem_tallies_iff.2 (by simp))
    · obtain ⟨field, hfield, hspells⟩ := exists_of_forall₂ h.fields.flip written hwritten
      rw [← length_tags_of_spells hspells.types]
      exact hlt ⟨.tags, _⟩ (mem_tallies_iff.2 (.inr (.inr (.inr (.inl
        ⟨field, Array.mem_toList_iff.1 hfield, rfl⟩)))))
    · obtain ⟨method, hmethod, hspells⟩ := exists_of_forall₂ h.methods.flip written hwritten
      rw [← length_tags_of_spells hspells.args]
      exact hlt ⟨.tags, _⟩ (mem_tallies_iff.2 (.inr (.inr (.inr (.inr (.inr
        ⟨method, Array.mem_toList_iff.1 hmethod, .inl rfl⟩))))))
  · rintro ⟨hname, hcount⟩ tally htally
    have hfits := h.fits hcount hname
    rcases mem_tallies_iff.1 htally with rfl | ⟨value, hmem, rfl⟩ | rfl | ⟨field, hmem, rfl⟩ |
      rfl | ⟨method, hmem, rfl | rfl⟩
    · exact hfits.constants_lt
    · exact hfits.constants _ hmem
    · exact hfits.fields_lt
    · exact (hfits.fields field hmem).type.length_lt
    · exact hfits.methods_lt
    · exact (hfits.methods method hmem).args.length_lt
    · exact (hfits.methods method hmem).body

end Numbers

section Refusals

theorem constant_oversized (w : Writer) {constant : Constant} (h : ¬ constant.Fits) :
    ∃ fault, (w.constant constant).1 = .error fault := by
  unfold Writer.constant
  simp only
  split
  · exact ⟨_, rfl⟩
  · next hnone => exact absurd (constantFault?_eq_none_iff.1 hnone).2 h

theorem text_oversized (hsound : w.Sound name?) (value : String)
    (h : TooLong (name?.getD "") value) : ∃ fault, (w.text value).1 = .error fault := by
  have hfit : ¬ (Constant.text value).Fits := Nat.not_lt.2 h.1
  rcases hvalue : w.interned[value]? with _ | index
  · obtain ⟨fault, hfault⟩ := w.constant_oversized hfit
    unfold Writer.text
    rw [hvalue]
    rcases heq : w.constant (.text value) with ⟨_ | index, w'⟩ <;> rw [heq] at hfault
    · exact ⟨_, rfl⟩
    · cases hfault
  · rcases hsound.fits_or_name (hsound.interned hvalue) with hfits | hname
    · exact absurd hfits hfit
    · exact absurd (Constant.text.inj hname) h.2

theorem texts_oversized : ∀ {w : Writer} (_ : w.Sound name?) {values : List String},
    (∃ value ∈ values, TooLong (name?.getD "") value) →
      ∃ fault, (w.texts values).1 = .error fault
  | w, _, [], h => by simp at h
  | w, hsound, value :: rest, h => by
    obtain ⟨hsound', -, -⟩ := text_spec hsound value
    have hvalue := text_oversized hsound value
    rw [Writer.texts]
    rcases heq : w.text value with ⟨_ | index, w₁⟩ <;> rw [heq] at hsound' hvalue
    · exact ⟨_, rfl⟩
    · have hrest := ((List.exists_mem_cons_iff _ _ _).1 h).resolve_left fun hlong => by
        simpa using hvalue hlong
      obtain ⟨fault, hfault⟩ := texts_oversized hsound' hrest
      simp only
      rcases heq' : w₁.texts rest with ⟨_ | indices, w₂⟩ <;> rw [heq'] at hfault
      · exact ⟨_, rfl⟩
      · cases hfault

theorem member_oversized (hsound : w.Sound name?) {name : String} {types : List String}
    (h : ∃ value ∈ name :: types, TooLong (name?.getD "") value) :
    ∃ fault, (w.member name types).1 = .error fault := by
  obtain ⟨fault, hfault⟩ := texts_oversized hsound h
  rw [member_eq, hfault]
  exact ⟨fault, rfl⟩

theorem call_oversized (hsound : w.Sound name?) {c : WriterCall}
    (h : c.Oversized (name?.getD "")) : ∃ fault, (w.call c).1 = .failed fault := by
  rcases c with version | constant | value | ⟨access, name, types⟩ |
    ⟨access, dispatch, name, args, body⟩
  · exact h.elim
  · obtain ⟨fault, hfault⟩ := w.constant_oversized h
    exact ⟨fault, congrArg WriterAnswer.ofIndex hfault⟩
  · obtain ⟨fault, hfault⟩ := text_oversized hsound value h
    exact ⟨fault, congrArg WriterAnswer.ofIndex hfault⟩
  · obtain ⟨fault, hfault⟩ := member_oversized hsound h
    unfold Writer.call Writer.field
    simp only
    split_ifs
    · exact ⟨_, rfl⟩
    · rcases heq : w.member name types with ⟨_ | ⟨index, tags⟩, w'⟩ <;> rw [heq] at hfault
      · exact ⟨_, rfl⟩
      · cases hfault
  · unfold Writer.call Writer.method
    simp only
    split_ifs with hlong
    · exact ⟨_, rfl⟩
    · obtain ⟨fault, hfault⟩ := member_oversized hsound (h.resolve_left hlong)
      rcases heq : w.member name args with ⟨_ | ⟨index, tags⟩, w'⟩ <;> rw [heq] at hfault
      · exact ⟨_, rfl⟩
      · cases hfault

end Refusals

/-- After any calls each count and length of the class file is told modulo two to the thirty-second.
All of them are true just where the name of the class and the numbers of records and of tags fit;
no call checks these, and one that adds any other text or a body too long for its length fails. -/
theorem tallies_after (o : WriterOpening) (calls : List WriterCall) :
    let w := (o.writer.run calls).2
    w.parts.flatMap Part.encode = w.build
    ∧ (∀ tally ∈ w.tallies, tally.Reads (tally.number % 2 ^ 32))
    ∧ ((∀ tally ∈ w.tallies, tally.Reads tally.number)
      ↔ o.name.utf8ByteSize < 2 ^ 32 ∧ (o.writer.run calls).1.told.Countable)
    ∧ (∀ tally ∈ w.tallies, tally.Reads tally.number ∨ tally = ⟨.text, o.name.utf8ByteSize⟩
      ∨ tally.kind ∈ [.fields, .methods, .tags])
    ∧ ∀ c : WriterCall, c.Oversized o.name → ∃ fault, (w.call c).1 = .failed fault := by
  intro w
  have h := (gathered_writer o).run calls
  refine ⟨w.encode_parts, fun tally _ => tally.reads_mod, ?_, fun tally htally => ?_,
    fun c => call_oversized h.sound⟩
  · simp only [Tally.reads_number_iff]
    exact h.tallies_lt_iff
  · rw [Tally.reads_number_iff]
    exact h.tally_cases htally

section LongTexts

/-- The counts and lengths of a small class are true, and a text that would not fit is turned
away. -/
theorem tallies_after_counter :
    let w := (counter.writer.run counterCalls).2
    (∀ tally ∈ w.tallies, tally.Reads tally.number)
      ∧ ∃ fault, (w.call (.text (letters (2 ^ 32)))).1 = .failed fault := by
  intro w
  obtain ⟨-, -, htrue, -, hfail⟩ := tallies_after counter counterCalls
  have hname : counter.name.utf8ByteSize = 7 := by decide
  refine ⟨htrue.2 ⟨by omega, countable_counter⟩,
    hfail _ ⟨(utf8ByteSize_letters (2 ^ 32)).ge, fun heq => ?_⟩⟩
  have hsize := utf8ByteSize_letters (2 ^ 32)
  rw [heq] at hsize
  omega

theorem name_lost {name : String} (h : name.utf8ByteSize = 2 ^ 32) (kind : ClassKind)
    (access : Access) : ∃ tally ∈ (named name kind access).tallies,
      tally.kind = .text ∧ tally.number = 2 ^ 32 ∧ tally.Reads 0 := by
  have hmem : (⟨.text, name.utf8ByteSize⟩ : Tally) ∈ (named name kind access).tallies :=
    mem_tallies_iff.2 (.inr (.inl ⟨name, by simp [named], rfl⟩))
  have hreads := Tally.reads_mod ⟨.text, name.utf8ByteSize⟩
  rw [h] at hmem hreads
  exact ⟨_, hmem, rfl, rfl, by simpa using hreads⟩

/-- The name of a class that takes two to the thirty-second bytes is told to take none. -/
theorem long_name_lost :
    ∃ tally ∈ ((⟨some (letters (2 ^ 32)), .struct, .pub⟩ : WriterOpening).writer.run []).2.tallies,
      tally.kind = .text ∧ tally.number = 2 ^ 32 ∧ tally.Reads 0 :=
  name_lost (utf8ByteSize_letters (2 ^ 32)) .struct .pub

end LongTexts

end Writer

end ClassLoading
