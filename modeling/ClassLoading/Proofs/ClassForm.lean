import ClassLoading.Proofs.Characters
import ClassLoading.Proofs.Forms

/-!
# The form of a class file

Each part of a class file has a form, given here in terms of bytes and of the entries of a pool
alone, and each reader reads just that. So a class file is decoded, where no limit stands against
it, just where it has the form of the class that comes out (`Class.decode_unlimited_iff`).
-/

namespace ClassLoading

open Form Reader

/-- A constant behind its tag. -/
inductive ConstantForm : Form Constant
  | signed {bytes : List UInt8} {value : Int64} :
    Number 8 bytes value.toUInt64.toNat → ConstantForm (0 :: bytes) (.signed value)
  | unsigned {bytes : List UInt8} {value : UInt64} :
    Number 8 bytes value.toNat → ConstantForm (1 :: bytes) (.unsigned value)
  | float {bytes : List UInt8} {bits : UInt64} :
    Number 8 bytes bits.toNat → ConstantForm (2 :: bytes) (.float bits)
  | text {bytes : List UInt8} {value : String} :
    Sized bytes value.toByteArray.data.toList → ConstantForm (3 :: bytes) (.text value)

/-- Only the three bits that have a meaning are set. -/
def Access.Defined (access : Access) : Prop :=
  access.bits.toNat < 8

/-- The index of a text. -/
def NameForm (pool : Pool) : Form UInt16 := fun bytes name =>
  Number 2 bytes name.toNat ∧ ∃ value, pool.entries[name.toNat]? = some (.text value)

/-- The index of any constant. -/
def TagForm (pool : Pool) : Form UInt16 := fun bytes tag =>
  Number 2 bytes tag.toNat ∧ tag.toNat < pool.entries.size

/-- The tags of a reference: a lone one is kept as it is, and all others are kept as a chain. -/
inductive TypeRef.Lists : TypeRef → List UInt16 → Prop
  | single {tag : UInt16} : Lists (.single tag) [tag]
  | chain {tags : List UInt16} : tags.length ≠ 1 → Lists (.chain tags) tags

/-- Access, name and at least one tag. -/
def FieldForm (pool : Pool) : Form Field := fun bytes field =>
  ∃ name tagged tags, bytes = field.access.bits :: (name ++ tagged)
    ∧ field.access.Defined ∧ NameForm pool name field.name
    ∧ Counted (TagForm pool) tagged tags ∧ tags ≠ [] ∧ field.type.Lists tags

/-- Access, call kind, name, tags and the body behind its length. -/
def MethodForm (pool : Pool) : Form Method := fun bytes method =>
  ∃ name tagged tags sized,
    bytes = method.access.bits :: UInt8.ofNat method.call.code :: (name ++ tagged ++ sized)
    ∧ method.access.Defined ∧ NameForm pool name method.name
    ∧ Counted (TagForm pool) tagged tags ∧ method.args.Lists tags ∧ Sized sized method.body

/-- The six bytes of the header: `$GLR`, a version of one or more, and the kind above an access
that is neither empty nor undefined. -/
def HeaderForm : Form Header := fun bytes header =>
  bytes = [0x24, 0x47, 0x4C, 0x52, header.version,
      UInt8.ofNat (64 * header.kind.code + header.access.bits.toNat)]
    ∧ 1 ≤ header.version.toNat ∧ header.access.Defined ∧ header.access.bits ≠ 0

/-- The name of a class is its first constant, and there is none in an empty pool. -/
def Pool.Names (pool : Pool) (name : String) : Prop :=
  (pool.entries = #[] ∧ name = "") ∨ pool.entries[0]? = some (.text name)

/-- A class file, from the first byte to the last. -/
def ClassForm : Form Class := fun bytes c =>
  ∃ header pooled fields methods, bytes = header ++ pooled ++ fields ++ methods
    ∧ HeaderForm header ⟨c.version, c.kind, c.access⟩
    ∧ Counted ConstantForm pooled c.pool.entries.toList ∧ c.pool.Names c.name
    ∧ Counted (FieldForm c.pool) fields c.fields.toList
    ∧ Counted (MethodForm c.pool) methods c.methods.toList

section Access

theorem Access.isDefined_iff {access : Access} : access.isDefined = true ↔ access.Defined := by
  have hb := access.bits.toNat_lt
  unfold Access.isDefined Access.Defined Access.mask
  rw [beq_iff_eq, ← UInt8.toNat_inj, UInt8.toNat_and]
  show access.bits.toNat &&& (2 ^ 3 - 1) = _ ↔ _
  rw [Nat.and_two_pow_sub_one_eq_mod]
  omega

theorem Header.toNat_and_accessMask (b : UInt8) : (b &&& Header.accessMask).toNat = b.toNat % 64 := by
  rw [UInt8.toNat_and]
  exact Nat.and_two_pow_sub_one_eq_mod b.toNat 6

theorem ClassKind.code_lt (kind : ClassKind) : kind.code < 4 := by
  cases kind <;> decide

theorem ClassKind.ofHeader_eq_iff {b : UInt8} {kind : ClassKind} :
    ClassKind.ofHeader b = kind ↔ b.toNat / 64 = kind.code := by
  have hb : b.toNat / 64 < 4 := by
    have := b.toNat_lt
    omega
  unfold ClassKind.ofHeader
  generalize b.toNat / 64 = n at hb
  rcases n with _ | _ | _ | _ | n
  · cases kind <;> simp [ClassKind.code]
  · cases kind <;> simp [ClassKind.code]
  · cases kind <;> simp [ClassKind.code]
  · cases kind <;> simp [ClassKind.code]
  · omega

theorem Header.eq_byte_iff (b : UInt8) (kind : ClassKind) {access : Access}
    (ha : access.bits.toNat < 64) :
    b = UInt8.ofNat (64 * kind.code + access.bits.toNat)
      ↔ ClassKind.ofHeader b = kind ∧ (⟨b &&& Header.accessMask⟩ : Access) = access := by
  have hb := b.toNat_lt
  have hk := ClassKind.code_lt kind
  rcases access with ⟨bits⟩
  rw [ClassKind.ofHeader_eq_iff, Access.mk.injEq, ← UInt8.toNat_inj, ← UInt8.toNat_inj,
    Header.toNat_and_accessMask, UInt8.toNat_ofNat']
  simp only at ha ⊢
  omega

end Access

section Parts

theorem header_reads : Header.read.Reads HeaderForm := by
  unfold Header.read
  refine ((take_reads 4).bind fun found => Reads.require fun _ => byte_reads.bind fun version =>
    Reads.require fun _ => byte_reads.bind fun b => Reads.require fun _ =>
      pure_reads (⟨version, .ofHeader b, ⟨b &&& Header.accessMask⟩⟩ : Header)).congr
        fun bytes header => ?_
  simp only [Bool.and_eq_true, Bool.not_eq_true', Access.isDefined_iff, beq_iff_eq, decide_eq_true_eq,
    Access.isEmpty, beq_eq_false_iff_ne]
  constructor
  · rintro ⟨_, _, y, rfl, ⟨rfl, -⟩, hmagic, version, _, z, rfl, rfl, hversion, b, _, w, rfl, rfl,
      ⟨hdef, hne⟩, rfl, rfl⟩
    have hlow : (b &&& Header.accessMask).toNat < 64 := by
      rw [Header.toNat_and_accessMask]
      exact Nat.mod_lt _ (by decide)
    refine ⟨?_, hversion, hdef, hne⟩
    rw [hmagic, ← (Header.eq_byte_iff b _ hlow).2 ⟨rfl, rfl⟩]
    rfl
  · rcases header with ⟨version, kind, access⟩
    rintro ⟨rfl, hversion, hdef, hne⟩
    obtain ⟨hkind, haccess⟩ := (Header.eq_byte_iff _ kind (Nat.lt_trans hdef (by decide))).1 rfl
    refine ⟨Header.magic, _, _, rfl, ⟨rfl, rfl⟩, rfl, version, [version], _, rfl, rfl, hversion, _,
      [_], [], rfl, rfl, ?_, rfl, ?_⟩
    · rw [haccess]
      exact ⟨hdef, fun h => hne ((congrArg Access.bits haccess).symm.trans h)⟩
    · rw [hkind, haccess]

theorem word_reads (f : UInt64 → Constant) :
    ((fun n => f (UInt64.ofNat n)) <$> number 8).Reads fun bytes c =>
      ∃ word : UInt64, Number 8 bytes word.toNat ∧ c = f word := by
  refine ((number_reads 8).map _).congr fun bytes c => ?_
  constructor
  · rintro ⟨n, hn, rfl⟩
    exact ⟨UInt64.ofNat n, by rwa [UInt64.toNat_ofNat_of_lt' hn.lt], rfl⟩
  · rintro ⟨word, hword, rfl⟩
    exact ⟨word.toNat, hword, by rw [UInt64.ofNat_toNat]⟩

theorem Utf8.encode_toList (value : String) :
    Utf8.encode value.toList = value.toByteArray.data.toList := by
  rw [← String.utf8Encode_toList]
  simp [Utf8.encode, List.utf8Encode]

theorem text_reads (position : Nat) :
    (do
      let start ← Reader.position
      let bytes ← sized
      match Utf8.decode bytes with
      | .ok chars => return Constant.text (String.ofList chars)
      | .error fault => throw (.invalidText position start fault) : Reader Constant).Reads
    fun bytes c => ∃ value : String, Sized bytes value.toByteArray.data.toList
      ∧ c = .text value := by
  refine (Reads.position fun start => sized_reads.bind (G := fun text bytes c =>
    bytes = [] ∧ ∃ chars, Utf8.decode text = .ok chars ∧ c = Constant.text (String.ofList chars))
      fun text => ?_).congr fun bytes c => ?_
  · split
    · next chars h =>
      exact (pure_reads _).congr fun bytes c => by simp [h]
    · next fault h =>
      exact (throw_reads _).congr fun bytes c => by simp [h]
  · simp only [Utf8.decode_eq_ok_iff, ← Utf8.encode_toList]
    constructor
    · rintro ⟨_, x, _, rfl, hx, rfl, chars, rfl, rfl⟩
      refine ⟨String.ofList chars, ?_, rfl⟩
      rwa [List.append_nil, String.toList_ofList]
    · rintro ⟨value, hvalue, rfl⟩
      exact ⟨_, bytes, [], (List.append_nil _).symm, hvalue, rfl, value.toList, rfl,
        by rw [String.ofList_toList]⟩

theorem constant_reads (position : Nat) : (Constant.read position).Reads ConstantForm := by
  unfold Constant.read
  refine (byte_reads.bind (G := fun tag bytes c => ConstantForm (tag :: bytes) c)
    fun tag => ?_).congr fun bytes c => ?_
  · have htag : ∀ {n : Nat}, tag.toNat = n → tag = UInt8.ofNat n := fun h => by
      rw [← h, UInt8.ofNat_toNat]
    split
    · next h =>
      refine (word_reads fun word => .signed word.toInt64).congr fun bytes c => ?_
      rw [htag h]
      constructor
      · rintro ⟨word, hword, rfl⟩
        exact .signed hword
      · rintro (hword | _ | _ | _)
        exact ⟨_, hword, rfl⟩
    · next h =>
      refine (word_reads .unsigned).congr fun bytes c => ?_
      rw [htag h]
      constructor
      · rintro ⟨word, hword, rfl⟩
        exact .unsigned hword
      · rintro (_ | hword | _ | _)
        exact ⟨_, hword, rfl⟩
    · next h =>
      refine (word_reads .float).congr fun bytes c => ?_
      rw [htag h]
      constructor
      · rintro ⟨word, hword, rfl⟩
        exact .float hword
      · rintro (_ | _ | hword | _)
        exact ⟨_, hword, rfl⟩
    · next h =>
      refine (text_reads position).congr fun bytes c => ?_
      rw [htag h]
      constructor
      · rintro ⟨value, hvalue, rfl⟩
        exact .text hvalue
      · rintro (_ | _ | _ | hvalue)
        exact ⟨_, hvalue, rfl⟩
    · next h0 h1 h2 h3 =>
      refine (throw_reads _).congr fun bytes c => ?_
      rw [false_iff]
      rintro (_ | _ | _ | _)
      · exact h0 rfl
      · exact h1 rfl
      · exact h2 rfl
      · exact h3 rfl
  · constructor
    · rintro ⟨tag, _, y, rfl, rfl, h⟩
      exact h
    · intro h
      have hcons : ∃ tag y, bytes = tag :: y := by
        cases h <;> exact ⟨_, _, rfl⟩
      obtain ⟨tag, y, rfl⟩ := hcons
      exact ⟨tag, [tag], y, rfl, rfl, h⟩

theorem access_reads :
    Access.read.Reads fun bytes access => bytes = [access.bits] ∧ access.Defined := by
  unfold Access.read
  refine (Reads.position fun start => byte_reads.bind (G := fun bits bytes access =>
    (Access.mk bits).isDefined = true ∧ bytes = [] ∧ access = (⟨bits⟩ : Access)) fun bits =>
      Reads.require fun _ => pure_reads (⟨bits⟩ : Access)).congr fun bytes access => ?_
  simp only [Access.isDefined_iff]
  constructor
  · rintro ⟨bits, _, y, rfl, rfl, hdef, rfl, rfl⟩
    exact ⟨rfl, hdef⟩
  · rintro ⟨rfl, hdef⟩
    exact ⟨access.bits, _, [], rfl, rfl, hdef, rfl, rfl⟩

theorem CallKind.all_eq_some_iff {code : UInt8} {kind : CallKind} :
    CallKind.all[code.toNat]? = some kind ↔ code = UInt8.ofNat kind.code := by
  constructor
  · intro h
    have hcode : code.toNat = kind.code := by
      generalize code.toNat = n at h
      rcases n with _ | _ | _ | _ | n
      all_goals simp [CallKind.all] at h
      all_goals subst h; rfl
    rw [← hcode, UInt8.ofNat_toNat]
  · rintro rfl
    cases kind <;> rfl

theorem call_reads :
    CallKind.read.Reads fun bytes kind => bytes = [UInt8.ofNat kind.code] := by
  unfold CallKind.read
  refine (byte_reads.bind (G := fun code bytes kind =>
    bytes = [] ∧ CallKind.all[code.toNat]? = some kind) fun code => ?_).congr fun bytes kind => ?_
  · split
    · next kind h =>
      exact (pure_reads kind).congr fun bytes kind => by simp [h, eq_comm]
    · next h =>
      exact (throw_reads _).congr fun bytes kind => by simp [h]
  · simp only [CallKind.all_eq_some_iff]
    constructor
    · rintro ⟨code, _, y, rfl, rfl, rfl, rfl⟩
      rfl
    · rintro rfl
      exact ⟨_, _, [], rfl, rfl, rfl, rfl⟩

theorem Pool.expectText_eq_ok_iff {pool : Pool} {index : Nat} {value : String} :
    pool.expectText index = .ok value ↔ pool.entries[index]? = some (.text value) := by
  unfold Pool.expectText Pool.get?
  split
  · next h => simp [h]
  · next h => simp [h]
  · next c hc h =>
    simp only [h, reduceCtorEq, Option.some.injEq, false_iff]
    exact hc value

theorem Pool.text?_eq_some_iff {pool : Pool} {index : Nat} {value : String} :
    pool.text? index = some value ↔ pool.entries[index]? = some (.text value) := by
  unfold Pool.text? Pool.get?
  rw [Option.bind_eq_some_iff]
  constructor
  · rintro ⟨constant, hget, htext⟩
    cases constant <;> cases htext
    exact hget
  · intro hget
    exact ⟨_, hget, rfl⟩

theorem Pool.checkIndex_eq_ok_iff {pool : Pool} {index : Nat} {u : Unit} :
    pool.checkIndex index = .ok u ↔ index < pool.entries.size := by
  unfold Pool.checkIndex Pool.size
  split_ifs with h
  · exact iff_of_true rfl h
  · exact iff_of_false (by simp) h

theorem TypeRef.lists_iff {type : TypeRef} {tags : List UInt16} :
    type.Lists tags ↔ type = .ofTags tags := by
  constructor
  · intro h
    cases h with
    | single => rfl
    | chain hlen =>
      match tags with
      | [] | _ :: _ :: _ => rfl
      | [tag] => exact absurd rfl hlen
  · rintro rfl
    match tags with
    | [] => exact .chain (by simp)
    | [tag] => exact .single
    | _ :: _ :: _ => exact .chain (by simp)

theorem TypeRef.Lists.tags_eq {type : TypeRef} {tags : List UInt16} (h : type.Lists tags) :
    type.tags = tags := by
  rw [TypeRef.lists_iff.1 h, TypeRef.tags_ofTags]

theorem TypeRef.Lists.unique {type type' : TypeRef} {tags : List UInt16} (h : type.Lists tags)
    (h' : type'.Lists tags) : type = type' :=
  (TypeRef.lists_iff.1 h).trans (TypeRef.lists_iff.1 h').symm

theorem readName_reads (pool : Pool) : (readName pool).Reads (NameForm pool) := by
  unfold readName
  refine (index_reads.bind fun name => (check_reads _).bind fun _ =>
    pure_reads name).congr fun bytes name => ?_
  simp only [Pool.expectText_eq_ok_iff]
  constructor
  · rintro ⟨_, x, _, rfl, hx, value, _, _, rfl, ⟨rfl, hvalue⟩, rfl, rfl⟩
    exact ⟨by rwa [List.append_nil, List.append_nil], value, hvalue⟩
  · rintro ⟨hname, value, hvalue⟩
    exact ⟨name, _, [], (List.append_nil _).symm, hname, value, [], [], rfl, ⟨rfl, hvalue⟩, rfl,
      rfl⟩

theorem readTag_reads (pool : Pool) : (readTag pool).Reads (TagForm pool) := by
  unfold readTag
  refine (index_reads.bind fun tag => (check_reads _).bind fun _ =>
    pure_reads tag).congr fun bytes tag => ?_
  simp only [Pool.checkIndex_eq_ok_iff]
  constructor
  · rintro ⟨_, x, _, rfl, hx, _, _, _, rfl, ⟨rfl, hlt⟩, rfl, rfl⟩
    exact ⟨by rwa [List.append_nil, List.append_nil], hlt⟩
  · rintro ⟨htag, hlt⟩
    exact ⟨tag, _, [], (List.append_nil _).symm, htag, (), [], [], rfl, ⟨rfl, hlt⟩, rfl, rfl⟩

theorem readTags_reads (pool : Pool) : (readTags pool).Reads (Counted (TagForm pool)) := by
  unfold readTags
  refine (count_reads.bind fun n => (repeated_reads n fun _ =>
    readTag_reads pool).map Array.toList).congr fun bytes tags => ?_
  constructor
  · rintro ⟨_, x, y, rfl, hx, items, ⟨rfl, hy⟩, rfl⟩
    exact ⟨x, y, rfl, hx, hy⟩
  · rintro ⟨x, y, rfl, hx, hy⟩
    exact ⟨tags.length, x, y, rfl, hx, tags.toArray, ⟨rfl, hy⟩, rfl⟩

theorem field_reads (pool : Pool) : (Field.read pool).Reads (FieldForm pool) := by
  unfold Field.read
  refine (access_reads.bind fun access => (readName_reads pool).bind fun name =>
    Reads.position fun start => (readTags_reads pool).bind (G := fun tags bytes field =>
      (!tags.isEmpty) = true ∧ bytes = [] ∧ field = (⟨access, name, .ofTags tags⟩ : Field))
        fun tags => Reads.require fun _ =>
          pure_reads (⟨access, name, .ofTags tags⟩ : Field)).congr fun bytes field => ?_
  simp only [FieldForm, TypeRef.lists_iff]
  constructor
  · rintro ⟨access, _, _, rfl, ⟨rfl, hdef⟩, name, x, _, rfl, hname, tags, y, z, rfl, htags,
      hne, rfl, rfl⟩
    refine ⟨x, y, tags, by simp, hdef, hname, htags, by simpa using hne, rfl⟩
  · rcases field with ⟨access, name, type⟩
    rintro ⟨x, y, tags, rfl, hdef, hname, htags, hne, rfl⟩
    refine ⟨access, [access.bits], _, rfl, ⟨rfl, hdef⟩, name, x, _, rfl, hname, tags, y, [],
      (List.append_nil _).symm, htags, by simpa using hne, rfl, rfl⟩

theorem method_reads (pool : Pool) : (Method.read pool).Reads (MethodForm pool) := by
  unfold Method.read
  refine (access_reads.bind fun access => call_reads.bind fun kind =>
    (readName_reads pool).bind fun name => (readTags_reads pool).bind fun tags =>
      sized_reads.bind fun body =>
        pure_reads (⟨access, kind, name, .ofTags tags, body⟩ : Method)).congr
          fun bytes method => ?_
  simp only [MethodForm, TypeRef.lists_iff]
  constructor
  · rintro ⟨access, _, _, rfl, ⟨rfl, hdef⟩, kind, _, _, rfl, rfl, name, x, _, rfl, hname, tags, y,
      _, rfl, htags, body, z, _, rfl, hbody, rfl, rfl⟩
    exact ⟨x, y, tags, z, by simp, hdef, hname, htags, rfl, hbody⟩
  · rcases method with ⟨access, kind, name, args, body⟩
    rintro ⟨x, y, tags, z, rfl, hdef, hname, htags, rfl, hbody⟩
    exact ⟨access, [access.bits], _, rfl, ⟨rfl, hdef⟩, kind, [_], _, rfl, rfl, name, x, y ++ z,
      by simp, hname, tags, y, z, rfl, htags, body, z, [], (List.append_nil _).symm, hbody, rfl,
      rfl⟩

end Parts

section Whole

theorem Pool.className_eq_ok_iff {pool : Pool} {name : String} :
    pool.className = .ok name ↔ pool.Names name := by
  unfold Pool.className Pool.Names Pool.isEmpty
  split_ifs with h <;> rw [Array.isEmpty_iff] at h
  · simp [h, eq_comm]
  · rw [Pool.expectText_eq_ok_iff]
    simp [h]

/-- A class up to its last method. -/
def Class.readBody (limits : Limits) : Reader Class := do
  let header ← Header.read
  let pool ← Pool.read limits.constants
  let name ← check pool.className
  let fields ← counted limits.fields .tooManyFields fun _ => Field.read pool
  let methods ← counted limits.methods .tooManyMethods fun _ => Method.read pool
  return ⟨header.kind, header.access, header.version, name, fields, methods, pool⟩

theorem Class.read_eq (limits : Limits) :
    Class.read limits = Class.readBody limits >>= fun c => finish >>= fun _ => pure c := by
  simp only [Class.read, Class.readBody, bind_assoc, pure_bind]

section Decode

variable {limits : Limits} {bytes : List UInt8}

theorem Class.decode_of_readBody_ok {c : Class} {pos : Nat} {rest : List UInt8}
    (h : Class.readBody limits ⟨0, bytes⟩ = .ok c ⟨pos, rest⟩) :
    Class.decode bytes limits
      = if rest = [] then .ok c else .error (.trailingBytes rest.length pos) := by
  have hread : Class.read limits ⟨0, bytes⟩
      = (finish >>= fun _ => pure c : Reader Class) ⟨pos, rest⟩ := by
    rw [Class.read_eq, bind_ok h]
  unfold Class.decode
  rw [show Cursor.start bytes = ⟨0, bytes⟩ from rfl, hread]
  cases rest <;> rfl

theorem Class.decode_of_readBody_error {fault : Fault} {c : Cursor}
    (h : Class.readBody limits ⟨0, bytes⟩ = .error fault c) :
    Class.decode bytes limits = .error fault := by
  have hread : Class.read limits ⟨0, bytes⟩ = .error fault c := by
    rw [Class.read_eq, bind_error h]
  unfold Class.decode
  rw [show Cursor.start bytes = ⟨0, bytes⟩ from rfl, hread]

theorem Class.decode_eq_ok_iff {c : Class} :
    Class.decode bytes limits = .ok c
      ↔ ∃ pos, Class.readBody limits ⟨0, bytes⟩ = .ok c ⟨pos, []⟩ := by
  rcases h : Class.readBody limits ⟨0, bytes⟩ with ⟨c', pos, rest⟩ | ⟨fault, cursor⟩
  · rw [Class.decode_of_readBody_ok h]
    rcases rest with _ | ⟨b, rest⟩ <;> simp
  · rw [Class.decode_of_readBody_error h]
    simp

end Decode

/-- The numbers of constants, fields and methods are within the limits. -/
def Class.Within (limits : Limits) (c : Class) : Prop :=
  c.pool.size ≤ limits.constants ∧ c.fields.size ≤ limits.fields
    ∧ c.methods.size ≤ limits.methods

theorem readBody_reads (limits : Limits) :
    (Class.readBody limits).Reads fun bytes c => ClassForm bytes c ∧ c.Within limits := by
  unfold Class.readBody Pool.read
  refine (header_reads.bind fun header => ((counted_reads _ _ constant_reads).map Pool.mk).bind
    fun pool => (check_reads _).bind fun name =>
      (counted_reads _ _ fun _ => field_reads pool).bind fun fields =>
        (counted_reads _ _ fun _ => method_reads pool).bind fun methods =>
          pure_reads (⟨header.kind, header.access, header.version, name, fields, methods, pool⟩ :
            Class)).congr fun bytes c => ?_
  simp only [Pool.className_eq_ok_iff]
  constructor
  · rintro ⟨header, x, _, rfl, hheader, _, y, _, rfl, ⟨entries, ⟨hle, hpool⟩, rfl⟩, name, _, _, rfl,
      ⟨rfl, hname⟩, fields, z, _, rfl, ⟨hle', hfields⟩, methods, w, _, rfl, ⟨hle'', hmethods⟩, rfl,
      rfl⟩
    exact ⟨⟨x, y, z, w, by simp, hheader, hpool, hname, hfields, hmethods⟩, hle, hle', hle''⟩
  · rcases c with ⟨kind, access, version, name, fields, methods, pool⟩
    rintro ⟨⟨x, y, z, w, rfl, hheader, hpool, hname, hfields, hmethods⟩, hle, hle', hle''⟩
    exact ⟨⟨version, kind, access⟩, x, y ++ (z ++ w), by simp, hheader, pool, y, z ++ w, rfl,
      ⟨pool.entries, ⟨hle, hpool⟩, rfl⟩, name, [], z ++ w, rfl, ⟨rfl, hname⟩, fields, z, w, rfl,
      ⟨hle', hfields⟩, methods, w, [], (List.append_nil _).symm, ⟨hle'', hmethods⟩, rfl, rfl⟩

theorem Class.decode_iff {bytes : List UInt8} {limits : Limits} {c : Class} :
    Class.decode bytes limits = .ok c ↔ ClassForm bytes c ∧ c.Within limits := by
  rw [Class.decode_eq_ok_iff]
  constructor
  · rintro ⟨pos, h⟩
    obtain ⟨_, rfl, -, hform⟩ := (readBody_reads limits _ _ _ _).1 h
    rwa [List.append_nil]
  · intro h
    exact ⟨_, (readBody_reads limits _ _ _ _).2 ⟨bytes, (List.append_nil _).symm, rfl, h⟩⟩

theorem Form.Counted.length_lt {α : Type} {item : Form α} {bytes : List UInt8} {items : List α}
    (h : Counted item bytes items) : items.length < 2 ^ 32 := by
  obtain ⟨head, body, rfl, hcount, -⟩ := h
  exact hcount.2.2

theorem ClassForm.within {bytes : List UInt8} {c : Class} (h : ClassForm bytes c) :
    c.Within .unlimited := by
  obtain ⟨_, _, _, _, -, -, hpool, -, hfields, hmethods⟩ := h
  have h₁ := hpool.length_lt
  have h₂ := hfields.length_lt
  have h₃ := hmethods.length_lt
  rw [Array.length_toList] at h₁ h₂ h₃
  unfold Class.Within Pool.size Limits.unlimited
  simp only
  omega

theorem Class.decode_unlimited_iff (bytes : List UInt8) (c : Class) :
    Class.decode bytes .unlimited = .ok c ↔ ClassForm bytes c := by
  rw [Class.decode_iff]
  exact ⟨And.left, fun h => ⟨h, h.within⟩⟩

/-- An enumeration `P` with the field `x` and a method of that name. Its number of fields takes two
bytes, where one would do. -/
def padded : List UInt8 :=
  [0x24, 0x47, 0x4C, 0x52, 1, 0x41, 3, 3, 1, 0, 0, 0, 0x50, 3, 1, 0, 0, 0, 0x78,
    1, 7, 0, 0, 0, 0, 0, 0, 0, 0x81, 0, 2, 1, 0, 1, 1, 0,
    1, 1, 2, 1, 0, 2, 1, 0, 2, 0, 2, 0, 0, 0, 0xFF, 0x0A]

/-- What it says, but for the type of the field. -/
def paddedClass (type : TypeRef) : Class where
  kind := .enum
  access := .pub
  version := 1
  name := "P"
  fields := #[⟨⟨2⟩, 1, type⟩]
  methods := #[⟨.pub, .virtual, 1, .chain [1, 2], [0xFF, 0x0A]⟩]
  pool := ⟨#[.text "P", .text "x", .unsigned 7]⟩

/-- A field has its lone tag, and a method with two of them a chain. -/
theorem Class.decode_unlimited_iff_padded :
    Class.decode padded .unlimited = .ok (paddedClass (.single 1))
      ∧ ClassForm padded (paddedClass (.single 1))
      ∧ ∀ tags, ¬ ClassForm padded (paddedClass (.chain tags)) := by
  have hdecode : Class.decode padded .unlimited = .ok (paddedClass (.single 1)) := by
    decide +kernel
  refine ⟨hdecode, (Class.decode_unlimited_iff _ _).1 hdecode, fun tags hform => ?_⟩
  have hchain := hdecode.symm.trans ((Class.decode_unlimited_iff _ _).2 hform)
  simp [paddedClass] at hchain

end Whole

end ClassLoading
