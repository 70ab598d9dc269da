import ClassLoading.Class.Encoding
import ClassLoading.Proofs.ClassForm

/-!
# Reading written class files

What is written of a part has the part's form, as long as its length fits the room there is for it,
and is read as nothing else. The accesses alone are written unchecked: so a class file is read back
where they are defined, and then as the class of its parts (`Class.Fits.decode_encode_iff`).
-/

namespace ClassLoading

open Form Reader

section Counts

theorem groups_leb128 :
    ∀ most n : Nat, n < 128 ^ (most + 1) → Leb128 (Varint.groups (most + 1) n) n
      ∧ (Varint.groups (most + 1) n).length ≤ most + 1
  | most, n, h => by
    rw [Varint.groups]
    split_ifs with hsmall
    · have hbyte : (UInt8.ofNat n).toNat = n :=
        UInt8.toNat_ofNat_of_lt' (show n < 256 by omega)
      have hlast := Leb128.last (b := UInt8.ofNat n) (by rwa [hbyte])
      rw [hbyte] at hlast
      exact ⟨hlast, by simp⟩
    · obtain ⟨m, rfl⟩ : ∃ m, most = m + 1 := by
        rcases most with _ | m
        · omega
        · exact ⟨m, rfl⟩
      have hquot : n / 128 < 128 ^ (m + 1) := by
        rw [Nat.pow_succ] at h
        omega
      obtain ⟨hleb, hlen⟩ := groups_leb128 m (n / 128) hquot
      have hbyte : (UInt8.ofNat (n % 128 + 128)).toNat = n % 128 + 128 :=
        UInt8.toNat_ofNat_of_lt' (show n % 128 + 128 < 256 by omega)
      have hmore := Leb128.more (b := UInt8.ofNat (n % 128 + 128)) (by omega) hleb
      rw [hbyte, Nat.add_sub_cancel, Nat.mod_add_div] at hmore
      exact ⟨hmore, by simpa using hlen⟩

theorem encode_count {n : Nat} (h : n < 2 ^ 32) : Count (Varint.encode (UInt32.ofNat n)) n := by
  rw [Varint.encode, UInt32.toNat_ofNat_of_lt' h]
  obtain ⟨hleb, hlen⟩ := groups_leb128 4 n (Nat.lt_trans h (by decide))
  exact ⟨hleb, hlen, h⟩

variable {α : Type} {F : Form α} {item : α → List UInt8}

theorem flatMap_listed {items : List α} (h : ∀ a ∈ items, F (item a) a) :
    Listed F (items.flatMap item) items := by
  induction items with
  | nil => exact .nil
  | cons a items ih =>
    rw [List.flatMap_cons]
    exact .cons (h a (by simp)) (ih fun b hb => h b (by simp [hb]))

theorem encodeCounted_counted {items : List α} (hlen : items.length < 2 ^ 32)
    (h : ∀ a ∈ items, F (item a) a) : Counted F (encodeCounted item items) items :=
  ⟨_, _, rfl, encode_count hlen, flatMap_listed h⟩

/-- What is written for `a` is read as `a` if as anything. -/
def Faithful (F : Form α) (item : α → List UInt8) (a : α) : Prop :=
  ∀ {x : List UInt8} {b : α} {s t : List UInt8}, F x b → x ++ s = item a ++ t → b = a ∧ s = t

theorem faithful_of_reads {r : Reader α} {a : α} (hr : r.Reads F) (h : F (item a) a) :
    Faithful F item a := by
  intro x b s t hx heq
  obtain ⟨-, hba, hst⟩ := hr.unique hx h heq
  exact ⟨hba, hst⟩

theorem flatMap_faithful {items : List α} (h : ∀ a ∈ items, Faithful F item a) :
    ∀ {x : List UInt8} {found : List α} {s t : List UInt8}, Listed F x found →
      found.length = items.length → x ++ s = items.flatMap item ++ t → found = items ∧ s = t := by
  induction items with
  | nil =>
    intro x found s t hx hlen heq
    obtain rfl := List.length_eq_zero_iff.1 hlen
    cases hx
    exact ⟨rfl, heq⟩
  | cons a items ih =>
    intro x found s t hx hlen heq
    rcases hx with _ | @⟨y, z, b, found, hy, hz⟩
    · simp at hlen
    · rw [List.flatMap_cons, List.append_assoc, List.append_assoc] at heq
      obtain ⟨rfl, heq'⟩ := h a (by simp) hy heq
      obtain ⟨rfl, rfl⟩ := ih (fun c hc => h c (by simp [hc])) hz (by simpa using hlen) heq'
      exact ⟨rfl, rfl⟩

theorem encodeCounted_faithful {items : List α} (hlen : items.length < 2 ^ 32)
    (h : ∀ a ∈ items, Faithful F item a) : Faithful (Counted F) (encodeCounted item) items := by
  rintro _ found s t ⟨head, body, rfl, hhead, hbody⟩ heq
  rw [encodeCounted, List.append_assoc, List.append_assoc] at heq
  obtain ⟨-, hcount, heq'⟩ := count_reads.unique hhead (encode_count hlen) heq
  exact flatMap_faithful h hbody hcount heq'

end Counts

section Parts

/-- The length of a text fits its four bytes. -/
def Constant.Fits : Constant → Prop
  | .text value => value.utf8ByteSize < 2 ^ 32
  | _ => True

theorem length_toByteArray (value : String) :
    value.toByteArray.data.toList.length = value.utf8ByteSize := by
  rw [Array.length_toList]
  rfl

theorem length_encode_toList (value : String) :
    (Utf8.encode value.toList).length = value.utf8ByteSize := by
  rw [Utf8.encode_toList, length_toByteArray]

theorem encodeSized_sized {bytes : List UInt8} (h : bytes.length < 2 ^ 32) :
    Sized (encodeSized bytes) bytes :=
  ⟨_, rfl, LittleEndian.encode_number h⟩

theorem constant_form {constant : Constant} (h : constant.Fits) :
    ConstantForm constant.encode constant := by
  rcases constant with value | value | bits | value
  · exact .signed (LittleEndian.encode_number value.toUInt64.toNat_lt)
  · exact .unsigned (LittleEndian.encode_number value.toNat_lt)
  · exact .float (LittleEndian.encode_number bits.toNat_lt)
  · refine .text ?_
    rw [Constant.encodeValue, Utf8.encode_toList]
    exact encodeSized_sized ((length_toByteArray value).trans_lt h)

/-- Indices of constants, in the one shape there is for them. -/
structure TypeRef.Fits (pool : Pool) (type : TypeRef) : Prop where
  lists : type.Lists type.tags
  length_lt : type.tags.length < 2 ^ 32
  tags_lt : ∀ tag ∈ type.tags, tag.toNat < pool.entries.size

theorem encodeIndex_number (index : UInt16) : Number 2 (encodeIndex index) index.toNat :=
  LittleEndian.encode_number index.toNat_lt

theorem TypeRef.Fits.form {pool : Pool} {type : TypeRef} (h : type.Fits pool) :
    Counted (TagForm pool) type.encode type.tags :=
  encodeCounted_counted h.length_lt fun tag htag => ⟨encodeIndex_number tag, h.tags_lt tag htag⟩

/-- A field as a pool has it, whatever its access. -/
structure Field.Fits (pool : Pool) (field : Field) : Prop where
  name : ∃ value, pool.entries[field.name.toNat]? = some (.text value)
  type : field.type.Fits pool
  tags_ne_nil : field.type.tags ≠ []

structure Method.Fits (pool : Pool) (method : Method) : Prop where
  name : ∃ value, pool.entries[method.name.toNat]? = some (.text value)
  args : method.args.Fits pool
  body : method.body.length < 2 ^ 32

variable {pool : Pool}

theorem field_form {field : Field} (h : field.Fits pool) (hdef : field.access.Defined) :
    FieldForm pool field.encode field :=
  ⟨_, _, _, rfl, hdef, ⟨encodeIndex_number _, h.name⟩, h.type.form, h.tags_ne_nil, h.type.lists⟩

theorem method_form {method : Method} (h : method.Fits pool) (hdef : method.access.Defined) :
    MethodForm pool method.encode method :=
  ⟨_, _, _, _, rfl, hdef, ⟨encodeIndex_number _, h.name⟩, h.args.form, h.args.lists,
    encodeSized_sized h.body⟩

theorem index_faithful {i j : UInt16} {x s t : List UInt8} (hx : Number 2 x i.toNat)
    (heq : x ++ s = encodeIndex j ++ t) : i = j ∧ s = t := by
  obtain ⟨-, hij, hst⟩ := index_reads.unique hx (encodeIndex_number j) heq
  exact ⟨hij, hst⟩

theorem field_faithful {field : Field} (h : field.Fits pool) :
    Faithful (FieldForm pool) Field.encode field := by
  rcases field with ⟨⟨bits'⟩, name', type'⟩
  rintro _ ⟨⟨bits⟩, name, type⟩ s t ⟨_, _, tags, rfl, -, ⟨hname, -⟩, htags, -, hlists⟩ heq
  simp only [Field.encode, List.cons_append, List.cons.injEq, List.append_assoc] at heq
  obtain ⟨rfl, hrest⟩ := heq
  obtain ⟨rfl, hrest'⟩ := index_faithful hname hrest
  obtain ⟨-, rfl, rfl⟩ := (readTags_reads pool).unique htags h.type.form hrest'
  obtain rfl := hlists.unique h.type.lists
  exact ⟨rfl, rfl⟩

theorem CallKind.code_inj {kind kind' : CallKind}
    (h : UInt8.ofNat kind.code = UInt8.ofNat kind'.code) : kind = kind' := by
  cases kind <;> cases kind' <;> first | rfl | exact absurd h (by decide)

theorem method_faithful {method : Method} (h : method.Fits pool) :
    Faithful (MethodForm pool) Method.encode method := by
  rcases method with ⟨⟨bits'⟩, kind', name', args', body'⟩
  rintro _ ⟨⟨bits⟩, kind, name, args, body⟩ s t
    ⟨_, _, tags, _, rfl, -, ⟨hname, -⟩, htags, hlists, hbody⟩ heq
  simp only [Method.encode, List.cons_append, List.cons.injEq, List.append_assoc] at heq
  obtain ⟨rfl, hkind, hrest⟩ := heq
  obtain rfl := CallKind.code_inj hkind
  obtain ⟨rfl, hrest'⟩ := index_faithful hname hrest
  obtain ⟨-, rfl, hsized⟩ := (readTags_reads pool).unique htags h.args.form hrest'
  obtain ⟨-, rfl, rfl⟩ : _ ∧ body = body' ∧ s = t :=
    sized_reads.unique hbody (encodeSized_sized h.body) hsized
  obtain rfl := hlists.unique h.args.lists
  exact ⟨rfl, rfl⟩

end Parts

section Header

/-- The low six bits, for which there is room in a header. -/
def Access.masked (access : Access) : Access :=
  ⟨access.bits &&& 0x3F⟩

theorem Access.masked_lt (access : Access) : access.masked.bits.toNat < 64 := by
  show (access.bits &&& Header.accessMask).toNat < 64
  rw [Header.toNat_and_accessMask]
  exact Nat.mod_lt _ (by decide)

theorem Header.byte_eq (kind : ClassKind) (access : Access) :
    Header.byte kind access = UInt8.ofNat (64 * kind.code + access.masked.bits.toNat) := by
  have hlow := Access.masked_lt access
  have hkind := ClassKind.code_lt kind
  unfold Access.masked at *
  simp only at hlow
  have hshift : (UInt8.ofNat kind.code <<< 6).toNat = kind.code <<< 6 := by
    cases kind <;> rfl
  rw [← UInt8.toNat_inj, UInt8.toNat_ofNat_of_lt' (show _ < 256 by simp only; omega), Header.byte,
    UInt8.toNat_or, hshift, ← Nat.shiftLeft_add_eq_or_of_lt hlow, Nat.shiftLeft_eq,
    Nat.mul_comm]
  rfl

theorem header_form {header : Header} (hversion : 1 ≤ header.version.toNat)
    (hdef : header.access.masked.Defined) (hne : header.access.masked.bits ≠ 0) :
    HeaderForm header.encode ⟨header.version, header.kind, header.access.masked⟩ := by
  refine ⟨?_, hversion, hdef, hne⟩
  rw [Header.encode, Header.byte_eq]
  rfl

theorem header_faithful {x s t : List UInt8} {header found : Header} (hx : HeaderForm x found)
    (heq : x ++ s = header.encode ++ t) :
    found = ⟨header.version, header.kind, header.access.masked⟩ ∧ s = t := by
  rcases found with ⟨version, kind, access⟩
  obtain ⟨rfl, -, hdef, -⟩ := hx
  simp only [Header.encode, Header.magic, List.cons_append, List.nil_append, List.cons.injEq,
    true_and] at heq
  obtain ⟨rfl, hbyte, rfl⟩ := heq
  obtain ⟨rfl, rfl⟩ := (Header.eq_byte_iff _ kind (Nat.lt_trans hdef (by decide))).1 hbyte.symm
  obtain ⟨hkind, haccess⟩ :=
    (Header.eq_byte_iff _ header.kind (Access.masked_lt header.access)).1 (Header.byte_eq _ _)
  rw [hkind, haccess]
  exact ⟨rfl, rfl⟩

end Header

section Whole

/-- A class that can be written, but for its accesses and its version. -/
structure Class.Fits (c : Class) : Prop where
  constants_lt : c.pool.entries.size < 2 ^ 32
  fields_lt : c.fields.size < 2 ^ 32
  methods_lt : c.methods.size < 2 ^ 32
  constants : ∀ constant ∈ c.pool.entries, constant.Fits
  name : c.pool.Names c.name
  fields : ∀ field ∈ c.fields, field.Fits c.pool
  methods : ∀ method ∈ c.methods, method.Fits c.pool

/-- The version is supported, and every access is as a reader wants it. -/
structure Class.Acceptable (c : Class) : Prop where
  version : 1 ≤ c.version.toNat
  access : c.access.masked.Defined
  access_ne : c.access.masked.bits ≠ 0
  fields : ∀ field ∈ c.fields, field.access.Defined
  methods : ∀ method ∈ c.methods, method.access.Defined

def Class.encode (c : Class) : List UInt8 :=
  encodeParts ⟨c.version, c.kind, c.access⟩ c.pool.entries.toList c.fields.toList c.methods.toList

variable {c d : Class}

theorem Class.Fits.form (h : c.Fits) (hok : c.Acceptable) :
    ClassForm c.encode { c with access := c.access.masked } := by
  refine ⟨_, _, _, _, rfl, header_form hok.version hok.access hok.access_ne, ?_, h.name, ?_, ?_⟩
  · exact encodeCounted_counted h.constants_lt fun constant hmem =>
      constant_form (h.constants constant (Array.mem_toList_iff.1 hmem))
  · exact encodeCounted_counted h.fields_lt fun field hmem =>
      field_form (h.fields field (Array.mem_toList_iff.1 hmem))
        (hok.fields field (Array.mem_toList_iff.1 hmem))
  · exact encodeCounted_counted h.methods_lt fun method hmem =>
      method_form (h.methods method (Array.mem_toList_iff.1 hmem))
        (hok.methods method (Array.mem_toList_iff.1 hmem))

theorem Form.Listed.exists_form {α : Type} {F : Form α} {bytes : List UInt8} {items : List α}
    (h : Listed F bytes items) : ∀ a ∈ items, ∃ x, F x a := by
  induction h with
  | nil => simp
  | cons ha _ ih =>
    intro b hb
    rcases List.mem_cons.1 hb with rfl | hb
    · exact ⟨_, ha⟩
    · exact ih b hb

/-- No name is read that is longer than its length can say. -/
theorem ClassForm.name_lt {bytes : List UInt8} (h : ClassForm bytes c) :
    c.name.utf8ByteSize < 2 ^ 32 := by
  obtain ⟨_, _, _, _, -, -, ⟨_, _, -, -, hconstants⟩, ⟨-, hname⟩ | hname, -, -⟩ := h
  · rw [hname]
    decide
  · have hmem : Constant.text c.name ∈ c.pool.entries.toList := by
      rw [Array.mem_toList_iff]
      exact Array.mem_of_getElem? hname
    obtain ⟨x, hx⟩ := hconstants.exists_form _ hmem
    cases hx with
    | text hsized =>
      obtain ⟨_, -, hlength⟩ := hsized
      rw [← length_toByteArray]
      exact hlength.lt

theorem Pool.Names.unique {pool : Pool} {name name' : String} (h : pool.Names name)
    (h' : pool.Names name') : name = name' :=
  Except.ok.inj ((Pool.className_eq_ok_iff.2 h).symm.trans (Pool.className_eq_ok_iff.2 h'))

theorem Class.Fits.faithful (h : c.Fits) (hform : ClassForm c.encode d) :
    c.Acceptable ∧ d = { c with access := c.access.masked } := by
  rcases d with ⟨kind, access, version, name, fields, methods, pool⟩
  obtain ⟨x, y, z, w, heq, hheader, hpool, hname, hfields, hmethods⟩ := hform
  simp only [Class.encode, encodeParts, List.append_assoc] at heq
  obtain ⟨hhead, hrest⟩ := header_faithful hheader heq.symm
  obtain ⟨hconstants, hrest'⟩ := encodeCounted_faithful h.constants_lt (fun constant hmem =>
    faithful_of_reads (constant_reads 0)
      (constant_form (h.constants constant (Array.mem_toList_iff.1 hmem)))) hpool hrest
  obtain rfl : pool = c.pool := congrArg Pool.mk (Array.toList_inj.1 hconstants)
  obtain ⟨hfields', hrest''⟩ := encodeCounted_faithful h.fields_lt (fun field hmem =>
    field_faithful (h.fields field (Array.mem_toList_iff.1 hmem))) hfields hrest'
  obtain ⟨hmethods', -⟩ := encodeCounted_faithful h.methods_lt (fun method hmem =>
    method_faithful (h.methods method (Array.mem_toList_iff.1 hmem))) hmethods
      (congrArg (· ++ []) hrest'')
  obtain rfl : fields = c.fields := Array.toList_inj.1 hfields'
  obtain rfl : methods = c.methods := Array.toList_inj.1 hmethods'
  obtain rfl : name = c.name := hname.unique h.name
  simp only [Header.mk.injEq] at hhead
  obtain ⟨rfl, rfl, rfl⟩ := hhead
  obtain ⟨_, _, -, -, hfieldForms⟩ := hfields
  obtain ⟨_, _, -, -, hmethodForms⟩ := hmethods
  refine ⟨⟨hheader.2.1, hheader.2.2.1, hheader.2.2.2, fun field hmem => ?_,
    fun method hmem => ?_⟩, rfl⟩
  · obtain ⟨_, _, _, _, -, hdef, -⟩ :=
      hfieldForms.exists_form field (Array.mem_toList_iff.2 hmem)
    exact hdef
  · obtain ⟨_, _, _, _, _, -, hdef, -⟩ :=
      hmethodForms.exists_form method (Array.mem_toList_iff.2 hmem)
    exact hdef

/-- A class that can be written is read back where its version and its accesses are acceptable, and
then as it was. -/
theorem Class.Fits.decode_encode_iff (h : c.Fits) :
    Class.decode c.encode .unlimited = .ok d
      ↔ c.Acceptable ∧ d = { c with access := c.access.masked } := by
  rw [Class.decode_iff]
  constructor
  · rintro ⟨hform, -⟩
    exact h.faithful hform
  · rintro ⟨hok, rfl⟩
    have hform := h.form hok
    exact ⟨hform, hform.within⟩

end Whole

end ClassLoading
