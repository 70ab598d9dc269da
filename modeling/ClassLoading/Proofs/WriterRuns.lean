import ClassLoading.Proofs.WriterSteps

/-!
# What a writer was told is read back

After any calls a writer holds what the successful ones told it: their constants at the indices that
were answered, and a record for each field and method (`Gathered`). So its class file is read back
just where the version and the accesses are acceptable, and then with all that it was told
(`Writer.decode_build_run`). A class name alone is taken whatever its length; one that is too long
for the length field never comes back.
-/

namespace ClassLoading

/-- What a writer begins with. -/
structure WriterOpening where
  name? : Option String
  kind : ClassKind
  access : Access

def WriterOpening.writer (o : WriterOpening) : Writer :=
  match o.name? with
  | none => .anonymous o.kind o.access
  | some name => .named name o.kind o.access

/-- The name of the class, which an anonymous one has as well. -/
def WriterOpening.name (o : WriterOpening) : String :=
  o.name?.getD ""

structure WrittenField where
  access : Access
  name : String
  types : List String

structure WrittenMethod where
  access : Access
  dispatch : CallKind
  name : String
  args : List String
  body : List UInt8

inductive WriterCall where
  | version (version : UInt8)
  | constant (constant : Constant)
  | text (value : String)
  | field (written : WrittenField)
  | method (written : WrittenMethod)

inductive WriterAnswer where
  | done
  | index (index : UInt16)
  | failed (fault : Fault)

abbrev WriterTrace :=
  List (WriterCall × WriterAnswer)

/-- What the successful calls have told: the version set last, the constants that were added or
found with the indices answered, and the fields and methods in order. -/
structure Told where
  version : UInt8
  indexed : List (Constant × UInt16)
  fields : List WrittenField
  methods : List WrittenMethod

namespace Told

def nothing : Told :=
  ⟨1, [], [], []⟩

def add (told : Told) : WriterCall × WriterAnswer → Told
  | (.version version, .done) => { told with version }
  | (.constant constant, .index index) =>
    { told with indexed := told.indexed ++ [(constant, index)] }
  | (.text value, .index index) => { told with indexed := told.indexed ++ [(.text value, index)] }
  | (.field written, .done) => { told with fields := told.fields ++ [written] }
  | (.method written, .done) => { told with methods := told.methods ++ [written] }
  | _ => told

/-- All numbers of records and of tags fit 32 bits. -/
structure Countable (told : Told) : Prop where
  fields : told.fields.length < 2 ^ 32
  methods : told.methods.length < 2 ^ 32
  types : ∀ written ∈ told.fields, written.types.length < 2 ^ 32
  args : ∀ written ∈ told.methods, written.args.length < 2 ^ 32

/-- The version is supported and all accesses are defined. -/
structure Acceptable (o : WriterOpening) (told : Told) : Prop where
  version : 1 ≤ told.version.toNat
  access : o.access.masked.Defined
  access_ne : o.access.masked.bits ≠ 0
  fields : ∀ written ∈ told.fields, written.access.Defined
  methods : ∀ written ∈ told.methods, written.access.Defined

end Told

def WriterTrace.told (past : WriterTrace) : Told :=
  past.foldl Told.add .nothing

/-- A reference to the constants with those names: a lone one, or a chain of any other number. -/
def TypeRef.Spells (pool : Pool) (type : TypeRef) (names : List String) : Prop :=
  ∃ tags, type.Lists tags ∧ pool.Spells tags names

structure Field.Spells (pool : Pool) (field : Field) (written : WrittenField) : Prop where
  access : field.access = written.access
  name : pool.entries[field.name.toNat]? = some (.text written.name)
  types : field.type.Spells pool written.types

structure Method.Spells (pool : Pool) (method : Method) (written : WrittenMethod) : Prop where
  access : method.access = written.access
  dispatch : method.call = written.dispatch
  name : pool.entries[method.name.toNat]? = some (.text written.name)
  args : method.args.Spells pool written.args
  body : method.body = written.body

/-- A class is what a writer was told. -/
structure Class.Tells (o : WriterOpening) (told : Told) (c : Class) : Prop where
  kind : c.kind = o.kind
  access : c.access = o.access.masked
  version : c.version = told.version
  name : c.name = o.name
  indexed : ∀ p ∈ told.indexed, c.pool.entries[p.2.toNat]? = some p.1
  fields : List.Forall₂ (Field.Spells c.pool) c.fields.toList told.fields
  methods : List.Forall₂ (Method.Spells c.pool) c.methods.toList told.methods

namespace WriterAnswer

def ofIndex : Except Fault UInt16 → WriterAnswer
  | .ok i => .index i
  | .error fault => .failed fault

def ofUnit : Except Fault Unit → WriterAnswer
  | .ok () => .done
  | .error fault => .failed fault

end WriterAnswer

namespace Writer

def call (w : Writer) : WriterCall → WriterAnswer × Writer
  | .version version => (.done, w.setVersion version)
  | .constant constant => (.ofIndex (w.constant constant).1, (w.constant constant).2)
  | .text value => (.ofIndex (w.text value).1, (w.text value).2)
  | .field ⟨access, name, types⟩ =>
    (.ofUnit (w.field access name types).1, (w.field access name types).2)
  | .method ⟨access, dispatch, name, args, body⟩ =>
    (.ofUnit (w.method access dispatch name args body).1,
      (w.method access dispatch name args body).2)

def run (w : Writer) : List WriterCall → WriterTrace × Writer
  | [] => ([], w)
  | c :: rest =>
    ((c, (w.call c).1) :: ((w.call c).2.run rest).1, ((w.call c).2.run rest).2)

/-- The writer holds what it was told. -/
structure Gathered (o : WriterOpening) (told : Told) (w : Writer) : Prop where
  kind : w.kind = o.kind
  access : w.access = o.access
  version : w.version = told.version
  sound : w.Sound o.name?
  indexed : ∀ p ∈ told.indexed, w.pool.get? p.2.toNat = some p.1
  fields : List.Forall₂ (Field.Spells w.pool) w.fields.toList told.fields
  methods : List.Forall₂ (Method.Spells w.pool) w.methods.toList told.methods
  typed : ∀ written ∈ told.fields, written.types ≠ []
  sized : ∀ written ∈ told.methods, written.body.length < 2 ^ 32

variable {o : WriterOpening} {told : Told} {w w' : Writer}

section Steps

theorem spells_extend {type : TypeRef} {names : List String} (h : type.Spells w.pool names)
    (hext : w.Extends w') : type.Spells w'.pool names := by
  obtain ⟨tags, hlists, hspells⟩ := h
  exact ⟨tags, hlists, hext.spells hspells⟩

theorem Gathered.extend (h : Gathered o told w) (hsound : w'.Sound o.name?)
    (hext : w.Extends w') : Gathered o told w' where
  kind := hext.kind.trans h.kind
  access := hext.access.trans h.access
  version := hext.version.trans h.version
  sound := hsound
  indexed p hp := hext.get? (h.indexed p hp)
  fields := by
    rw [hext.fields]
    exact h.fields.imp fun field written hf =>
      ⟨hf.access, hext.get? hf.name, spells_extend hf.types hext⟩
  methods := by
    rw [hext.methods]
    exact h.methods.imp fun method written hm =>
      ⟨hm.access, hm.dispatch, hext.get? hm.name, spells_extend hm.args hext, hm.body⟩
  typed := h.typed
  sized := h.sized

theorem Gathered.index (h : Gathered o told w) {constant : Constant} {i : UInt16}
    (hget : w.pool.get? i.toNat = some constant) :
    Gathered o { told with indexed := told.indexed ++ [(constant, i)] } w :=
  { h with
    indexed := fun p hp => by
      rcases List.mem_append.1 hp with hp | hp
      · exact h.indexed p hp
      · obtain rfl := List.mem_singleton.1 hp
        exact hget }

theorem Gathered.field (h : Gathered o told w) {written : WrittenField} {field : Field}
    (hspells : field.Spells w.pool written) (hne : written.types ≠ []) :
    Gathered o { told with fields := told.fields ++ [written] }
      { w with fields := w.fields.push field } :=
  { h with
    sound := ⟨h.sound.room, h.sound.first, h.sound.interned, h.sound.fits⟩
    fields := by
      simp only [Array.toList_push]
      exact List.rel_append h.fields (.cons hspells .nil)
    typed := fun written' hmem => by
      rcases List.mem_append.1 hmem with hmem | hmem
      · exact h.typed written' hmem
      · obtain rfl := List.mem_singleton.1 hmem
        exact hne }

theorem Gathered.method (h : Gathered o told w) {written : WrittenMethod} {method : Method}
    (hspells : method.Spells w.pool written) (hlen : written.body.length < 2 ^ 32) :
    Gathered o { told with methods := told.methods ++ [written] }
      { w with methods := w.methods.push method } :=
  { h with
    sound := ⟨h.sound.room, h.sound.first, h.sound.interned, h.sound.fits⟩
    methods := by
      simp only [Array.toList_push]
      exact List.rel_append h.methods (.cons hspells .nil)
    sized := fun written' hmem => by
      rcases List.mem_append.1 hmem with hmem | hmem
      · exact h.sized written' hmem
      · obtain rfl := List.mem_singleton.1 hmem
        exact hlen }

theorem Gathered.call (h : Gathered o told w) (c : WriterCall) :
    Gathered o (told.add (c, (w.call c).1)) (w.call c).2 := by
  rcases c with version | constant | value | ⟨access, name, types⟩ |
    ⟨access, dispatch, name, args, body⟩
  · exact { h with
      version := rfl
      sound := ⟨h.sound.room, h.sound.first, h.sound.interned, h.sound.fits⟩ }
  · obtain ⟨hsound, hext, hget⟩ := constant_spec h.sound constant
    have h' := h.extend hsound hext
    show Gathered o (told.add (_, .ofIndex (w.constant constant).1)) (w.constant constant).2
    rcases heq : (w.constant constant).1 with fault | i
    · exact h'
    · exact h'.index (hget i heq)
  · obtain ⟨hsound, hext, hget⟩ := text_spec h.sound value
    have h' := h.extend hsound hext
    show Gathered o (told.add (_, .ofIndex (w.text value).1)) (w.text value).2
    rcases heq : (w.text value).1 with fault | i
    · exact h'
    · exact h'.index (hget i heq)
  · obtain ⟨hsound, hext, hget⟩ := member_spec h.sound name types
    have h' := h.extend hsound hext
    unfold Writer.call Writer.field
    simp only
    split_ifs with hempty
    · exact h
    · split
      · next fault w' heq =>
        rw [heq] at h'
        exact h'
      · next index tags w' heq =>
        rw [heq] at h' hget
        obtain ⟨hname, htags⟩ := hget index tags rfl
        exact h'.field ⟨rfl, hname, tags, TypeRef.lists_iff.2 rfl, htags⟩
          (by simpa using hempty)
  · obtain ⟨hsound, hext, hget⟩ := member_spec h.sound name args
    have h' := h.extend hsound hext
    unfold Writer.call Writer.method
    simp only
    split_ifs with hlong
    · exact h
    · split
      · next fault w' heq =>
        rw [heq] at h'
        exact h'
      · next index tags w' heq =>
        rw [heq] at h' hget
        obtain ⟨hname, htags⟩ := hget index tags rfl
        exact h'.method ⟨rfl, rfl, hname, ⟨tags, TypeRef.lists_iff.2 rfl, htags⟩, rfl⟩
          (Nat.not_le.1 hlong)

theorem sound_writer (o : WriterOpening) : o.writer.Sound o.name? := by
  rcases o with ⟨_ | name, kind, access⟩
  · refine ⟨Nat.zero_le _, .inl ⟨rfl, rfl⟩, fun hindex => ?_, fun {i c} _ hget => ?_⟩
    · simp [WriterOpening.writer, anonymous] at hindex
    · simp [WriterOpening.writer, anonymous, pool, Pool.get?] at hget
  · have hempty : ∀ value : String, (anonymous kind access).interned[value]? = none := fun value => by
      simp [anonymous]
    exact sound_first hempty

theorem gathered_writer (o : WriterOpening) : Gathered o .nothing o.writer := by
  have hsound := sound_writer o
  rcases o with ⟨_ | name, kind, access⟩
  all_goals exact ⟨rfl, rfl, rfl, hsound, by rintro p ⟨⟩, .nil, .nil, by rintro written ⟨⟩,
    by rintro written ⟨⟩⟩

theorem Gathered.run : ∀ {told : Told} {w : Writer} (_ : Gathered o told w)
    (calls : List WriterCall), Gathered o ((w.run calls).1.foldl Told.add told) (w.run calls).2
  | _, _, h, [] => h
  | _, _, h, c :: rest => (h.call c).run rest

end Steps

section Build

def described (o : WriterOpening) (w : Writer) : Class :=
  ⟨w.kind, w.access, w.version, o.name, w.fields, w.methods, w.pool⟩

theorem exists_of_forall₂ {α β : Type} {R : α → β → Prop} {l : List α} {l' : List β}
    (h : List.Forall₂ R l l') : ∀ a ∈ l, ∃ b ∈ l', R a b := by
  induction h with
  | nil => simp
  | cons hab _ ih =>
    intro a ha
    rcases List.mem_cons.1 ha with rfl | ha
    · exact ⟨_, List.mem_cons_self, hab⟩
    · obtain ⟨b, hb, hR⟩ := ih a ha
      exact ⟨b, List.mem_cons_of_mem _ hb, hR⟩

theorem length_tags_of_spells {pool : Pool} {type : TypeRef} {names : List String}
    (h : type.Spells pool names) : type.tags.length = names.length := by
  obtain ⟨tags, hlists, hspells⟩ := h
  rw [hlists.tags_eq]
  exact hspells.length_eq

theorem spells_fits {pool : Pool} {type : TypeRef} {names : List String}
    (h : type.Spells pool names) (hlen : names.length < 2 ^ 32) : type.Fits pool := by
  have hlength := length_tags_of_spells h
  obtain ⟨tags, hlists, hspells⟩ := h
  have htags := hlists.tags_eq
  refine ⟨htags ▸ hlists, by rwa [hlength], fun tag htag => ?_⟩
  obtain ⟨name, -, hname⟩ := exists_of_forall₂ hspells tag (htags ▸ htag)
  exact (Array.getElem?_eq_some_iff.1 hname).1

theorem spells_ne_nil {pool : Pool} {type : TypeRef} {names : List String}
    (h : type.Spells pool names) (hne : names ≠ []) : type.tags ≠ [] := by
  rw [← List.length_pos_iff, length_tags_of_spells h]
  exact List.length_pos_iff.2 hne

theorem Gathered.size_fields (h : Gathered o told w) : w.fields.size = told.fields.length := by
  rw [← Array.length_toList, h.fields.length_eq]

theorem Gathered.size_methods (h : Gathered o told w) :
    w.methods.size = told.methods.length := by
  rw [← Array.length_toList, h.methods.length_eq]

theorem Gathered.fits (h : Gathered o told w) (hcount : told.Countable)
    (hname : o.name.utf8ByteSize < 2 ^ 32) : (described o w).Fits where
  constants_lt := Nat.lt_of_le_of_lt h.sound.room (by decide)
  fields_lt := by
    show w.fields.size < _
    rw [h.size_fields]
    exact hcount.fields
  methods_lt := by
    show w.methods.size < _
    rw [h.size_methods]
    exact hcount.methods
  constants constant hmem := by
    obtain ⟨i, hi⟩ := Array.mem_iff_getElem?.1 hmem
    rcases h.sound.fits_or_name hi with hfits | rfl
    · exact hfits
    · exact hname
  name := by
    rcases h.sound.first with ⟨hsize, hname?⟩ | hfirst
    · refine .inl ⟨Array.size_eq_zero_iff.1 hsize, ?_⟩
      rw [described, WriterOpening.name, hname?]
      rfl
    · exact .inr hfirst
  fields field hmem := by
    obtain ⟨written, hwritten, hspells⟩ :=
      exists_of_forall₂ h.fields field (Array.mem_toList_iff.2 hmem)
    exact ⟨⟨_, hspells.name⟩,
      spells_fits hspells.types (hcount.types written hwritten),
      spells_ne_nil hspells.types (h.typed written hwritten)⟩
  methods method hmem := by
    obtain ⟨written, hwritten, hspells⟩ :=
      exists_of_forall₂ h.methods method (Array.mem_toList_iff.2 hmem)
    refine ⟨⟨_, hspells.name⟩,
      spells_fits hspells.args (hcount.args written hwritten), ?_⟩
    rw [hspells.body]
    exact h.sized written hwritten

theorem Gathered.acceptable_iff (h : Gathered o told w) :
    (described o w).Acceptable ↔ told.Acceptable o := by
  constructor
  · intro hok
    refine ⟨h.version ▸ hok.version, h.access ▸ hok.access, h.access ▸ hok.access_ne,
      fun written hmem => ?_, fun written hmem => ?_⟩
    · obtain ⟨field, hfield, hspells⟩ := exists_of_forall₂ h.fields.flip written hmem
      exact hspells.access ▸ hok.fields field (Array.mem_toList_iff.1 hfield)
    · obtain ⟨method, hmethod, hspells⟩ := exists_of_forall₂ h.methods.flip written hmem
      exact hspells.access ▸ hok.methods method (Array.mem_toList_iff.1 hmethod)
  · intro hok
    have hversion : (described o w).version = told.version := h.version
    have haccess : (described o w).access = o.access := h.access
    refine ⟨hversion ▸ hok.version, haccess ▸ hok.access, haccess ▸ hok.access_ne,
      fun field hmem => ?_, fun method hmem => ?_⟩
    · obtain ⟨written, hwritten, hspells⟩ :=
        exists_of_forall₂ h.fields field (Array.mem_toList_iff.2 hmem)
      exact hspells.access ▸ hok.fields written hwritten
    · obtain ⟨written, hwritten, hspells⟩ :=
        exists_of_forall₂ h.methods method (Array.mem_toList_iff.2 hmem)
      exact hspells.access ▸ hok.methods written hwritten

theorem Gathered.tells (h : Gathered o told w) :
    ({ described o w with access := (described o w).access.masked } : Class).Tells o told where
  kind := h.kind
  access := congrArg Access.masked h.access
  version := h.version
  name := rfl
  indexed := h.indexed
  fields := h.fields
  methods := h.methods

end Build

end Writer

/-- The class file of a writer is read back just where the version and the accesses it was told are
acceptable, and then as all it was told, with as many constants as the writer has. The name a writer
begins with is not checked: one too long for its length is never read back. -/
theorem Writer.decode_build_run (o : WriterOpening) (calls : List WriterCall)
    (hcount : (o.writer.run calls).1.told.Countable) :
    (o.name.utf8ByteSize < 2 ^ 32 →
      ((∃ c, Class.decode (o.writer.run calls).2.build .unlimited = .ok c)
        ↔ (o.writer.run calls).1.told.Acceptable o)
      ∧ ∀ c, Class.decode (o.writer.run calls).2.build .unlimited = .ok c →
        c.Tells o (o.writer.run calls).1.told
          ∧ c.pool.entries.size = (o.writer.run calls).2.constants.size)
    ∧ (2 ^ 32 ≤ o.name.utf8ByteSize → ∀ c,
      Class.decode (o.writer.run calls).2.build .unlimited = .ok c → c.name ≠ o.name) := by
  have h := (Writer.gathered_writer o).run calls
  refine ⟨fun hname => ?_, fun hname c hc => ?_⟩
  · have hdecode : ∀ c, _ ↔ _ := fun c => (h.fits hcount hname).decode_encode_iff (d := c)
    refine ⟨⟨?_, fun hok => ⟨_, (hdecode _).2 ⟨h.acceptable_iff.2 hok, rfl⟩⟩⟩, fun c hc => ?_⟩
    · rintro ⟨c, hc⟩
      exact h.acceptable_iff.1 ((hdecode c).1 hc).1
    · obtain ⟨-, rfl⟩ := (hdecode c).1 hc
      exact ⟨h.tells, rfl⟩
  · intro heq
    have hlt := (Class.decode_iff.1 hc).1.name_lt
    rw [heq] at hlt
    omega

section Counter

def counter : WriterOpening :=
  ⟨some "Counter", .struct, .pub⟩

def counterCalls : List WriterCall :=
  [.constant (.float 0x7FF8000000000001), .field ⟨⟨0⟩, "value", ["u64"]⟩,
    .method ⟨.pub, .call, "add", ["u64", "Counter"], [0]⟩]

theorem told_counter : (counter.writer.run counterCalls).1.told
    = ⟨1, [(.float 0x7FF8000000000001, 1)], [⟨⟨0⟩, "value", ["u64"]⟩],
        [⟨.pub, .call, "add", ["u64", "Counter"], [0]⟩]⟩ := by
  have h₁ : "value".utf8ByteSize = 5 := by decide
  have h₂ : "u64".utf8ByteSize = 3 := by decide
  have h₃ : "add".utf8ByteSize = 3 := by decide
  simp [counter, counterCalls, WriterOpening.writer, Writer.run, Writer.call, Writer.named,
    Writer.anonymous, Writer.constant, Writer.nameFirst, Writer.constantFault?, Writer.field,
    Writer.method, Writer.member, Writer.text, Writer.texts, WriterTrace.told, Told.add,
    Told.nothing, WriterAnswer.ofIndex, WriterAnswer.ofUnit, Writer.maxConstants, h₁, h₂, h₃]

theorem countable_counter : (counter.writer.run counterCalls).1.told.Countable := by
  rw [told_counter]
  exact ⟨by decide, by decide, by simp, by simp⟩

/-- A field with one type and a method with two are read back with their names. -/
theorem Writer.decode_build_run_counter :
    ∃ c, Class.decode (counter.writer.run counterCalls).2.build .unlimited = .ok c
      ∧ c.name = "Counter" ∧ c.pool.entries[1]? = some (.float 0x7FF8000000000001)
      ∧ (∃ name tag, c.fields.toList = [⟨⟨0⟩, name, .single tag⟩]
        ∧ c.pool.entries[name.toNat]? = some (.text "value")
        ∧ c.pool.entries[tag.toNat]? = some (.text "u64"))
      ∧ ∃ name tag tag', c.methods.toList = [⟨.pub, .call, name, .chain [tag, tag'], [0]⟩]
        ∧ c.pool.entries[name.toNat]? = some (.text "add")
        ∧ c.pool.entries[tag.toNat]? = some (.text "u64")
        ∧ c.pool.entries[tag'.toNat]? = some (.text "Counter") := by
  have hok : (counter.writer.run counterCalls).1.told.Acceptable counter := by
    rw [told_counter]
    exact ⟨by decide, by unfold Access.Defined; decide, by decide, by simp [Access.Defined],
      by simp [Access.Defined, Access.pub]⟩
  obtain ⟨hiff, htells⟩ :=
    (Writer.decode_build_run counter counterCalls countable_counter).1 (by decide)
  obtain ⟨c, hc⟩ := hiff.2 hok
  have htell := (htells c hc).1
  rw [told_counter] at htell
  refine ⟨c, hc, htell.name, htell.indexed _ (List.mem_singleton_self _), ?_, ?_⟩
  · obtain ⟨⟨access, name, type⟩, _, ⟨rfl, hname, tags, hlists, hspells⟩, hnil, hfields⟩ :=
      List.forall₂_cons_right_iff.1 htell.fields
    obtain rfl := List.forall₂_nil_right_iff.1 hnil
    obtain ⟨tag, _, htag, hnil, rfl⟩ := List.forall₂_cons_right_iff.1 hspells
    obtain rfl := List.forall₂_nil_right_iff.1 hnil
    obtain rfl := hlists.unique .single
    exact ⟨name, tag, hfields, hname, htag⟩
  · obtain ⟨⟨access, dispatch, name, args, body⟩, _,
      ⟨rfl, rfl, hname, ⟨tags, hlists, hspells⟩, rfl⟩, hnil, hmethods⟩ :=
      List.forall₂_cons_right_iff.1 htell.methods
    obtain rfl := List.forall₂_nil_right_iff.1 hnil
    obtain ⟨tag, _, htag, hmore, rfl⟩ := List.forall₂_cons_right_iff.1 hspells
    obtain ⟨tag', _, htag', hnil, rfl⟩ := List.forall₂_cons_right_iff.1 hmore
    obtain rfl := List.forall₂_nil_right_iff.1 hnil
    obtain rfl := hlists.unique (.chain (by simp))
    exact ⟨name, tag, tag', hmethods, hname, htag, htag'⟩

end Counter

section LongName

/-- A text of `n` letters, each of one byte. -/
def letters (n : Nat) : String :=
  String.ofList (List.replicate n 'a')

theorem encode_letters (n : Nat) : Utf8.encode (letters n).toList = List.replicate n 0x61 := by
  have hone : String.utf8EncodeChar 'a' = [0x61] := by decide
  rw [letters, String.toList_ofList, Utf8.encode]
  induction n with
  | zero => rfl
  | succ n ih =>
    rw [List.replicate_succ, List.flatMap_cons, ih, hone]
    rfl

theorem utf8ByteSize_letters (n : Nat) : (letters n).utf8ByteSize = n := by
  rw [← length_encode_toList, encode_letters, List.length_replicate]

/-- The class file of a name that is told to be empty, up to its second letter: the letters stand
where the number of fields does and the access of the first of them. -/
def unnamed : List UInt8 :=
  [0x24, 0x47, 0x4C, 0x52, 1, 1, 1, 3, 0, 0, 0, 0, 0x61, 0x61]

theorem Writer.build_letters {n : Nat} (h : (n + 2) % 2 ^ 32 = 0) :
    ∃ rest, (named (letters (n + 2)) .struct .pub).build = unnamed ++ rest := by
  have hlength : LittleEndian.encode 4 (n + 2) = [0, 0, 0, 0] := by
    rw [← LittleEndian.encode_mod, show 1 <<< (8 * 4) = 2 ^ 32 from rfl, h]
    rfl
  have hname : Constant.encode (.text (letters (n + 2)))
      = [3, 0, 0, 0, 0, 0x61, 0x61] ++ List.replicate n 0x61 := by
    rw [Constant.encode, Constant.encodeValue, encode_letters, encodeSized, List.length_replicate,
      hlength]
    rfl
  have hone : Varint.encode 1 = [1] := rfl
  have hnone : Varint.encode 0 = [0] := rfl
  have hheader : Header.encode ⟨Header.minVersion, .struct, .pub⟩
      = [0x24, 0x47, 0x4C, 0x52, 1, 1] := rfl
  refine ⟨List.replicate n 0x61 ++ [0, 0], ?_⟩
  simp [Writer.build, Writer.header, encodeParts, encodeCounted, named, anonymous, unnamed, hname,
    hone, hnone, hheader]

theorem Class.decode_unnamed (rest : List UInt8) :
    Class.decode (unnamed ++ rest) .unlimited = .error (.undefinedAccess 0x61 13) :=
  rfl

/-- Nothing that the writer was told is unacceptable, and its class file is not read. -/
theorem Writer.long_name_unread :
    let o : WriterOpening := ⟨some (letters (2 ^ 32)), .struct, .pub⟩
    (o.writer.run []).1.told.Countable ∧ (o.writer.run []).1.told.Acceptable o
      ∧ Class.decode (o.writer.run []).2.build .unlimited = .error (.undefinedAccess 0x61 13) := by
  intro o
  refine ⟨⟨by decide, by decide, by rintro _ ⟨⟩, by rintro _ ⟨⟩⟩,
    ⟨by decide, by unfold Access.Defined; decide, by decide, by rintro _ ⟨⟩, by rintro _ ⟨⟩⟩, ?_⟩
  obtain ⟨rest, hbuild⟩ := build_letters (show (4294967294 + 2) % 2 ^ 32 = 0 by norm_num)
  exact (congrArg (Class.decode · .unlimited) hbuild).trans (Class.decode_unnamed rest)

end LongName

end ClassLoading
