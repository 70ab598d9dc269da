import ClassLoading.Memory.Script
import ClassLoading.Proofs.TableSteps
import ClassLoading.Registry.Basic

/-!
# A registry is an ordered map

A registry in order stores classes of different names, and its table holds one entry for each: the
hash of its name and its number (`Sound`). So a search finds a name exactly where a class of that
name is stored, whatever other names share its hash (`lookup?_eq_some_iff`).

In a run over a mapper that never crashes, every answer is right for the classes of the insertions
that succeeded before (`trace_right`).
-/

namespace ClassLoading

/-- What a registry can be asked. Who inserts a class keeps the number alone of what a registration
answers: the number and the class that is stored under it. -/
inductive RegistryCall where
  | register (c : Class)
  | find (name : String)
  | get (id : ClassId)
  | list
  | size

inductive RegistryAnswer where
  | registered (result : Except Fault (ClassId × Option Class))
  | found (class? : Option (ClassId × Class))
  | got (class? : Option Class)
  | listed (classes : List (ClassId × Class))
  | sized (n : Nat)

abbrev RegistryTrace :=
  List (RegistryCall × RegistryAnswer)

namespace RegistryTrace

/-- The classes of the registrations that succeeded, in order. -/
def registered (past : RegistryTrace) : List Class :=
  past.filterMap fun
    | (.register c, .registered (.ok _)) => some c
    | _ => none

end RegistryTrace

/-- The answers of an ordered map in which `classes` have been registered so far. -/
def RegistryAnswer.Right (classes : List Class) : RegistryCall → RegistryAnswer → Prop
  | .register c, .registered result =>
    (result = .error (.duplicateClass c.name) ↔ ∃ d ∈ classes, d.name = c.name)
      ∧ ∀ id stored?, result = .ok (id, stored?) → id.toNat = classes.length ∧ stored? = some c
  | .find name, .found class? =>
    ∀ id c, class? = some (id, c) ↔ classes[id.toNat]? = some c ∧ c.name = name
  | .get id, .got class? => class? = classes[id.toNat]?
  | .list, .listed pairs =>
    pairs.map Prod.snd = classes
      ∧ pairs.map (fun pair => pair.1.toNat) = List.range classes.length
  | .size, .sized n => n = classes.length
  | _, _ => False

theorem MapperScript.steady (script : MapperScript) (h : script.crashAfter = none) :
    script.mapper.Steady := by
  intro past extent offset size
  have hcrash : reached script.crashAfter past = false := by rw [h]; rfl
  show (if _ then _ else if _ then _ else if _ then _ else _) ≠ CommitAnswer.crashed
  rw [hcrash]
  split_ifs <;> simp at *

namespace Registry

def call (r : Registry) : RegistryCall → RegistryAnswer × Registry
  | .register c =>
    (.registered ((r.insert c).1.map fun id => (id, (r.insert c).2.get? id)), (r.insert c).2)
  | .find name => (.found ((r.find? name).bind fun id => (r.get? id).map (id, ·)), r)
  | .get id => (.got (r.get? id), r)
  | .list => (.listed r.toList, r)
  | .size => (.sized r.size, r)

def trace (r : Registry) : List RegistryCall → RegistryTrace
  | [] => []
  | c :: rest => (c, (r.call c).1) :: (r.call c).2.trace rest

/-- The registry after some calls. -/
def after (r : Registry) : List RegistryCall → Registry
  | [] => r
  | c :: rest => (r.call c).2.after rest

def entryWords (classes : List Class) : List UInt64 :=
  classes.zipIdx.map fun (c, i) => Slot.pack (hashName c.name) (UInt32.ofNat i)

/-- Classes of different names, and a table in order with an entry for each. -/
structure Sound (r : Registry) : Prop where
  table : r.table.Sound
  held : r.table.slotArray.held = (entryWords r.classes.toList : Multiset UInt64)
  nodup : (r.classes.toList.map Class.name).Nodup

variable {r : Registry}

section Lookup

theorem Sound.size_eq (h : r.Sound) : r.table.occupied = r.classes.size := by
  rw [← h.table.occupied, h.held, Multiset.coe_card, entryWords, List.length_map,
    List.length_zipIdx, Array.length_toList]

theorem Sound.size_le (h : r.Sound) : r.classes.size ≤ 2 ^ 31 := by
  have h1 := h.table.occupied_le
  have h2 := h.table.slots_le
  have h3 : r.table.maxSlots ≤ 2 ^ 31 := h.table.maxSlots_le
  rw [h.size_eq] at h1
  omega

theorem mem_entryWords {classes : List Class} {w : UInt64} :
    w ∈ entryWords classes ↔ ∃ i c, classes[i]? = some c
      ∧ w = Slot.pack (hashName c.name) (UInt32.ofNat i) := by
  unfold entryWords
  simp only [List.mem_map, Prod.exists, List.mem_zipIdx_iff_getElem?]
  constructor
  · rintro ⟨c, i, hc, rfl⟩
    exact ⟨i, c, hc, rfl⟩
  · rintro ⟨i, c, hc, rfl⟩
    exact ⟨c, i, hc, rfl⟩

theorem entryWords_push (classes : List Class) (c : Class) :
    entryWords (classes ++ [c])
      = entryWords classes ++ [Slot.pack (hashName c.name) (UInt32.ofNat classes.length)] := by
  simp [entryWords, List.zipIdx_append]

theorem isNamed_iff {name : String} {id : ClassId} :
    r.isNamed name id = true ↔ ∃ c, r.get? id = some c ∧ c.name = name := by
  unfold isNamed
  rcases r.get? id with _ | c <;> simp

theorem Sound.id_unique (h : r.Sound) {id id' : ClassId} {c c' : Class} (hc : r.get? id = some c)
    (hc' : r.get? id' = some c') (hname : c.name = c'.name) : id = id' := by
  unfold get? at hc hc'
  rw [← Array.getElem?_toList] at hc hc'
  have hlt : id.toNat < (r.classes.toList.map Class.name).length := by
    rw [List.length_map]
    exact (List.getElem?_eq_some_iff.1 hc).1
  apply UInt32.toNat_inj.mp
  refine (List.getElem?_inj hlt h.nodup).1 ?_
  rw [List.getElem?_map, List.getElem?_map, hc, hc', Option.map_some, Option.map_some, hname]

theorem Sound.mem_ids (h : r.Sound) {id : ClassId} {c : Class} (hc : r.get? id = some c) :
    id ∈ r.table.slotArray.ids (hashName c.name) := by
  unfold get? at hc
  rw [← Array.getElem?_toList] at hc
  have hlt := (List.getElem?_eq_some_iff.1 hc).1
  rw [Array.length_toList] at hlt
  have hsize := h.size_le
  have hid : id.toNat + 1 < 2 ^ 32 := by omega
  have hmem : Slot.pack (hashName c.name) id ∈ r.table.slotArray.held := by
    rw [h.held, Multiset.mem_coe, mem_entryWords]
    exact ⟨id.toNat, c, hc, by rw [UInt32.ofNat_toNat]⟩
  exact (SlotArray.mem_ids_iff h.table.array).2
    ⟨_, hmem, Slot.hash_pack hid, Slot.id_pack hid⟩

/-- A name is found just where a class of that name is stored. -/
theorem Sound.lookup?_eq_some_iff (h : r.Sound) {name : String} {id : ClassId} :
    r.lookup? name = some id ↔ ∃ c, r.get? id = some c ∧ c.name = name := by
  unfold lookup? Table.find?
  constructor
  · intro hfind
    exact isNamed_iff.1 (List.find?_some hfind)
  · rintro ⟨c, hc, rfl⟩
    rcases hfind : (r.table.slotArray.ids (hashName c.name)).find? (r.isNamed c.name) with _ | id'
    · rw [List.find?_eq_none] at hfind
      exact absurd (isNamed_iff.2 ⟨c, hc, rfl⟩) (hfind id (h.mem_ids hc))
    · obtain ⟨c', hc', hname⟩ := isNamed_iff.1 (List.find?_some hfind)
      rw [h.id_unique hc' hc hname]

/-- A registry that is not frozen answers what the table has. -/
theorem Sound.find?_eq_some_iff (h : r.Sound) (hf : r.frozen = false) {name : String}
    {id : ClassId} : r.find? name = some id ↔ ∃ c, r.get? id = some c ∧ c.name = name := by
  unfold find?
  rw [if_neg (by simp [hf]), Option.filter_eq_some_iff, h.lookup?_eq_some_iff]
  constructor
  · exact And.left
  · rintro ⟨c, hc, hname⟩
    exact ⟨⟨c, hc, hname⟩, by rw [hc]; rfl⟩

theorem exists_get?_iff {p : Class → Prop} (h : r.Sound) :
    (∃ id c, r.get? id = some c ∧ p c) ↔ ∃ c ∈ r.classes.toList, p c := by
  constructor
  · rintro ⟨id, c, hc, hp⟩
    exact ⟨c, Array.mem_toList_iff.2 (Array.mem_of_getElem? hc), hp⟩
  · rintro ⟨c, hc, hp⟩
    obtain ⟨i, hi, rfl⟩ := List.mem_iff_getElem.1 hc
    rw [Array.length_toList] at hi
    have hsize := h.size_le
    refine ⟨UInt32.ofNat i, _, ?_, hp⟩
    unfold get?
    rw [UInt32.toNat_ofNat_of_lt' (by show i < 2 ^ 32; omega), Array.getElem_toList]
    exact Array.getElem?_eq_getElem hi

theorem Sound.isSome_lookup?_iff (h : r.Sound) {name : String} :
    (r.lookup? name).isSome = true ↔ ∃ c ∈ r.classes.toList, c.name = name := by
  rw [← exists_get?_iff h, Option.isSome_iff_exists]
  exact exists_congr fun id => h.lookup?_eq_some_iff

end Lookup

section Steps

theorem Sound.of_table (h : r.Sound) {t : Table} (ht : t.Sound)
    (hheld : t.slotArray.held = r.table.slotArray.held) :
    { r with table := t }.Sound :=
  ⟨ht, hheld.trans h.held, h.nodup⟩

/-- What a registry has become by one more class. -/
structure Grown (r : Registry) (c : Class) (r' : Registry) : Prop where
  sound : r'.Sound
  frozen : r'.frozen = r.frozen
  mapper : r'.table.arena.mapper = r.table.arena.mapper
  classes : r'.classes = r.classes.push c

theorem exists_store (h : r.Sound) (hroom : r.table.occupied < r.table.slots) {c : Class}
    (hnew : ∀ d ∈ r.classes.toList, d.name ≠ c.name) :
    ∃ r', r.store c = (.ok (UInt32.ofNat r.size), r') ∧ r.Grown c r' := by
  have hsize := h.size_le
  obtain ⟨t, hinsert, ht⟩ :=
    Table.exists_insert h.table hroom (hashName c.name) (UInt32.ofNat r.size)
  refine ⟨{ r with classes := r.classes.push c, table := t }, ?_, ⟨⟨ht.sound, ?_, ?_⟩, rfl,
    ht.mapper, rfl⟩⟩
  · unfold store
    rw [if_neg (by unfold size; omega)]
    simp only [hinsert]
  · have hlen : r.size = r.classes.toList.length := Array.length_toList.symm
    rw [ht.held, h.held, Array.toList_push, entryWords_push, ← hlen]
    exact Multiset.coe_eq_coe.2 (List.perm_append_singleton _ _).symm
  · rw [Array.toList_push, List.map_append, List.nodup_append]
    refine ⟨h.nodup, by simp, ?_⟩
    intro name hname name' hname' heq
    obtain ⟨d, hd, rfl⟩ := List.mem_map.1 hname
    rw [List.map_singleton, List.mem_singleton] at hname'
    exact hnew d hd (heq.trans hname')

theorem insert_duplicate (hf : r.frozen = false) {c : Class}
    (hdup : (r.lookup? c.name).isSome = true) :
    r.insert c = (.error (.duplicateClass c.name), r) := by
  unfold insert
  rw [if_neg (by simp [hf]), if_pos hdup]

theorem insert_of_makeRoom_ok (hf : r.frozen = false) {c : Class}
    (hnew : ¬ (r.lookup? c.name).isSome = true) {t : Table}
    (hmake : r.table.makeRoom = (.ok (), t)) : r.insert c = store { r with table := t } c := by
  unfold insert
  rw [if_neg (by simp [hf]), if_neg hnew, hmake]

theorem insert_of_makeRoom_fault (hf : r.frozen = false) {c : Class}
    (hnew : ¬ (r.lookup? c.name).isSome = true) {fault : Fault} {t : Table}
    (hmake : r.table.makeRoom = (.error fault, t)) :
    r.insert c
      = (.error fault, { r with table := t, frozen := decide (fault = .mapperCrashed) }) := by
  unfold insert
  rw [if_neg (by simp [hf]), if_neg hnew, hmake]
  split
  · rename_i heq
    cases heq
    rfl
  · rename_i hcrash heq
    cases heq
    rw [decide_eq_false hcrash, hf]
  · rename_i heq
    cases heq

theorem insert_of_makeRoom_error (hf : r.frozen = false) {c : Class}
    (hnew : ¬ (r.lookup? c.name).isSome = true) {fault : Fault} {t : Table}
    (hmake : r.table.makeRoom = (.error fault, t)) (hcrash : fault ≠ .mapperCrashed) :
    r.insert c = (.error fault, { r with table := t }) := by
  rw [insert_of_makeRoom_fault hf hnew hmake, decide_eq_false hcrash, ← hf]

/-- The insertion of a class of a new name fails with the classes as they are, and freezes the
registry if the mapper has crashed, or it registers the class. -/
theorem insert_new_cases (h : r.Sound) (hf : r.frozen = false) {c : Class}
    (hnew : ∀ d ∈ r.classes.toList, d.name ≠ c.name) :
    (∃ fault history, r.insert c = (.error fault,
        { r with
          table := { r.table with arena := { r.table.arena with history := history } }
          frozen := decide (fault = .mapperCrashed) })
        ∧ fault ≠ .duplicateClass c.name
        ∧ (r.table.arena.mapper.Steady → fault ≠ .mapperCrashed))
      ∨ ∃ r', r.insert c = (.ok (UInt32.ofNat r.size), r') ∧ r.Grown c r' := by
  have hdup : ¬ (r.lookup? c.name).isSome = true := by
    rw [h.isSome_lookup?_iff]
    rintro ⟨d, hd, hname⟩
    exact hnew d hd hname
  rcases Table.makeRoom_cases h.table with ⟨hmake, hroom⟩ | ⟨t, hmake, ht, hroom⟩ |
    ⟨fault, history, hmake, hfault, hcrash⟩
  · rw [insert_of_makeRoom_ok hf hdup hmake]
    exact .inr (exists_store h hroom hnew)
  · rw [insert_of_makeRoom_ok hf hdup hmake]
    obtain ⟨r', hstore, hr'⟩ := exists_store (h.of_table ht.sound ht.held) hroom hnew
    exact .inr ⟨r', hstore, ⟨hr'.sound, hr'.frozen, hr'.mapper.trans ht.mapper, hr'.classes⟩⟩
  · exact .inl ⟨fault, history, insert_of_makeRoom_fault hf hdup hmake, hfault _, hcrash⟩

theorem insert_frozen (h : r.frozen = true) (c : Class) : r.insert c = (.error .frozen, r) :=
  if_pos h

/-- An insertion fails with the classes as they are, or registers the class in a registry that is
not frozen. -/
theorem Sound.insert_cases (h : r.Sound) (c : Class) :
    (∃ fault, (r.insert c).1 = .error fault ∧ (r.insert c).2.Sound
        ∧ (r.insert c).2.classes = r.classes
        ∧ (fault ≠ .mapperCrashed → (r.insert c).2.frozen = r.frozen))
      ∨ r.frozen = false ∧ ∃ r', r.insert c = (.ok (UInt32.ofNat r.size), r') ∧ r.Grown c r' := by
  by_cases hf : r.frozen = true
  · rw [insert_frozen hf]
    exact .inl ⟨_, rfl, h, rfl, fun _ => rfl⟩
  rw [Bool.not_eq_true] at hf
  by_cases hdup : ∃ d ∈ r.classes.toList, d.name = c.name
  · rw [insert_duplicate hf (h.isSome_lookup?_iff.2 hdup)]
    exact .inl ⟨_, rfl, h, rfl, fun _ => rfl⟩
  rcases insert_new_cases h hf fun d hd hname => hdup ⟨d, hd, hname⟩ with
    ⟨fault, history, hinsert, -, -⟩ | hgrown
  · rw [hinsert]
    refine .inl ⟨fault, rfl, ⟨h.table.history history, h.held, h.nodup⟩, rfl, fun hcrash => ?_⟩
    rw [hf]
    exact decide_eq_false hcrash
  · exact .inr ⟨hf, hgrown⟩

/-- Over a mapper that never crashes, an insertion refuses a name that is there, fails with the
classes as they are, or registers the class. -/
theorem insert_cases (h : r.Sound) (hf : r.frozen = false) (hm : r.table.arena.mapper.Steady)
    (c : Class) :
    ((∃ d ∈ r.classes.toList, d.name = c.name)
        ∧ r.insert c = (.error (.duplicateClass c.name), r))
      ∨ ((∀ d ∈ r.classes.toList, d.name ≠ c.name) ∧ ∃ fault history,
        r.insert c = (.error fault,
          { r with table := { r.table with arena := { r.table.arena with history := history } } })
        ∧ fault ≠ .duplicateClass c.name)
      ∨ ((∀ d ∈ r.classes.toList, d.name ≠ c.name) ∧
        ∃ r', r.insert c = (.ok (UInt32.ofNat r.size), r') ∧ r.Grown c r') := by
  by_cases hdup : ∃ d ∈ r.classes.toList, d.name = c.name
  · exact .inl ⟨hdup, insert_duplicate hf (h.isSome_lookup?_iff.2 hdup)⟩
  have hnew : ∀ d ∈ r.classes.toList, d.name ≠ c.name := fun d hd hname => hdup ⟨d, hd, hname⟩
  rcases insert_new_cases h hf hnew with ⟨fault, history, hinsert, hfault, hcrash⟩ | hgrown
  · rw [decide_eq_false (hcrash hm), ← hf] at hinsert
    exact .inr (.inl ⟨hnew, fault, history, hinsert, hfault⟩)
  · exact .inr (.inr ⟨hnew, hgrown⟩)

end Steps

section Runs

/-- A registry that still registers, over a mapper that never crashes. -/
structure Ready (r : Registry) : Prop where
  sound : r.Sound
  frozen : r.frozen = false
  steady : r.table.arena.mapper.Steady

theorem sound_of_new {mapper : Mapper} {sizing : Sizing} (h : Registry.new mapper sizing = .ok r) :
    r.Sound ∧ r.table.arena.mapper = mapper ∧ r.frozen = false ∧ r.classes = #[] := by
  unfold new at h
  rcases ht : Table.new mapper sizing with refusal | t <;> rw [ht] at h
  · cases h
  · cases h
    obtain ⟨hsound, hheld, hmapper⟩ := Table.sound_of_new ht
    exact ⟨⟨hsound, hheld, List.nodup_nil⟩, hmapper, rfl, rfl⟩

theorem ready_of_new {mapper : Mapper} {sizing : Sizing} (h : Registry.new mapper sizing = .ok r)
    (hm : mapper.Steady) : r.Ready ∧ r.classes = #[] := by
  obtain ⟨hsound, hmapper, hf, hempty⟩ := sound_of_new h
  exact ⟨⟨hsound, hf, hmapper ▸ hm⟩, hempty⟩

theorem find?_right (h : r.Ready) (name : String) :
    RegistryAnswer.Right r.classes.toList (.find name)
      (.found ((r.find? name).bind fun id => (r.get? id).map (id, ·))) := by
  intro id c
  rw [Array.getElem?_toList]
  show _ ↔ r.get? id = some c ∧ _
  simp only [Option.bind_eq_some_iff, Option.map_eq_some_iff, Prod.mk.injEq]
  constructor
  · rintro ⟨_, hfind, c', hc', rfl, rfl⟩
    obtain ⟨c'', hc'', hname⟩ := (h.sound.find?_eq_some_iff h.frozen).1 hfind
    rw [hc', Option.some.injEq] at hc''
    exact ⟨hc', hc'' ▸ hname⟩
  · rintro ⟨hc, hname⟩
    exact ⟨id, (h.sound.find?_eq_some_iff h.frozen).2 ⟨c, hc, hname⟩, c, hc, rfl, rfl⟩

theorem toList_right (h : r.Sound) :
    RegistryAnswer.Right r.classes.toList .list (.listed r.toList) := by
  have hsize := h.size_le
  constructor
  · unfold toList
    rw [List.map_map]
    exact List.zipIdx_map_fst 0 _
  · unfold toList
    rw [List.map_map, List.range_eq_range', ← List.zipIdx_map_snd]
    refine List.map_congr_left fun pair hpair => ?_
    have hlt := List.snd_lt_of_mem_zipIdx hpair
    exact UInt32.toNat_ofNat_of_lt' (by
      show pair.2 < 2 ^ 32
      rw [Array.length_toList] at hlt
      omega)

open RegistryTrace in
/-- A call is answered right, and what it registers comes behind the classes before. -/
theorem call_right (h : r.Ready) (c : RegistryCall) :
    RegistryAnswer.Right r.classes.toList c (r.call c).1 ∧ (r.call c).2.Ready
      ∧ (r.call c).2.classes.toList = r.classes.toList ++ registered [(c, (r.call c).1)] := by
  cases c with
  | register c =>
    rcases insert_cases h.sound h.frozen h.steady c with ⟨hdup, hinsert⟩ |
      ⟨hnew, fault, history, hinsert, hfault⟩ | ⟨hnew, r', hinsert, hr'⟩
    · simp only [call, hinsert]
      exact ⟨⟨by simpa [Except.map] using hdup, by simp [Except.map]⟩, h,
        by simp [registered, Except.map]⟩
    · simp only [call, hinsert]
      refine ⟨⟨?_, by simp [Except.map]⟩, ⟨h.sound.of_table (h.sound.table.history history) rfl,
        h.frozen, h.steady⟩, by simp [registered, Except.map]⟩
      simpa [Except.map, hfault] using hnew
    · have hsize := h.sound.size_le
      have hid : (UInt32.ofNat r.size).toNat = r.classes.size :=
        UInt32.toNat_ofNat_of_lt' (by show r.classes.size < 2 ^ 32; omega)
      simp only [call, hinsert]
      refine ⟨⟨by simpa [Except.map] using hnew, ?_⟩, ⟨hr'.sound, hr'.frozen.trans h.frozen,
        hr'.mapper ▸ h.steady⟩, by simp [registered, Except.map, hr'.classes]⟩
      rintro id stored? hok
      simp only [Except.map, Except.ok.injEq, Prod.mk.injEq] at hok
      obtain ⟨rfl, rfl⟩ := hok
      refine ⟨by rw [hid, Array.length_toList], ?_⟩
      unfold get?
      rw [hid, hr'.classes, Array.getElem?_push_size]
  | find name => exact ⟨find?_right h name, h, by simp [call, registered]⟩
  | get id =>
    refine ⟨?_, h, by simp [call, registered]⟩
    show r.get? id = r.classes.toList[id.toNat]?
    rw [Array.getElem?_toList, get?]
  | list => exact ⟨toList_right h.sound, h, by simp [call, registered]⟩
  | size => exact ⟨Array.length_toList.symm, h, by simp [call, registered]⟩

theorem trace_from_right :
    ∀ (calls : List RegistryCall) {r : Registry}, r.Ready →
      ∀ {before : RegistryTrace} {step after}, r.trace calls = before ++ step :: after →
        ((r.classes.toList ++ before.registered).map Class.name).Nodup
          ∧ RegistryAnswer.Right (r.classes.toList ++ before.registered) step.1 step.2
  | [], r, _, before, step, after, h => by simp [trace] at h
  | c :: calls, r, hr, before, step, after, h => by
    obtain ⟨hright, hready, hclasses⟩ := call_right hr c
    rw [trace] at h
    rcases before with _ | ⟨first, before⟩
    · rw [List.nil_append, List.cons.injEq] at h
      obtain ⟨rfl, -⟩ := h
      rw [show RegistryTrace.registered [] = [] from rfl, List.append_nil]
      exact ⟨hr.sound.nodup, hright⟩
    · rw [List.cons_append, List.cons.injEq] at h
      obtain ⟨rfl, h⟩ := h
      have ih := trace_from_right calls hready h
      have hsplit : RegistryTrace.registered ((c, (r.call c).1) :: before)
          = RegistryTrace.registered [(c, (r.call c).1)] ++ RegistryTrace.registered before :=
        List.filterMap_append (l := [(c, (r.call c).1)])
      rw [hclasses, List.append_assoc, ← hsplit] at ih
      exact ih

/-- Whatever the mapper grants or refuses, each answer of a run is right for the classes registered
before it, whose names are all different. -/
theorem trace_right {mapper : Mapper} {sizing : Sizing} (h : Registry.new mapper sizing = .ok r)
    (hm : mapper.Steady) (calls : List RegistryCall) {before : RegistryTrace}
    {step : RegistryCall × RegistryAnswer} {after : RegistryTrace}
    (hrun : r.trace calls = before ++ step :: after) :
    (before.registered.map Class.name).Nodup
      ∧ RegistryAnswer.Right before.registered step.1 step.2 := by
  obtain ⟨hready, hempty⟩ := ready_of_new h hm
  have := trace_from_right calls hready hrun
  rwa [hempty] at this

/-- Pages of one slot, two of which are granted. -/
def tight : MapperScript where
  pageSize := 8
  failAfter := some 2

def unfurnished (name : String) : Class :=
  ⟨.struct, .pub, 1, name, #[], #[], ⟨#[]⟩⟩

/-- Two names of one hash, and a search for the later one. -/
def collidingCalls : List RegistryCall :=
  [.register (unfurnished "declinate"), .register (unfurnished "macallums"), .find "macallums"]

theorem trace_right_colliding :
    ∃ r, Registry.new tight.mapper ⟨1, 4, 95⟩ = .ok r ∧ tight.mapper.Steady
      ∧ hashName "declinate" = hashName "macallums"
      ∧ ∃ (before : RegistryTrace) (step : RegistryCall × RegistryAnswer) (after : RegistryTrace),
        r.trace collidingCalls = before ++ step :: after ∧ step.1 = .find "macallums"
          ∧ (before.registered.map Class.name).Nodup
          ∧ RegistryAnswer.Right before.registered step.1 step.2 := by
  have hnew : Registry.new tight.mapper ⟨1, 4, 95⟩ = .ok _ := rfl
  exact ⟨_, hnew, tight.steady rfl, by decide +kernel, [_, _], _, [], rfl, rfl,
    trace_right hnew (tight.steady rfl) collidingCalls rfl⟩

end Runs

end Registry

end ClassLoading
