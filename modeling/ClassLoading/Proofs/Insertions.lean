import ClassLoading.Loader
import ClassLoading.Proofs.Growth
import ClassLoading.Proofs.RegistryRuns

/-!
# What an insertion comes to

An insertion that fails leaves a registry as it was, and so does a load (`failed_insert_unchanged`).
Once room has been made nothing can fail, so no class is stored that cannot be found, and no entry
of the table stands for a class that is not stored.

Over a mapper that never crashes, four things can happen, and the state of the registry says which
(`insert_outcome`): the name is taken, the mapper refuses a commit that is needed, the largest table
is full, or the class gets the next number. So a registry takes as many classes as its largest
table has slots, if its mapper grants them.
-/

namespace ClassLoading

namespace Registry

variable {mapper : Mapper} {sizing : Sizing} {r : Registry}

/-- A registry that calls have made of a new one. -/
inductive Reachable (mapper : Mapper) (sizing : Sizing) : Registry → Prop
  | new {r : Registry} : Registry.new mapper sizing = .ok r → Reachable mapper sizing r
  | call {r : Registry} (c : RegistryCall) : Reachable mapper sizing r →
    Reachable mapper sizing (r.call c).2

section Tables

theorem store_table (r : Registry) (c : Class) :
    ∃ calls, (r.store c).2.table = r.table.after calls := by
  unfold store
  split_ifs
  · exact ⟨[], rfl⟩
  · refine ⟨[.insert (hashName c.name) (UInt32.ofNat r.size)], ?_⟩
    simp only [Table.after, Table.call]
    rcases r.table.insert (hashName c.name) (UInt32.ofNat r.size) with ⟨fault | _, t⟩ <;> rfl

/-- An insertion changes nothing, fails to make room, or stores the class in the room made. -/
theorem insert_steps (r : Registry) (c : Class) :
    (r.insert c).2 = r
      ∨ (∃ fault t, r.table.makeRoom = (.error fault, t) ∧ (r.insert c).1 = .error fault
        ∧ (r.insert c).2.table = t)
      ∨ ∃ t, r.table.makeRoom = (.ok (), t) ∧ r.insert c = store { r with table := t } c := by
  unfold insert
  split_ifs
  · exact .inl rfl
  · exact .inl rfl
  · rcases r.table.makeRoom with ⟨fault | _, t⟩
    · refine .inr (.inl ⟨fault, t, rfl, ?_⟩)
      split <;> rename_i heq <;> cases heq <;> exact ⟨rfl, rfl⟩
    · exact .inr (.inr ⟨t, rfl, rfl⟩)

theorem insert_table (r : Registry) (c : Class) :
    ∃ calls, (r.insert c).2.table = r.table.after calls := by
  have hmake : r.table.after [.makeRoom] = r.table.makeRoom.2 := rfl
  rcases r.insert_steps c with hsame | ⟨fault, t, hroom, -, rfl⟩ | ⟨t, hroom, hinsert⟩
  · exact ⟨[], by rw [hsame]; rfl⟩
  · exact ⟨[.makeRoom], by rw [hmake, hroom]⟩
  · obtain ⟨calls, hcalls⟩ := store_table { r with table := t } c
    refine ⟨[.makeRoom] ++ calls, ?_⟩
    rw [Table.after_append, hmake, hroom, hinsert, hcalls]

/-- What becomes of a registry's table is what calls on the table make of it. -/
theorem call_table (r : Registry) (c : RegistryCall) :
    ∃ calls, (r.call c).2.table = r.table.after calls := by
  cases c with
  | register c => exact r.insert_table c
  | find name => exact ⟨[], rfl⟩
  | get id => exact ⟨[], rfl⟩
  | list => exact ⟨[], rfl⟩
  | size => exact ⟨[], rfl⟩

end Tables

section Reached

/-- What is known of a registry over a mapper that never crashes. -/
structure Reached (mapper : Mapper) (sizing : Sizing) (r : Registry) : Prop where
  ready : r.Ready
  backed : r.table.Backed
  mapper_eq : r.table.arena.mapper = mapper
  maxSlots : r.table.maxSlots = sizing.maxSlots
  loadPercent : r.table.loadPercent = sizing.loadPercent
  load_le : sizing.loadPercent ≤ 95

theorem table_of_new (h : Registry.new mapper sizing = .ok r) :
    Table.new mapper sizing = .ok r.table := by
  unfold new at h
  rcases ht : Table.new mapper sizing with refusal | t <;> rw [ht] at h <;> cases h
  rfl

theorem reached_of_new (h : Registry.new mapper sizing = .ok r) (hm : mapper.Steady) :
    r.Reached mapper sizing := by
  have htable := table_of_new h
  obtain ⟨hvalid, -⟩ := Table.exists_of_new htable
  obtain ⟨-, -, -, -, -, hload⟩ := Sizing.rules_of_validate hvalid
  obtain ⟨-, -, hmax, hpercent⟩ := Table.sizes_of_new htable
  exact ⟨(ready_of_new h hm).1, Table.backed_of_new htable, (Table.sound_of_new htable).2.2, hmax,
    hpercent, hload⟩

theorem Reached.call (h : r.Reached mapper sizing) (c : RegistryCall) :
    (r.call c).2.Reached mapper sizing := by
  obtain ⟨calls, htable⟩ := r.call_table c
  obtain ⟨-, hready, -⟩ := call_right h.ready c
  have hkeeps := Table.keeps_after calls r.table
  have hbacked := Table.backed_after calls h.ready.sound.table h.backed
  rw [← htable] at hkeeps hbacked
  exact ⟨hready, hbacked, hkeeps.mapper.trans h.mapper_eq, hkeeps.maxSlots.trans h.maxSlots,
    hkeeps.loadPercent.trans h.loadPercent, h.load_le⟩

theorem Reached.insert (h : r.Reached mapper sizing) (c : Class) :
    (r.insert c).2.Reached mapper sizing :=
  h.call (.register c)

theorem Reachable.reached (h : Reachable mapper sizing r) (hm : mapper.Steady) :
    r.Reached mapper sizing := by
  induction h with
  | new h => exact reached_of_new h hm
  | call c _ ih => exact ih.call c

end Reached

section Failures

/-- Nothing that can be seen of a registry has changed. -/
structure Unchanged (r r' : Registry) : Prop where
  words : r'.table.slotArray.word = r.table.slotArray.word
  slots : r'.table.slots = r.table.slots
  occupied : r'.table.occupied = r.table.occupied
  committed : r'.table.arena.committed = r.table.arena.committed
  classes : r'.classes = r.classes
  frozen : r'.frozen = r.frozen

theorem Unchanged.refl (r : Registry) : r.Unchanged r :=
  ⟨rfl, rfl, rfl, rfl, rfl, rfl⟩

/-- Every class that is stored is found by its name, and every entry of the table stands for a
class that is stored. -/
structure Indexed (r : Registry) : Prop where
  found : ∀ i c, r.classes[i]? = some c →
    ∃ id : ClassId, id.toNat = i ∧ r.find? c.name = some id
  stored : ∀ w ∈ r.table.slotArray.held,
    ∃ c, r.get? (Slot.id w) = some c ∧ hashName c.name = Slot.hash w

theorem Ready.insert_unchanged (h : r.Ready) {c : Class} {fault : Fault}
    (hfail : (r.insert c).1 = .error fault) : r.Unchanged (r.insert c).2 := by
  rcases insert_cases h.sound h.frozen h.steady c with ⟨-, hinsert⟩ |
    ⟨-, fault', history, hinsert, -⟩ | ⟨-, r', hinsert, -⟩ <;> rw [hinsert] at hfail ⊢
  · exact Unchanged.refl r
  · exact ⟨rfl, rfl, rfl, rfl, rfl, rfl⟩
  · cases hfail

theorem Ready.load_unchanged (h : r.Ready) {config : LoaderConfig} {bytes : List UInt8}
    {fault : Fault} (hfail : ((Loader.mk config r).load bytes).1 = .error fault) :
    r.Unchanged ((Loader.mk config r).load bytes).2.registry := by
  unfold Loader.load at hfail ⊢
  rcases hdecode : (Loader.mk config r).decode bytes with fault' | c <;> rw [hdecode] at hfail
  · exact Unchanged.refl r
  · exact h.insert_unchanged hfail

/-- Once there is room, an entry goes in. -/
theorem insert_of_makeRoom {t t' : Table} (h : t.Sound) (hmake : t.makeRoom = (.ok (), t'))
    (hash id : UInt32) : (t'.insert hash id).1 = .ok () := by
  obtain ⟨hsound, -, -, hroom⟩ := Table.sizes_of_makeRoom_ok h hmake
  obtain ⟨t'', hinsert, -⟩ := Table.exists_insert hsound hroom hash id
  rw [hinsert]

theorem Ready.indexed (h : r.Ready) : r.Indexed := by
  have hsize := h.sound.size_le
  have hid : ∀ {i : Nat} {c : Class}, r.classes[i]? = some c → (UInt32.ofNat i).toNat = i := by
    intro i c hc
    have hlt := (Array.getElem?_eq_some_iff.1 hc).1
    exact UInt32.toNat_ofNat_of_lt' (by show i < 2 ^ 32; omega)
  constructor
  · intro i c hc
    have hget : r.get? (UInt32.ofNat i) = some c := by
      rw [get?, hid hc]
      exact hc
    exact ⟨UInt32.ofNat i, hid hc, (h.sound.find?_eq_some_iff h.frozen).2 ⟨c, hget, rfl⟩⟩
  · intro w hw
    rw [h.sound.held, Multiset.mem_coe, mem_entryWords] at hw
    obtain ⟨i, c, hc, rfl⟩ := hw
    rw [Array.getElem?_toList] at hc
    have hlt := (Array.getElem?_eq_some_iff.1 hc).1
    have hfits : (UInt32.ofNat i).toNat + 1 < 2 ^ 32 := by
      rw [hid hc]
      omega
    refine ⟨c, ?_, (Slot.hash_pack hfits).symm⟩
    rw [Slot.id_pack hfits, get?, hid hc]
    exact hc

/-- A failed insertion or load changes nothing, nothing fails once there is room, and so the classes
that are stored are those that can be found. -/
theorem failed_insert_unchanged (h : Reachable mapper sizing r) (hm : mapper.Steady) :
    (∀ c fault, (r.insert c).1 = .error fault → r.Unchanged (r.insert c).2)
      ∧ (∀ config bytes fault, ((Loader.mk config r).load bytes).1 = .error fault →
        r.Unchanged ((Loader.mk config r).load bytes).2.registry)
      ∧ (∀ t, r.table.makeRoom = (.ok (), t) → ∀ hash id, (t.insert hash id).1 = .ok ())
      ∧ r.Indexed := by
  have hready := (h.reached hm).ready
  refine ⟨fun c fault => hready.insert_unchanged, fun config bytes fault => hready.load_unchanged,
    fun t hmake hash id => ?_, hready.indexed⟩
  exact insert_of_makeRoom hready.sound.table hmake hash id

/-- A second class takes pages that are refused, and an empty file holds no class. -/
theorem failed_insert_unchanged_refused :
    ∃ r, Reachable tight.mapper ⟨1, 4, 95⟩ r ∧ tight.mapper.Steady
      ∧ (r.insert (unfurnished "macallums")).1 = .error (.commitFailed 16 16 "no commits left")
      ∧ r.Unchanged (r.insert (unfurnished "macallums")).2
      ∧ r.Unchanged ((Loader.mk {} r).load []).2.registry ∧ r.Indexed := by
  have hnew : Registry.new tight.mapper ⟨1, 4, 95⟩ = .ok _ := rfl
  have hm := tight.steady rfl
  obtain ⟨r, hreachable, hrefused, hempty⟩ : ∃ r, Reachable tight.mapper ⟨1, 4, 95⟩ r
      ∧ (r.insert (unfurnished "macallums")).1 = .error (.commitFailed 16 16 "no commits left")
      ∧ ((Loader.mk {} r).load []).1 = .error (.truncated 0 4 0) :=
    ⟨_, .call (.register (unfurnished "declinate")) (.new hnew), by decide +kernel, rfl⟩
  obtain ⟨hinsert, hload, -, hindexed⟩ := failed_insert_unchanged hreachable hm
  exact ⟨r, hreachable, hm, hrefused, hinsert _ _ hrefused, hload _ _ _ hempty, hindexed⟩

end Failures

section Outcome

/-- Whether a class of that name is registered. -/
def Registers (r : Registry) (name : String) : Prop :=
  ∃ d ∈ r.classes.toList, d.name = name

/-- One more class would exceed the load factor of a table that can still grow, twice the slots go
beyond the committed bytes, and the mapper refuses the pages for them. -/
structure Refused (mapper : Mapper) (sizing : Sizing) (r : Registry) (reason : String) : Prop where
  crowded : r.table.slots * sizing.loadPercent < (r.size + 1) * 100
  growing : r.table.slots < sizing.maxSlots
  missing : r.table.arena.committed < 2 * r.table.slots * slotSize
  refused : mapper.onCommit r.table.arena.history r.table.arena.range.toExtent
    r.table.arena.committed (r.table.growthEnd - r.table.arena.committed) = .refused reason

/-- How the insertion of a class is answered: the first of four cases that holds, and no other. -/
structure Outcome (mapper : Mapper) (sizing : Sizing) (r : Registry) (c : Class)
    (result : Except Fault ClassId) : Prop where
  duplicate : result = .error (.duplicateClass c.name) ↔ r.Registers c.name
  refused : ∀ size offset reason, result = .error (.commitFailed size offset reason) ↔
    ¬ r.Registers c.name ∧ r.Refused mapper sizing reason ∧ offset = r.table.arena.committed
      ∧ size = r.table.growthEnd - r.table.arena.committed
  full : ∀ slots, result = .error (.registryFull slots) ↔
    ¬ r.Registers c.name ∧ (∀ reason, ¬ r.Refused mapper sizing reason)
      ∧ r.size = sizing.maxSlots ∧ slots = sizing.maxSlots
  registered : ∀ id, result = .ok id ↔
    ¬ r.Registers c.name ∧ (∀ reason, ¬ r.Refused mapper sizing reason)
      ∧ r.size ≠ sizing.maxSlots ∧ id.toNat = r.size
  only : (∃ id, result = .ok id) ∨ result = .error (.duplicateClass c.name)
    ∨ (∃ size offset reason, result = .error (.commitFailed size offset reason))
    ∨ result = .error (.registryFull sizing.maxSlots)

theorem Refused.unique {reason reason' : String} (h : r.Refused mapper sizing reason)
    (h' : r.Refused mapper sizing reason') : reason = reason' := by
  have := h.refused.symm.trans h'.refused
  rwa [CommitAnswer.refused.injEq] at this

theorem Reached.refused_iff (h : r.Reached mapper sizing) {reason : String} :
    r.Refused mapper sizing reason ↔
      r.table.NeedsPages ∧ r.table.growthAnswer = .refused reason := by
  have hsize : r.table.occupied = r.size := h.ready.sound.size_eq
  obtain ⟨-, -, rfl, hmax, hload, -⟩ := h
  constructor
  · rintro ⟨h1, h2, h3, h4⟩
    rw [← hsize, ← hload] at h1
    rw [← hmax] at h2
    exact ⟨⟨h1, h2, h3⟩, h4⟩
  · rintro ⟨⟨h1, h2, h3⟩, h4⟩
    rw [hsize, hload] at h1
    rw [hmax] at h2
    exact ⟨h1, h2, h3, h4⟩

theorem Reached.toNat_size (h : r.Reached mapper sizing) : (UInt32.ofNat r.size).toNat = r.size := by
  have hsize : r.size ≤ 2 ^ 31 := h.ready.sound.size_le
  exact UInt32.toNat_ofNat_of_lt' (by show r.size < 2 ^ 32; omega)

theorem Reached.insert_duplicate (h : r.Reached mapper sizing) {c : Class}
    (hdup : r.Registers c.name) : (r.insert c).1 = .error (.duplicateClass c.name) := by
  rw [Registry.insert_duplicate h.ready.frozen (h.ready.sound.isSome_lookup?_iff.2 hdup)]

/-- A class of a new name meets a refusal or a full table, or gets the next number. -/
theorem Reached.insert_new (h : r.Reached mapper sizing) {c : Class}
    (hnew : ¬ r.Registers c.name) :
    (∃ reason, r.Refused mapper sizing reason ∧ (r.insert c).1 = .error
        (.commitFailed (r.table.growthEnd - r.table.arena.committed) r.table.arena.committed reason))
      ∨ ((∀ reason, ¬ r.Refused mapper sizing reason) ∧ (r.insert c).1 =
        if r.size = sizing.maxSlots then .error (.registryFull sizing.maxSlots)
        else .ok (UInt32.ofNat r.size)) := by
  have hsize : r.table.occupied = r.size := h.ready.sound.size_eq
  have hlookup := h.ready.sound.isSome_lookup?_iff.not.2 hnew
  have hnames : ∀ d ∈ r.classes.toList, d.name ≠ c.name := fun d hd hname => hnew ⟨d, hd, hname⟩
  rcases Table.makeRoom_outcome h.ready.sound.table h.backed (h.loadPercent ▸ h.load_le) with
    ⟨-, hcrash, -⟩ | ⟨reason, hneeds, hanswer, hmake⟩ | ⟨hgranted, hmake⟩
  · exact absurd hcrash (h.ready.steady _ _ _ _)
  · refine .inl ⟨reason, h.refused_iff.2 ⟨hneeds, hanswer⟩, ?_⟩
    rw [insert_of_makeRoom_error h.ready.frozen hlookup (Prod.ext hmake rfl) (by simp)]
  · refine .inr ⟨fun reason hrefused => ?_, ?_⟩
    · obtain ⟨hneeds, hanswer⟩ := h.refused_iff.1 hrefused
      rw [hgranted hneeds] at hanswer
      cases hanswer
    · rw [hsize, h.maxSlots] at hmake
      split_ifs at hmake ⊢ with hfull
      · rw [insert_of_makeRoom_error h.ready.frozen hlookup hmake (by simp)]
      · obtain ⟨t, hmake, ht⟩ := hmake
        rw [insert_of_makeRoom_ok h.ready.frozen hlookup hmake]
        obtain ⟨r', hstore, -⟩ :=
          exists_store (h.ready.sound.of_table ht.sound ht.held) ht.room hnames
        rw [hstore]
        rfl

theorem Reached.outcome (h : r.Reached mapper sizing) (c : Class) :
    r.Outcome mapper sizing c (r.insert c).1 := by
  have hid := h.toNat_size
  by_cases hdup : r.Registers c.name
  · rw [h.insert_duplicate hdup]
    constructor <;> simp [hdup]
  · rcases h.insert_new hdup with ⟨reason, hrefused, hinsert⟩ | ⟨hnone, hinsert⟩ <;> rw [hinsert]
    · constructor
      · simp [hdup]
      · intro size offset reason'
        simp only [Except.error.injEq, Fault.commitFailed.injEq]
        constructor
        · rintro ⟨rfl, rfl, rfl⟩
          exact ⟨hdup, hrefused, rfl, rfl⟩
        · rintro ⟨-, hrefused', rfl, rfl⟩
          exact ⟨rfl, rfl, hrefused.unique hrefused'⟩
      · intro slots
        simp only [Except.error.injEq, reduceCtorEq, false_iff]
        exact fun hfull => hfull.2.1 _ hrefused
      · intro id
        simp only [reduceCtorEq, false_iff]
        exact fun hok => hok.2.1 _ hrefused
      · exact .inr (.inr (.inl ⟨_, _, _, rfl⟩))
    · split_ifs with hfull
      · refine ⟨by simp [hdup], by simp [hnone], fun slots => ?_, by simp [hfull],
          .inr (.inr (.inr rfl))⟩
        rw [Except.error.injEq, Fault.registryFull.injEq, eq_comm]
        exact ⟨fun h => ⟨hdup, hnone, hfull, h⟩, fun h => h.2.2.2⟩
      · refine ⟨by simp [hdup], by simp [hnone], by simp [hfull], fun id => ?_, .inl ⟨_, rfl⟩⟩
        rw [Except.ok.injEq, ← UInt32.toNat_inj, hid, eq_comm]
        exact ⟨fun h => ⟨hdup, hnone, hfull, h⟩, fun h => h.2.2.2⟩

end Outcome

section Capacity

/-- The answer to a class of a new name that comes after `n` others, if commits are granted. -/
def answerAfter (sizing : Sizing) (n : Nat) : Except Fault ClassId :=
  if n < sizing.maxSlots then .ok (UInt32.ofNat n) else .error (.registryFull sizing.maxSlots)

theorem answerAfter_of_le {m n : Nat} (hm : sizing.maxSlots ≤ m) (hn : sizing.maxSlots ≤ n) :
    answerAfter sizing m = answerAfter sizing n := by
  unfold answerAfter
  rw [if_neg (Nat.not_lt_of_le hm), if_neg (Nat.not_lt_of_le hn)]

/-- Some insertions, one after the other, and how each was answered. -/
def insertAll (r : Registry) : List Class → List (Except Fault ClassId)
  | [] => []
  | c :: rest => (r.insert c).1 :: (r.insert c).2.insertAll rest

theorem Reached.size_le (h : r.Reached mapper sizing) : r.size ≤ sizing.maxSlots := by
  have hsize : r.table.occupied = r.size := h.ready.sound.size_eq
  have hocc := h.ready.sound.table.occupied_le
  have hslots := h.ready.sound.table.slots_le
  have hmax := h.maxSlots
  omega

theorem Reached.not_refused (h : r.Reached mapper sizing) (hm : mapper.Generous)
    (reason : String) : ¬ r.Refused mapper sizing reason := by
  intro hrefused
  obtain ⟨hneeds, hanswer⟩ := h.refused_iff.1 hrefused
  have hgranted := Table.growthAnswer_granted h.ready.sound.table h.backed
    (h.mapper_eq.symm ▸ hm) hneeds
  rw [hgranted] at hanswer
  cases hanswer

/-- Over a generous mapper a class of a new name gets the next number while there is one. -/
theorem Reached.insert_granted (h : r.Reached mapper sizing) (hm : mapper.Generous) {c : Class}
    (hnew : ¬ r.Registers c.name) :
    (r.insert c).1 = answerAfter sizing r.size
      ∧ (r.insert c).2.classes.toList
        = r.classes.toList ++ if r.size < sizing.maxSlots then [c] else [] := by
  have hle := h.size_le
  rcases h.insert_new hnew with ⟨reason, hrefused, -⟩ | ⟨-, hinsert⟩
  · exact absurd hrefused (h.not_refused hm reason)
  unfold answerAfter
  rcases Nat.lt_or_ge r.size sizing.maxSlots with hlt | hge
  · rw [if_neg (by omega)] at hinsert
    rw [if_pos hlt, if_pos hlt]
    refine ⟨hinsert, ?_⟩
    rcases insert_cases h.ready.sound h.ready.frozen h.ready.steady c with ⟨-, hcase⟩ |
      ⟨-, fault, history, hcase, -⟩ | ⟨-, r', hcase, hr'⟩ <;> rw [hcase] at hinsert ⊢
    · cases hinsert
    · cases hinsert
    · rw [hr'.classes, Array.toList_push]
  · rw [if_pos (by omega)] at hinsert
    rw [if_neg (by omega), if_neg (by omega), List.append_nil]
    exact ⟨hinsert, congrArg Array.toList (h.ready.insert_unchanged hinsert).classes⟩

theorem Reached.insertAll_eq (hm : mapper.Generous) :
    ∀ (classes : List Class) {r : Registry}, r.Reached mapper sizing →
      ((r.classes.toList ++ classes).map Class.name).Nodup →
      r.insertAll classes
        = (List.range classes.length).map fun i => answerAfter sizing (r.size + i)
  | [], _, _, _ => rfl
  | c :: rest, r, h, hnodup => by
    have hnew : ¬ r.Registers c.name := by
      rintro ⟨d, hd, hname⟩
      rw [List.map_append, List.nodup_append] at hnodup
      exact hnodup.2.2 d.name (List.mem_map_of_mem hd) c.name
        (List.mem_map_of_mem List.mem_cons_self) hname
    obtain ⟨hanswer, hclasses⟩ := h.insert_granted hm hnew
    have hsize := congrArg List.length hclasses
    rw [List.length_append, Array.length_toList, Array.length_toList] at hsize
    change (r.insert c).2.size = r.size + _ at hsize
    have hrest : (((r.insert c).2.classes.toList ++ rest).map Class.name).Nodup := by
      refine hnodup.sublist (List.Sublist.map _ ?_)
      rw [hclasses, List.append_assoc]
      refine List.Sublist.append_left ?_ _
      split_ifs
      · exact List.Sublist.refl _
      · exact List.sublist_cons_self c rest
    have hnext : ∀ i, answerAfter sizing ((r.insert c).2.size + i)
        = answerAfter sizing (r.size + (i + 1)) := by
      intro i
      rw [hsize]
      split_ifs with hlt
      · rw [List.length_singleton, Nat.add_right_comm, Nat.add_assoc]
      · exact answerAfter_of_le (by omega) (by omega)
    rw [insertAll, hanswer, insertAll_eq hm rest (h.insert c) hrest, List.length_cons,
      List.range_succ_eq_map, List.map_cons, List.map_map, Nat.add_zero]
    exact congrArg _ (List.map_congr_left fun i _ => hnext i)

/-- How an insertion is answered follows from the state of the registry, and over a generous mapper
classes of new names are numbered until there are as many as the largest table has slots. -/
theorem insert_outcome (h : Reachable mapper sizing r) (hm : mapper.Steady) :
    (∀ c, r.Outcome mapper sizing c (r.insert c).1)
      ∧ (mapper.Generous → ∀ classes : List Class,
        ((r.classes.toList ++ classes).map Class.name).Nodup →
        r.insertAll classes
          = (List.range classes.length).map fun i => answerAfter sizing (r.size + i)) := by
  have hreached := h.reached hm
  exact ⟨hreached.outcome, fun hgenerous classes => Reached.insertAll_eq hgenerous classes hreached⟩

/-- A second class takes pages that are refused; the pages of the system last to the end. -/
theorem insert_outcome_refused :
    (∃ r, Reachable tight.mapper ⟨1, 4, 95⟩ r ∧ tight.mapper.Steady
        ∧ r.Refused tight.mapper ⟨1, 4, 95⟩ "no commits left"
        ∧ (r.insert (unfurnished "macallums")).1
          = .error (.commitFailed 16 16 "no commits left"))
      ∧ ∃ r, Reachable Mapper.system ⟨1, 2, 95⟩ r ∧ Mapper.system.Steady
        ∧ Mapper.system.Generous
        ∧ r.insertAll [unfurnished "declinate", unfurnished "macallums", unfurnished "Point"]
          = [.ok 0, .ok 1, .error (.registryFull 2)] := by
  constructor
  · have hnew : Registry.new tight.mapper ⟨1, 4, 95⟩ = .ok _ := rfl
    have hm := tight.steady rfl
    obtain ⟨r, hreachable, hrefused, hvacant, hcommitted, hend⟩ :
        ∃ r, Reachable tight.mapper ⟨1, 4, 95⟩ r ∧ r.Refused tight.mapper ⟨1, 4, 95⟩ "no commits left"
          ∧ ¬ r.Registers "macallums" ∧ r.table.arena.committed = 16 ∧ r.table.growthEnd = 32 := by
      refine ⟨_, .call (.register (unfurnished "declinate")) (.new hnew),
        ⟨by decide +kernel, by decide +kernel, by decide +kernel, by decide +kernel⟩, ?_,
        by decide +kernel, by decide +kernel⟩
      unfold Registers
      decide +kernel
    exact ⟨r, hreachable, hm, hrefused, (((insert_outcome hreachable hm).1 _).refused 16 16 _).2
      ⟨hvacant, hrefused, hcommitted.symm, by rw [hcommitted, hend]⟩⟩
  · have hnew : Registry.new Mapper.system ⟨1, 2, 95⟩ = .ok _ := rfl
    have hm := Mapper.system_steady
    have hgenerous := Mapper.system_generous
    exact ⟨_, .new hnew, hm, hgenerous,
      ((insert_outcome (.new hnew) hm).2 hgenerous _ (by decide +kernel)).trans rfl⟩

end Capacity

end Registry

end ClassLoading
