import ClassLoading.Proofs.TableRuns

/-!
# Searches

A search gives up at the first empty slot and at the first entry that is nearer to its home, yet it
meets all that a look at every slot would find: what it answers is an id that was entered under its
hash and that the caller accepts, as long as there is one (`find?_after`).

The largest id is the exception. Beside an even hash its successor runs over into the hash, so it is
filed under the odd hash that follows, where a search for its own hash does not look
(`insert_filed`, `largest_misfiled`).
-/

namespace ClassLoading

namespace Slot

/-- The id whose successor does not fit beside a hash. -/
def largestId : UInt32 := 0xFFFFFFFF

/-- The hash that the word of an id carries: its own, but for the largest id with the lowest bit
set. -/
def filedUnder (hash id : UInt32) : UInt32 :=
  if id = largestId then hash ||| 1 else hash

variable {hash id : UInt32}

theorem successor_lt (h : id ≠ largestId) : id.toNat + 1 < 2 ^ 32 := by
  have hlt := id.toNat_lt
  have hne : id.toNat ≠ largestId.toNat := fun heq => h (UInt32.toNat_inj.1 heq)
  have hlargest : largestId.toNat = 4294967295 := rfl
  omega

theorem toNat_pack_largest (hash : UInt32) :
    (pack hash largestId).toNat = (hash ||| 1).toNat <<< 32 := by
  have hhash := hash.toNat_lt
  have hhigh : hash.toNat <<< 32 < 2 ^ 64 := by
    rw [Nat.shiftLeft_eq]
    omega
  have hlow : (largestId.toUInt64 + 1).toNat = 1 <<< 32 := rfl
  rw [pack, UInt64.toNat_or, hlow, UInt64.toNat_shiftLeft, UInt32.toNat_toUInt64, UInt32.toNat_or,
    Nat.shiftLeft_or_distrib]
  exact congrArg (· ||| 1 <<< 32) (Nat.mod_eq_of_lt hhigh)

theorem hash_pack_eq (hash id : UInt32) : Slot.hash (pack hash id) = filedUnder hash id := by
  unfold filedUnder
  split_ifs with hid
  · subst hid
    apply UInt32.toNat_inj.mp
    rw [Slot.hash, UInt64.toNat_toUInt32, UInt64.toNat_shiftRight, toNat_pack_largest]
    show ((hash ||| 1).toNat <<< 32) >>> 32 % 2 ^ 32 = _
    rw [Nat.shiftLeft_shiftRight]
    exact Nat.mod_eq_of_lt (hash ||| 1).toNat_lt
  · exact hash_pack (successor_lt hid)

theorem id_pack_eq (hash id : UInt32) : Slot.id (pack hash id) = id := by
  by_cases hid : id = largestId
  · subst hid
    have hlow : (pack hash largestId).toUInt32 = 0 := by
      apply UInt32.toNat_inj.mp
      rw [UInt64.toNat_toUInt32, toNat_pack_largest, Nat.shiftLeft_eq]
      exact Nat.mul_mod_left _ _
    rw [Slot.id, hlow]
    rfl
  · exact id_pack (successor_lt hid)

theorem or_one_eq_iff (n : Nat) : n ||| 1 = n ↔ n % 2 = 1 := by
  refine ⟨fun h => ?_, fun h => ?_⟩
  · have hodd : (n ||| 1) % 2 = 1 := Nat.or_mod_two_eq_one.2 (.inr rfl)
    rwa [h] at hodd
  · have hsplit := Nat.two_pow_add_eq_or_of_lt (i := 1) (b := 1) (by decide) (n / 2)
    have hn : n = 2 ^ 1 * (n / 2) ||| 1 := by omega
    rw [hn, Nat.or_assoc, Nat.or_self]

/-- An id is filed under its own hash unless it is the largest one and the hash is even. -/
theorem filedUnder_eq_iff :
    filedUnder hash id = hash ↔ id ≠ largestId ∨ hash.toNat % 2 = 1 := by
  unfold filedUnder
  split_ifs with hid
  · rw [← UInt32.toNat_inj, UInt32.toNat_or]
    simp [hid, or_one_eq_iff]
  · simp [hid]

end Slot

namespace SlotArray

variable {s : SlotArray}

/-- The ids under a hash, in slot order: what a look at every slot finds. -/
def scan (s : SlotArray) (hash : UInt32) : List UInt32 :=
  s.entries.filterMap fun (_, word) =>
    if Slot.hash word = hash then some (Slot.id word) else none

theorem mem_scan_iff {hash id : UInt32} :
    id ∈ s.scan hash ↔ ∃ w ∈ s.held, Slot.hash w = hash ∧ Slot.id w = id := by
  simp only [scan, List.mem_filterMap, Option.ite_none_right_eq_some, Option.some.injEq,
    ← held_entries, Multiset.mem_coe, List.mem_map, Prod.exists, exists_eq_right]
  refine ⟨?_, ?_⟩
  · intro ⟨i, w, hw, hh⟩
    exact ⟨w, ⟨i, hw⟩, hh⟩
  · intro ⟨w, ⟨i, hw⟩, hh⟩
    exact ⟨i, w, hw, hh⟩

end SlotArray

namespace Table

variable {mapper : Mapper} {sizing : Sizing} {t t' : Table} {hash id : UInt32}

/-- Whether a search under a hash can answer an id. -/
def Reports (t : Table) (hash id : UInt32) : Prop :=
  ∃ accept, t.find? hash accept = some id

theorem find?_self (h : id ∈ t.slotArray.ids hash) : t.find? hash (· == id) = some id := by
  obtain ⟨found, hfound⟩ := Option.isSome_iff_exists.1
    (List.find?_isSome (p := (· == id)).2 ⟨id, h, beq_self_eq_true id⟩)
  have heq : (found == id) = true := List.find?_some (p := (· == id)) hfound
  rw [find?, hfound, beq_iff_eq.1 heq]

theorem reports_iff_mem : t.Reports hash id ↔ id ∈ t.slotArray.ids hash :=
  ⟨fun ⟨_, hfound⟩ => List.mem_of_find?_eq_some hfound, fun h => ⟨_, find?_self h⟩⟩

section Entered

theorem mem_of_trace :
    ∀ (calls : List TableCall) (t : Table) {step : TableCall × Except Fault Unit},
      step ∈ t.trace calls → step.1 ∈ calls
  | [], _, _, h => by simp [trace] at h
  | c :: rest, t, step, h => by
    simp only [trace, List.mem_cons] at h ⊢
    rcases h with rfl | h
    · exact .inl rfl
    · exact .inr (mem_of_trace rest _ h)

theorem mem_of_entered {calls : List TableCall} (h : (hash, id) ∈ (t.trace calls).entered) :
    .insert hash id ∈ calls := by
  obtain ⟨⟨c, answer⟩, hstep, hpair⟩ := List.mem_filterMap.1 h
  split at hpair
  · rename_i hcall
    cases hcall
    cases hpair
    exact mem_of_trace calls t hstep
  · cases hpair

theorem mem_held_after (h : Table.new mapper sizing = .ok t) (calls : List TableCall)
    {w : UInt64} : w ∈ (t.after calls).slotArray.held ↔
      ∃ hash id, (hash, id) ∈ (t.trace calls).entered ∧ Slot.pack hash id = w := by
  rw [(run_of_new h calls).2, Multiset.mem_coe, TableTrace.words]
  simp

theorem mem_ids_after (h : Table.new mapper sizing = .ok t) (calls : List TableCall) :
    id ∈ (t.after calls).slotArray.ids hash ↔
      ∃ hash', (hash', id) ∈ (t.trace calls).entered ∧ Slot.filedUnder hash' id = hash := by
  have hsound := (run_of_new h calls).1
  rw [SlotArray.mem_ids_iff hsound.array]
  simp only [mem_held_after h]
  refine ⟨?_, ?_⟩
  · intro ⟨w, ⟨hash', id', hentered, hw⟩, hhash, hid⟩
    subst hw
    rw [Slot.hash_pack_eq] at hhash
    rw [Slot.id_pack_eq] at hid
    subst hid
    exact ⟨hash', hentered, hhash⟩
  · intro ⟨hash', hentered, hhash⟩
    exact ⟨_, ⟨hash', id, hentered, rfl⟩, (Slot.hash_pack_eq _ _).trans hhash,
      Slot.id_pack_eq _ _⟩

/-- Without the largest id, every id is found under the hash it was entered under. -/
theorem mem_ids_entered (h : Table.new mapper sizing = .ok t) {calls : List TableCall}
    (hids : ∀ hash id, .insert hash id ∈ calls → id ≠ Slot.largestId) :
    id ∈ (t.after calls).slotArray.ids hash ↔ (hash, id) ∈ (t.trace calls).entered := by
  have hown : ∀ hash', (hash', id) ∈ (t.trace calls).entered → Slot.filedUnder hash' id = hash' :=
    fun hash' hentered => Slot.filedUnder_eq_iff.2 (.inl (hids _ _ (mem_of_entered hentered)))
  rw [mem_ids_after h]
  refine ⟨?_, fun hentered => ⟨hash, hentered, hown _ hentered⟩⟩
  intro ⟨hash', hentered, hhash⟩
  rw [hown _ hentered] at hhash
  rwa [← hhash]

/-- Whatever has been called on a table, with any ids but the largest, a search answers an id that
was entered under its hash and that the caller accepts if there is one, and nothing otherwise; a
look at every slot would find one just where it does. -/
theorem find?_after (h : Table.new mapper sizing = .ok t) (calls : List TableCall)
    (hids : ∀ hash id, .insert hash id ∈ calls → id ≠ Slot.largestId) (hash : UInt32)
    (accept : UInt32 → Bool) :
    ((∃ id, (hash, id) ∈ (t.trace calls).entered ∧ accept id = true) →
        ∃ id, (t.after calls).find? hash accept = some id
          ∧ (hash, id) ∈ (t.trace calls).entered ∧ accept id = true)
      ∧ ((¬ ∃ id, (hash, id) ∈ (t.trace calls).entered ∧ accept id = true) →
        (t.after calls).find? hash accept = none)
      ∧ ((t.after calls).find? hash accept).isSome
        = ((t.after calls).slotArray.scan hash).any accept := by
  have hmem : ∀ id, id ∈ (t.after calls).slotArray.ids hash ↔
      (hash, id) ∈ (t.trace calls).entered := fun id => mem_ids_entered h hids
  have hsound := (run_of_new h calls).1
  refine ⟨?_, ?_, ?_⟩
  · intro ⟨id, hentered, haccept⟩
    obtain ⟨found, hfound⟩ := Option.isSome_iff_exists.1
      (List.find?_isSome.2 ⟨id, (hmem id).2 hentered, haccept⟩)
    exact ⟨found, hfound, (hmem found).1 (List.mem_of_find?_eq_some hfound),
      List.find?_some hfound⟩
  · intro hnone
    refine List.find?_eq_none.2 fun id hid haccept => hnone ⟨id, (hmem id).1 hid, haccept⟩
  · rw [Bool.eq_iff_iff, find?, List.find?_isSome, List.any_eq_true]
    simp only [SlotArray.mem_ids_iff hsound.array, SlotArray.mem_scan_iff]

/-- Two slots are full, growth was refused, and the entry of hash 3 was turned away. -/
theorem find?_after_crowding :
    ∃ t, Table.new scant.mapper ⟨2, 4, 50⟩ = .ok t
      ∧ (∀ hash id, .insert hash id ∈ crowdingCalls → id ≠ Slot.largestId)
      ∧ (t.after crowdingCalls).find? 1 (· == 1) = some 1
      ∧ (t.after crowdingCalls).find? 3 (fun _ => true) = none := by
  obtain ⟨t, hnew, hentered⟩ : ∃ t, Table.new scant.mapper ⟨2, 4, 50⟩ = .ok t
      ∧ (t.trace crowdingCalls).entered = [(1, 0), (1, 1)] := ⟨_, rfl, by decide +kernel⟩
  have hids : ∀ hash id, .insert hash id ∈ crowdingCalls → id ≠ Slot.largestId := by
    intro hash id hmem
    simp only [crowdingCalls, List.mem_cons, TableCall.insert.injEq, reduceCtorEq, false_or,
      List.not_mem_nil, or_false] at hmem
    rcases hmem with ⟨-, rfl⟩ | ⟨-, rfl⟩ | ⟨-, rfl⟩ <;> decide
  have hone := find?_after hnew crowdingCalls hids 1 (· == 1)
  have hthree := find?_after hnew crowdingCalls hids 3 fun _ => true
  simp only [hentered] at hone hthree
  obtain ⟨id, hfound, -, haccept⟩ := hone.1 (by simp)
  rw [beq_iff_eq.1 haccept] at hfound
  exact ⟨t, hnew, hids, hfound, hthree.2.1 (by simp)⟩

end Entered

section Filed

theorem entered_of_insert (h : t.Sound) (hinsert : t.insert hash id = (.ok (), t')) :
    t.Entered hash id t' := by
  rcases Nat.lt_or_ge t.occupied t.slots with hroom | hfull
  · obtain ⟨t'', hinsert', ht⟩ := exists_insert h hroom hash id
    rw [hinsert'] at hinsert
    cases hinsert
    exact ht
  · rw [insert_full hfull] at hinsert
    cases hinsert

theorem Entered.reports_iff (h : t.Sound) (ht : t.Entered hash id t') {hash' id' : UInt32} :
    t'.Reports hash' id' ↔
      t.Reports hash' id' ∨ hash' = Slot.filedUnder hash id ∧ id' = id := by
  simp only [reports_iff_mem, SlotArray.mem_ids_iff h.array, SlotArray.mem_ids_iff ht.sound.array,
    ht.held, Multiset.mem_cons, or_and_right, exists_or, exists_eq_left, Slot.hash_pack_eq,
    Slot.id_pack_eq]
  rw [or_comm, eq_comm (a := hash'), eq_comm (a := id')]

/-- An insertion that works files its id under the hash that its word carries, and nothing else
anywhere. That is the hash it was given, unless the id is the largest one and the hash is even. -/
theorem insert_filed (h : Table.new mapper sizing = .ok t) (calls : List TableCall)
    (hinsert : (t.after calls).insert hash id = (.ok (), t')) :
    t'.find? (Slot.filedUnder hash id) (· == id) = some id
      ∧ (∀ hash' id', t'.Reports hash' id' ↔ (t.after calls).Reports hash' id'
        ∨ hash' = Slot.filedUnder hash id ∧ id' = id)
      ∧ (Slot.filedUnder hash id = hash ↔ id ≠ Slot.largestId ∨ hash.toNat % 2 = 1) := by
  have hsound := (run_of_new h calls).1
  have ht := entered_of_insert hsound hinsert
  refine ⟨find?_self (reports_iff_mem.1 ?_), fun hash' id' => ht.reports_iff hsound,
    Slot.filedUnder_eq_iff⟩
  exact (ht.reports_iff hsound).2 (.inr ⟨rfl, rfl⟩)

/-- Under hash 4 the largest id is found under 5, and under hash 7 where it belongs. -/
theorem insert_filed_largest :
    ∃ t t' t'', Table.new Mapper.system ⟨8, 8, 70⟩ = .ok t
      ∧ t.insert 4 Slot.largestId = (.ok (), t') ∧ t.insert 7 Slot.largestId = (.ok (), t'')
      ∧ t'.find? 5 (· == Slot.largestId) = some Slot.largestId
      ∧ t''.find? 7 (· == Slot.largestId) = some Slot.largestId := by
  have hnew : Table.new Mapper.system ⟨8, 8, 70⟩ = .ok _ := rfl
  have hsound := (sound_of_new hnew).1
  obtain ⟨t', hinsert, -⟩ := exists_insert hsound (by decide) 4 Slot.largestId
  obtain ⟨t'', hinsert', -⟩ := exists_insert hsound (by decide) 7 Slot.largestId
  exact ⟨_, t', t'', hnew, hinsert, hinsert', (insert_filed hnew [] hinsert).1,
    (insert_filed hnew [] hinsert').1⟩

/-- The largest id is entered under hash 0 and cannot be found there, but under hash 1. -/
theorem largest_misfiled :
    ∃ t, Table.new Mapper.system ⟨8, 8, 70⟩ = .ok t
      ∧ (t.insert 0 Slot.largestId).1 = .ok ()
      ∧ (t.insert 0 Slot.largestId).2.find? 0 (· == Slot.largestId) = none
      ∧ (t.insert 0 Slot.largestId).2.find? 1 (· == Slot.largestId) = some Slot.largestId :=
  ⟨_, rfl, by decide +kernel, by decide +kernel, by decide +kernel⟩

end Filed

end Table

end ClassLoading
