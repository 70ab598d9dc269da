import ClassLoading.Memory.Script
import ClassLoading.Proofs.TableSteps

/-!
# Tables in order

Whatever is called on a table, in any order, and whatever its mapper refuses, the table stays in
order (`inOrder_after`): its slots are as many as its sizing allows, they hold the entries of the
insertions that succeeded and no others, each entry sits behind one that is about as far from its
home, and the committed bytes behind the slots are zero.

What a table was made with it keeps for good (`keeps_after`).
-/

namespace ClassLoading

inductive TableCall where
  | makeRoom
  | insert (hash id : UInt32)

abbrev TableTrace :=
  List (TableCall × Except Fault Unit)

namespace TableTrace

/-- The hashes and ids of the insertions that succeeded, in order. -/
def entered (past : TableTrace) : List (UInt32 × UInt32) :=
  past.filterMap fun
    | (.insert hash id, .ok ()) => some (hash, id)
    | _ => none

/-- The slot words of the insertions that succeeded. -/
def words (past : TableTrace) : List UInt64 :=
  past.entered.map fun (hash, id) => Slot.pack hash id

theorem words_cons (step : TableCall × Except Fault Unit) (past : TableTrace) :
    words (step :: past) = words [step] ++ words past := by
  unfold words entered
  rw [← List.map_append, ← List.filterMap_append, List.singleton_append]

end TableTrace

namespace Table

def call (t : Table) : TableCall → Except Fault Unit × Table
  | .makeRoom => t.makeRoom
  | .insert hash id => t.insert hash id

/-- Some calls, one after the other, and how each was answered. -/
def trace (t : Table) : List TableCall → TableTrace
  | [] => []
  | c :: rest => (c, (t.call c).1) :: (t.call c).2.trace rest

/-- The table after some calls. -/
def after (t : Table) : List TableCall → Table
  | [] => t
  | c :: rest => (t.call c).2.after rest

variable {t : Table}

theorem after_append (t : Table) (calls calls' : List TableCall) :
    t.after (calls ++ calls') = (t.after calls).after calls' := by
  induction calls generalizing t with
  | nil => rfl
  | cons c rest ih => exact ih (t.call c).2

section Keeps

/-- What no call on a table changes. -/
structure Keeps (t t' : Table) : Prop where
  mapper : t'.arena.mapper = t.arena.mapper
  extent : t'.arena.range.toExtent = t.arena.range.toExtent
  maxSlots : t'.maxSlots = t.maxSlots
  loadPercent : t'.loadPercent = t.loadPercent

theorem Keeps.refl (t : Table) : t.Keeps t :=
  ⟨rfl, rfl, rfl, rfl⟩

theorem Keeps.trans {t' t'' : Table} (h : t.Keeps t') (h' : t'.Keeps t'') : t.Keeps t'' :=
  ⟨h'.mapper.trans h.mapper, h'.extent.trans h.extent, h'.maxSlots.trans h.maxSlots,
    h'.loadPercent.trans h.loadPercent⟩

theorem commitDouble_keeps (t : Table) : t.Keeps t.commitDouble.2 := by
  rcases t.commitDouble_cases with ⟨arena, h, hmap, hrange⟩ | ⟨fault, history, h, -⟩ <;> rw [h]
  · exact ⟨hmap, congrArg PageRange.toExtent hrange, rfl, rfl⟩
  · exact ⟨rfl, rfl, rfl, rfl⟩

theorem withSlotArray_keeps (t : Table) (s : SlotArray) : t.Keeps (t.withSlotArray s) :=
  ⟨rfl, rfl, rfl, rfl⟩

theorem grow_keeps (t : Table) : t.Keeps t.grow.2 := by
  have hcommit := t.commitDouble_keeps
  unfold grow
  rcases hc : t.commitDouble with ⟨fault | _, t'⟩ <;> rw [hc] at hcommit
  · exact hcommit
  · simp only
    rcases t'.slotArray.double? with _ | s
    · exact hcommit
    · exact hcommit.trans (t'.withSlotArray_keeps s)

theorem ifRoom_snd (t : Table) : t.ifRoom.2 = t := by
  unfold ifRoom
  split_ifs <;> rfl

theorem makeRoom_snd (t : Table) : t.makeRoom.2 = if t.isCrowded then t.grow.2 else t := by
  by_cases hc : t.isCrowded = true
  · rw [if_pos hc]
    rcases hgrow : t.grow with ⟨fault | _, t'⟩
    · rw [makeRoom_of_grow_error hc hgrow]
    · rw [makeRoom_of_grow_ok hc hgrow, ifRoom_snd]
  · rw [if_neg hc, makeRoom_of_not_crowded hc, ifRoom_snd]

theorem makeRoom_keeps (t : Table) : t.Keeps t.makeRoom.2 := by
  rw [makeRoom_snd]
  split_ifs
  · exact t.grow_keeps
  · exact Keeps.refl t

theorem insert_keeps (t : Table) (hash id : UInt32) : t.Keeps (t.insert hash id).2 := by
  unfold insert
  split_ifs
  · exact Keeps.refl t
  · rcases t.slotArray.place? (Slot.pack hash id) with _ | s
    · exact Keeps.refl t
    · exact ⟨rfl, rfl, rfl, rfl⟩

theorem keeps_after : ∀ (calls : List TableCall) (t : Table), t.Keeps (t.after calls)
  | [], t => Keeps.refl t
  | c :: rest, t => by
    have hstep : t.Keeps (t.call c).2 := by
      cases c with
      | makeRoom => exact t.makeRoom_keeps
      | insert hash id => exact t.insert_keeps hash id
    exact hstep.trans (keeps_after rest _)

end Keeps

section Runs

theorem insert_full {hash id : UInt32} (h : t.slots ≤ t.occupied) :
    t.insert hash id = (.error (.registryFull t.slots), t) := by
  unfold insert
  rw [if_pos h]

theorem insert_slots (h : t.Sound) (hash id : UInt32) : (t.insert hash id).2.slots = t.slots := by
  rcases Nat.lt_or_ge t.occupied t.slots with hroom | hfull
  · obtain ⟨t', hinsert, ht⟩ := exists_insert h hroom hash id
    rw [hinsert, ht.slots]
  · rw [insert_full hfull]

/-- A call keeps a table in order, takes no slot away and adds an entry if it is an insertion that
succeeds. -/
theorem call_sound (h : t.Sound) (c : TableCall) :
    (t.call c).2.Sound ∧ t.slots ≤ (t.call c).2.slots
      ∧ (t.call c).2.slotArray.held
        = (TableTrace.words [(c, (t.call c).1)] : Multiset UInt64) + t.slotArray.held := by
  cases c with
  | makeRoom =>
    simp only [call]
    rcases makeRoom_cases h with ⟨hmake, -⟩ | ⟨t', hmake, ht, -⟩ | ⟨fault, history, hmake, -, -⟩ <;>
      rw [hmake]
    · exact ⟨h, le_rfl, (Multiset.zero_add _).symm⟩
    · have hslots : t.slots ≤ t'.slots := by
        rw [ht.slots]
        omega
      exact ⟨ht.sound, hslots, ht.held.trans (Multiset.zero_add _).symm⟩
    · exact ⟨h.history history, le_rfl, (Multiset.zero_add _).symm⟩
  | insert hash id =>
    simp only [call]
    rcases Nat.lt_or_ge t.occupied t.slots with hroom | hfull
    · obtain ⟨t', hinsert, ht⟩ := exists_insert h hroom hash id
      rw [hinsert]
      exact ⟨ht.sound, ht.slots.ge, ht.held⟩
    · rw [insert_full hfull]
      exact ⟨h, le_rfl, (Multiset.zero_add _).symm⟩

theorem sound_after : ∀ (calls : List TableCall) {t : Table}, t.Sound →
    (t.after calls).Sound ∧ t.slots ≤ (t.after calls).slots
      ∧ (t.after calls).slotArray.held
        = ((t.trace calls).words : Multiset UInt64) + t.slotArray.held
  | [], t, h => ⟨h, le_rfl, (Multiset.zero_add _).symm⟩
  | c :: rest, t, h => by
    obtain ⟨hsound, hslots, hheld⟩ := call_sound h c
    obtain ⟨hsound', hslots', hheld'⟩ := sound_after rest hsound
    refine ⟨hsound', hslots.trans hslots', ?_⟩
    rw [trace, TableTrace.words_cons, ← Multiset.coe_add, after, hheld', hheld,
      ← Multiset.add_assoc, Multiset.add_comm (TableTrace.words _ : Multiset UInt64)]

/-- A table holds what was entered since it was made. -/
theorem run_of_new {mapper : Mapper} {sizing : Sizing} (h : Table.new mapper sizing = .ok t)
    (calls : List TableCall) : (t.after calls).Sound
      ∧ (t.after calls).slotArray.held = ((t.trace calls).words : Multiset UInt64) := by
  obtain ⟨hnew, hblank, -⟩ := sound_of_new h
  obtain ⟨hsound, -, hheld⟩ := sound_after calls hnew
  rw [hblank, Multiset.add_zero] at hheld
  exact ⟨hsound, hheld⟩

/-- A table of some sizing, as its calls and their answers so far let one expect it. -/
structure InOrder (sizing : Sizing) (past : TableTrace) (t : Table) : Prop where
  slots : ∃ k, t.slots = 2 ^ k
  initialSlots_le : sizing.initialSlots ≤ t.slots
  le_maxSlots : t.slots ≤ sizing.maxSlots
  occupied : t.slotArray.held.card = t.occupied
  occupied_le : t.occupied ≤ t.slots
  held : t.slotArray.held = (past.words : Multiset UInt64)
  /-- An entry away from its home follows one that is at most a slot nearer to its own. -/
  follows : ∀ i < t.slots, t.slotArray.word (t.slotArray.next i) ≠ Slot.empty →
    0 < t.slotArray.distance (t.slotArray.word (t.slotArray.next i)) (t.slotArray.next i) →
    t.slotArray.word i ≠ Slot.empty
      ∧ t.slotArray.distance (t.slotArray.word (t.slotArray.next i)) (t.slotArray.next i) - 1
        ≤ t.slotArray.distance (t.slotArray.word i) i
  behind : ∀ a, t.slots * slotSize ≤ a → a < t.arena.committed → t.arena.range.bytes.get a = 0

/-- Whatever is called on a new table, and whatever its mapper answers, the table is in order. -/
theorem inOrder_after {mapper : Mapper} {sizing : Sizing} (h : Table.new mapper sizing = .ok t)
    (calls : List TableCall) : (t.after calls).InOrder sizing (t.trace calls) := by
  obtain ⟨hnew, hblank, -⟩ := sound_of_new h
  obtain ⟨hsound, hslots, hheld⟩ := sound_after calls hnew
  obtain ⟨hinit, -, hmax, -⟩ := sizes_of_new h
  refine ⟨hsound.slots, hinit.ge.trans hslots, ?_, hsound.occupied, hsound.occupied_le, ?_, ?_, ?_⟩
  · rw [← hmax, ← (keeps_after calls t).maxSlots]
    exact hsound.slots_le
  · rw [hheld, hblank, Multiset.add_zero]
  · intro i hi hnext hfar
    have hstep := hsound.array.ordered i hi
    rw [SlotArray.depth_of_held hnext] at hstep
    have hword : (t.after calls).slotArray.word i ≠ Slot.empty := by
      intro hempty
      rw [SlotArray.depth_of_empty hempty] at hstep
      omega
    rw [SlotArray.depth_of_held hword] at hstep
    exact ⟨hword, by omega⟩
  · intro a ha _
    refine Store.get_of_word_zero (hsound.array.beyond (a / 8) ?_)
    exact (Nat.le_div_iff_mul_le (by decide)).2 ha

/-- Pages of two slots, one of which is granted. -/
def scant : MapperScript where
  pageSize := 16
  failAfter := some 1

/-- A table is filled over its load, growth is refused, and its entries run around its end. -/
def crowdingCalls : List TableCall :=
  [.makeRoom, .insert 1 0, .insert 1 1, .makeRoom, .insert 3 2]

theorem inOrder_after_crowding :
    ∃ t, Table.new scant.mapper ⟨2, 4, 50⟩ = .ok t
      ∧ (t.trace crowdingCalls).entered = [(1, 0), (1, 1)]
      ∧ (t.after crowdingCalls).InOrder ⟨2, 4, 50⟩ (t.trace crowdingCalls) := by
  have hnew : Table.new scant.mapper ⟨2, 4, 50⟩ = .ok _ := rfl
  exact ⟨_, hnew, by decide +kernel, inOrder_after hnew crowdingCalls⟩

end Runs

end Table

end ClassLoading
