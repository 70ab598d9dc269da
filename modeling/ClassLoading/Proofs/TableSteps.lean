import Mathlib.Tactic.Ring
import ClassLoading.Proofs.RobinHood
import ClassLoading.Registry.Table

/-!
# What a table does

An arena grows, or stays as it is but for its history (`Arena.grow_cases`), and so does a table
(`Table.makeRoom_cases`): a table that could not make room is the one before. One that has room for
an entry takes it (`Table.exists_insert`).
-/

namespace ClassLoading

namespace Slot

variable {hash id : UInt32}

theorem toNat_pack (h : id.toNat + 1 < 2 ^ 32) :
    (pack hash id).toNat = hash.toNat * 2 ^ 32 + (id.toNat + 1) := by
  have hhash := hash.toNat_lt
  have hhigh : (hash.toUInt64 <<< 32).toNat = hash.toNat <<< 32 := by
    rw [UInt64.toNat_shiftLeft, UInt32.toNat_toUInt64]
    show hash.toNat <<< 32 % 2 ^ 64 = hash.toNat <<< 32
    rw [Nat.shiftLeft_eq]
    exact Nat.mod_eq_of_lt (by omega)
  rw [pack, UInt64.toNat_or, toNat_successor, hhigh, ← Nat.shiftLeft_add_eq_or_of_lt h,
    Nat.shiftLeft_eq]

theorem hash_pack (h : id.toNat + 1 < 2 ^ 32) : Slot.hash (pack hash id) = hash := by
  have hhash := hash.toNat_lt
  apply UInt32.toNat_inj.mp
  rw [Slot.hash, UInt64.toNat_toUInt32, UInt64.toNat_shiftRight, toNat_pack h]
  show (hash.toNat * 2 ^ 32 + (id.toNat + 1)) >>> 32 % 2 ^ 32 = hash.toNat
  rw [Nat.shiftRight_eq_div_pow]
  omega

theorem id_pack (h : id.toNat + 1 < 2 ^ 32) : Slot.id (pack hash id) = id := by
  apply UInt32.toNat_inj.mp
  rw [Slot.id, UInt32.toNat_sub, UInt64.toNat_toUInt32, toNat_pack h, UInt32.toNat_one]
  omega

end Slot

/-- A mapper that answers every commit, if only by a refusal. -/
def Mapper.Steady (m : Mapper) : Prop :=
  ∀ past extent offset size, m.onCommit past extent offset size ≠ .crashed

namespace Arena

variable (a : Arena) (n : Nat)

def denied (stop : Nat) : Arena :=
  { a with history := .committed a.committed (stop - a.committed) false :: a.history }

def granted (stop : Nat) : Arena :=
  { a with
    history := .committed a.committed (stop - a.committed) true :: a.history
    committed := stop }

/-- What the mapper answers where an arena asks for the bytes up to `stop`. -/
def answer (stop : Nat) : CommitAnswer :=
  a.mapper.onCommit a.history a.range.toExtent a.committed (stop - a.committed)

theorem grow_zero : a.grow 0 = (.ok ⟨a.committed, a.committed⟩, a) := rfl

theorem grow_exhausted (hn : n ≠ 0) (h : a.grownEnd? n = none) :
    a.grow n = (.error (.reservationExhausted (min (a.committed + n) sizeLimit) a.reserved), a) := by
  simp only [grow, if_neg hn, h]

theorem grow_of_grownEnd {stop : Nat} (hn : n ≠ 0) (h : a.grownEnd? n = some stop) :
    a.grow n = match a.answer stop with
      | .granted => (.ok ⟨a.committed, stop⟩, a.granted stop)
      | .refused reason =>
        (.error (.commitFailed (stop - a.committed) a.committed reason), a.denied stop)
      | .crashed => (.error .mapperCrashed, a.denied stop) := by
  simp only [grow, if_neg hn, h, Mapper.commit, answer]
  cases a.mapper.onCommit a.history a.range.toExtent a.committed (stop - a.committed) <;> rfl

/-- Growth moves the end of the committed bytes, or fails and leaves a mark in the history at
most. -/
theorem grow_cases :
    (∃ span a', a.grow n = (.ok span, a') ∧ a'.mapper = a.mapper ∧ a'.range = a.range)
      ∨ ∃ fault history, a.grow n = (.error fault, { a with history := history })
        ∧ (∀ name, fault ≠ .duplicateClass name)
        ∧ (a.mapper.Steady → fault ≠ .mapperCrashed) := by
  by_cases hn : n = 0
  · subst hn
    exact .inl ⟨_, a, a.grow_zero, rfl, rfl⟩
  rcases h : a.grownEnd? n with _ | stop
  · exact .inr ⟨_, a.history, a.grow_exhausted n hn h, by simp, by simp⟩
  have hgrow := a.grow_of_grownEnd n hn h
  rcases hanswer : a.answer stop with _ | reason | _ <;> rw [hanswer] at hgrow
  · exact .inl ⟨_, _, hgrow, rfl, rfl⟩
  · exact .inr ⟨_, _, hgrow, by simp, by simp⟩
  · exact .inr ⟨_, _, hgrow, by simp, fun hm => absurd hanswer (hm _ _ _ _)⟩

/-- Reserving fails before the mapper is asked, is refused, gets a range that is too short and is
left at that, or gets one that is long enough. No commit is asked for. -/
theorem reserve_cases (mapper : Mapper) (size : Nat) :
    (∃ size' fault, reserve mapper size = .error ⟨.reservationFailed size' fault, []⟩)
      ∨ ∃ rounded, roundToPage size mapper.pageSize = some rounded ∧ rounded ≠ 0
        ∧ ((∃ size' fault, reserve mapper size
            = .error ⟨.reservationFailed size' fault, [.reserved rounded none]⟩)
          ∨ (∃ extent, extent.length < rounded ∧ reserve mapper size
            = .error ⟨.reservationFailed rounded (.short extent.length),
              [.reserved rounded (some extent)]⟩)
          ∨ ∃ extent, rounded ≤ extent.length ∧ reserve mapper size
            = .ok ⟨mapper, [.reserved rounded (some extent)], ⟨extent, .blank⟩, 0⟩) := by
  unfold reserve
  rcases roundToPage size mapper.pageSize with _ | _ | rounded
  · exact .inl ⟨_, _, rfl⟩
  · exact .inl ⟨_, _, rfl⟩
  · refine .inr ⟨rounded + 1, rfl, Nat.succ_ne_zero rounded, ?_⟩
    simp only [Mapper.reserve]
    rcases mapper.onReserve [] (rounded + 1) with extent | ⟨size', fault⟩
    · simp only
      split_ifs with hshort
      · exact .inr (.inl ⟨extent, hshort, rfl⟩)
      · exact .inr (.inr ⟨extent, Nat.le_of_not_lt hshort, rfl⟩)
    · exact .inl ⟨_, _, rfl⟩

theorem exists_of_reserve {mapper : Mapper} {size : Nat} {a : Arena}
    (h : reserve mapper size = .ok a) :
    ∃ rounded extent, roundToPage size mapper.pageSize = some rounded ∧ rounded ≠ 0
      ∧ rounded ≤ extent.length
      ∧ a = ⟨mapper, [.reserved rounded (some extent)], ⟨extent, .blank⟩, 0⟩ := by
  rcases reserve_cases mapper size with ⟨_, _, hreserve⟩ |
    ⟨rounded, hrounded, hne, ⟨_, _, hreserve⟩ | ⟨_, -, hreserve⟩ | ⟨extent, hlong, hreserve⟩⟩ <;>
      rw [hreserve] at h <;> cases h
  exact ⟨rounded, extent, hrounded, hne, hlong, rfl⟩

theorem fresh_of_reserve {mapper : Mapper} {size : Nat} {a : Arena}
    (h : reserve mapper size = .ok a) :
    a.mapper = mapper ∧ a.range.bytes = .blank ∧ a.committed = 0 := by
  obtain ⟨_, _, -, -, -, rfl⟩ := exists_of_reserve h
  exact ⟨rfl, rfl, rfl⟩

end Arena

namespace Table

/-- A table in order: its sizes are powers of two within their limits, its slots are in order and
the number of its entries is known. -/
structure Sound (t : Table) : Prop where
  slots : ∃ k, t.slots = 2 ^ k
  maxSlots : ∃ k, t.maxSlots = 2 ^ k
  slots_le : t.slots ≤ t.maxSlots
  maxSlots_le : t.maxSlots ≤ slotLimit
  array : t.slotArray.Sound
  occupied : t.slotArray.held.card = t.occupied

variable {t : Table}

@[simp] theorem slotArray_withSlotArray (s : SlotArray) : (t.withSlotArray s).slotArray = s := rfl

theorem slotArray_of_range {arena : Arena} (h : arena.range = t.arena.range) :
    { t with arena := arena }.slotArray = t.slotArray := by
  simp only [slotArray, h]

theorem Sound.occupied_le (h : t.Sound) : t.occupied ≤ t.slots := by
  rw [← h.occupied]
  exact SlotArray.card_held_le

theorem Sound.slots_pos (h : t.Sound) : 0 < t.slots :=
  h.array.pos

theorem Sound.double_le (h : t.Sound) (hlt : t.slots < t.maxSlots) :
    2 * t.slots ≤ t.maxSlots := by
  obtain ⟨j, hj⟩ := h.slots
  obtain ⟨k, hk⟩ := h.maxSlots
  rw [hj, hk] at hlt ⊢
  have hjk : j + 1 ≤ k := (Nat.pow_lt_pow_iff_right (by decide)).1 hlt
  calc 2 * 2 ^ j = 2 ^ (j + 1) := by rw [Nat.pow_succ, Nat.mul_comm]
    _ ≤ 2 ^ k := Nat.pow_le_pow_right (by decide) hjk

theorem Sound.history (h : t.Sound) (history : History) :
    { t with arena := { t.arena with history := history } }.Sound :=
  ⟨h.slots, h.maxSlots, h.slots_le, h.maxSlots_le, h.array, h.occupied⟩

/-- What a table has become by doubling. -/
structure Doubled (t t' : Table) : Prop where
  sound : t'.Sound
  mapper : t'.arena.mapper = t.arena.mapper
  slots : t'.slots = 2 * t.slots
  maxSlots : t'.maxSlots = t.maxSlots
  loadPercent : t'.loadPercent = t.loadPercent
  occupied : t'.occupied = t.occupied
  held : t'.slotArray.held = t.slotArray.held

/-- Why a table could not make room, and that nothing has changed. -/
def Unmoved (t : Table) (result : Except Fault Unit × Table) : Prop :=
  ∃ fault history, result = (.error fault, { t with arena := { t.arena with history := history } })
    ∧ (∀ name, fault ≠ .duplicateClass name) ∧ (t.arena.mapper.Steady → fault ≠ .mapperCrashed)

theorem commitDouble_cases :
    (∃ arena, t.commitDouble = (.ok (), { t with arena := arena })
        ∧ arena.mapper = t.arena.mapper ∧ arena.range = t.arena.range)
      ∨ t.Unmoved t.commitDouble := by
  unfold commitDouble Unmoved
  simp only
  split_ifs with h
  · exact .inl ⟨t.arena, rfl, rfl, rfl⟩
  · rcases t.arena.grow_cases (2 * t.slots * slotSize - t.arena.committed) with
      ⟨span, a', hgrow, hmap, hrange⟩ | ⟨fault, history, hgrow, hdup, hm⟩ <;> rw [hgrow]
    · exact .inl ⟨a', rfl, hmap, hrange⟩
    · exact .inr ⟨fault, history, rfl, hdup, hm⟩

/-- Once the bytes are committed, a table that may double does. -/
theorem exists_grow (h : t.Sound) (hlt : t.slots < t.maxSlots) {arena : Arena}
    (hcommit : t.commitDouble = (.ok (), { t with arena := arena }))
    (hmap : arena.mapper = t.arena.mapper) (hrange : arena.range = t.arena.range) :
    ∃ t', t.grow = (.ok (), t') ∧ t.Doubled t' ∧ t'.arena.committed = arena.committed := by
  have harray := slotArray_of_range hrange
  obtain ⟨s, hdouble, hcount, hs, hheld⟩ := SlotArray.exists_double h.array
  have hslots : s.count = 2 * t.slots := hcount
  refine ⟨{ t with arena := arena }.withSlotArray s, ?_, ?_⟩
  · unfold grow
    rw [hcommit]
    simp only [harray, hdouble]
  · refine ⟨⟨⟨?_, h.maxSlots, ?_, h.maxSlots_le, hs, ?_⟩, hmap, hcount, rfl, rfl, rfl, hheld⟩, rfl⟩
    · obtain ⟨k, hk⟩ := h.slots
      refine ⟨k + 1, ?_⟩
      show s.count = 2 ^ (k + 1)
      rw [hslots, hk, Nat.pow_succ, Nat.mul_comm]
    · show s.count ≤ t.maxSlots
      rw [hslots]
      exact h.double_le hlt
    · show s.held.card = t.occupied
      rw [hheld, h.occupied]

theorem grow_of_commitDouble_error {fault : Fault} {t' : Table}
    (h : t.commitDouble = (.error fault, t')) : t.grow = (.error fault, t') := by
  unfold grow
  rw [h]

theorem grow_cases (h : t.Sound) (hlt : t.slots < t.maxSlots) :
    (∃ t', t.grow = (.ok (), t') ∧ t.Doubled t') ∨ t.Unmoved t.grow := by
  rcases t.commitDouble_cases with ⟨arena, hcommit, hmap, hrange⟩ |
    ⟨fault, history, hcommit, hdup, hm⟩
  · obtain ⟨t', hgrow, hd, -⟩ := exists_grow h hlt hcommit hmap hrange
    exact .inl ⟨t', hgrow, hd⟩
  · exact .inr ⟨fault, history, grow_of_commitDouble_error hcommit, hdup, hm⟩

/-- Room for one more entry, as far as a table is concerned that has grown if it had to. -/
def ifRoom (t : Table) : Except Fault Unit × Table :=
  if t.slots ≤ t.occupied then (.error (.registryFull t.slots), t) else (.ok (), t)

theorem makeRoom_of_grow_ok {t' : Table} (hc : t.isCrowded = true) (h : t.grow = (.ok (), t')) :
    t.makeRoom = t'.ifRoom := by
  unfold makeRoom
  rw [if_pos hc, h]
  rfl

theorem makeRoom_of_grow_error {fault : Fault} {t' : Table} (hc : t.isCrowded = true)
    (h : t.grow = (.error fault, t')) : t.makeRoom = (.error fault, t') := by
  unfold makeRoom
  rw [if_pos hc, h]

theorem makeRoom_of_not_crowded (hc : ¬ t.isCrowded = true) : t.makeRoom = t.ifRoom := by
  unfold makeRoom
  rw [if_neg hc]
  rfl

theorem ifRoom_of_lt (h : t.occupied < t.slots) : t.ifRoom = (.ok (), t) :=
  if_neg (Nat.not_le_of_lt h)

theorem ifRoom_of_full (h : t.slots ≤ t.occupied) :
    t.ifRoom = (.error (.registryFull t.slots), t) :=
  if_pos h

theorem isCrowded_iff : t.isCrowded = true ↔
    t.slots * t.loadPercent < (t.occupied + 1) * 100 ∧ t.slots < t.maxSlots := by
  unfold isCrowded
  rw [Bool.and_eq_true, decide_eq_true_eq, decide_eq_true_eq]

theorem Doubled.room {t' : Table} (h : t.Sound) (hd : t.Doubled t') : t'.occupied < t'.slots := by
  have hfull := h.occupied_le
  have hpos := h.slots_pos
  rw [hd.slots, hd.occupied]
  omega

/-- Making room leaves a table as it is, doubles it or fails. -/
theorem makeRoom_cases (h : t.Sound) :
    (t.makeRoom = (.ok (), t) ∧ t.occupied < t.slots)
      ∨ (∃ t', t.makeRoom = (.ok (), t') ∧ t.Doubled t' ∧ t'.occupied < t'.slots)
      ∨ t.Unmoved t.makeRoom := by
  by_cases hc : t.isCrowded = true
  · rcases grow_cases h (isCrowded_iff.1 hc).2 with ⟨t', hgrow, hd⟩ |
      ⟨fault, history, hgrow, hdup, hm⟩
    · refine .inr (.inl ⟨t', ?_, hd, hd.room h⟩)
      rw [makeRoom_of_grow_ok hc hgrow, ifRoom_of_lt (hd.room h)]
    · exact .inr (.inr ⟨fault, history, makeRoom_of_grow_error hc hgrow, hdup, hm⟩)
  · rw [makeRoom_of_not_crowded hc]
    rcases Nat.lt_or_ge t.occupied t.slots with hroom | hfull
    · exact .inl ⟨ifRoom_of_lt hroom, hroom⟩
    · exact .inr (.inr ⟨_, t.arena.history, ifRoom_of_full hfull, by simp, by simp⟩)

/-- Room is made by doubling a crowded table, and in no other way. -/
theorem sizes_of_makeRoom_ok {t' : Table} (h : t.Sound) (hmake : t.makeRoom = (.ok (), t')) :
    t'.Sound ∧ t'.slots = (if t.isCrowded then 2 * t.slots else t.slots)
      ∧ t'.occupied = t.occupied ∧ t'.occupied < t'.slots := by
  by_cases hc : t.isCrowded = true
  · rw [if_pos hc]
    rcases grow_cases h (isCrowded_iff.1 hc).2 with ⟨t'', hgrow, hd⟩ | ⟨fault, history, hgrow, -⟩
    · rw [makeRoom_of_grow_ok hc hgrow, ifRoom_of_lt (hd.room h)] at hmake
      cases hmake
      exact ⟨hd.sound, hd.slots, hd.occupied, hd.room h⟩
    · rw [makeRoom_of_grow_error hc hgrow] at hmake
      cases hmake
  · rw [if_neg hc]
    rw [makeRoom_of_not_crowded hc] at hmake
    rcases Nat.lt_or_ge t.occupied t.slots with hroom | hfull
    · rw [ifRoom_of_lt hroom] at hmake
      cases hmake
      exact ⟨h, rfl, rfl, hroom⟩
    · rw [ifRoom_of_full hfull] at hmake
      cases hmake

theorem sizes_of_makeRoom_error {t' : Table} (h : t.Sound) {fault : Fault}
    (hmake : t.makeRoom = (.error fault, t')) :
    t'.slots = t.slots ∧ t'.occupied = t.occupied ∧ ∀ name, fault ≠ .duplicateClass name := by
  rcases makeRoom_cases h with ⟨hm, -⟩ | ⟨t'', hm, -⟩ | ⟨fault', history, hm, hdup, -⟩ <;>
    rw [hm] at hmake <;> cases hmake
  exact ⟨rfl, rfl, hdup⟩

/-- What a table has become by one more entry. -/
structure Entered (t : Table) (hash id : UInt32) (t' : Table) : Prop where
  sound : t'.Sound
  mapper : t'.arena.mapper = t.arena.mapper
  slots : t'.slots = t.slots
  committed : t'.arena.committed = t.arena.committed
  held : t'.slotArray.held = Slot.pack hash id ::ₘ t.slotArray.held

theorem Entered.occupied {t' : Table} (h : t.Sound) {hash id : UInt32} (ht : t.Entered hash id t') :
    t'.occupied = t.occupied + 1 := by
  rw [← ht.sound.occupied, ht.held, Multiset.card_cons, h.occupied]

theorem exists_insert (h : t.Sound) (hroom : t.occupied < t.slots) (hash id : UInt32) :
    ∃ t', t.insert hash id = (.ok (), t') ∧ t.Entered hash id t' := by
  obtain ⟨s, hplace, hcount, hs, hheld⟩ := SlotArray.exists_place h.array
    (by rw [h.occupied]; exact hroom) (Slot.pack_ne_empty hash id)
  have hslots : s.count = t.slots := hcount
  refine ⟨{ t.withSlotArray s with occupied := t.occupied + 1 }, ?_, ⟨⟨?_, h.maxSlots, ?_,
    h.maxSlots_le, hs, ?_⟩, rfl, hcount, rfl, hheld⟩⟩
  · unfold insert
    rw [if_neg (by omega), hplace]
  · obtain ⟨k, hk⟩ := h.slots
    exact ⟨k, hslots.trans hk⟩
  · exact hslots.trans_le h.slots_le
  · show s.held.card = t.occupied + 1
    rw [hheld, Multiset.card_cons, h.occupied]

end Table

theorem Sizing.rules_of_validate {sizing : Sizing} (h : sizing.validate = .ok ()) :
    (∃ k, sizing.initialSlots = 2 ^ k) ∧ (∃ k, sizing.maxSlots = 2 ^ k)
      ∧ sizing.initialSlots ≤ sizing.maxSlots ∧ sizing.maxSlots ≤ slotLimit
      ∧ 1 ≤ sizing.loadPercent ∧ sizing.loadPercent ≤ 95 := by
  unfold validate at h
  rcases hf : sizing.fault? with _ | fault
  · unfold fault? at hf
    split_ifs at hf with h1 h2 h3 h4 h5
    simp only [Bool.not_eq_true', Bool.not_eq_false, Bool.or_eq_true, decide_eq_true_eq, not_or,
      isPowerOfTwo_iff, Nat.one_shiftLeft] at h1 h2 h5
    exact ⟨h1, h2, by omega, by omega, by omega, by omega⟩
  · rw [hf] at h
    cases h

namespace Table

/-- A new table has the sizes it was asked for, and its arena has been sized and has grown once. -/
theorem exists_of_new {mapper : Mapper} {sizing : Sizing} {t : Table}
    (h : Table.new mapper sizing = .ok t) :
    sizing.validate = .ok () ∧ ∃ reserved arena span,
      Arena.reserve mapper sizing.reservationSize = .ok reserved
        ∧ reserved.grow (sizing.initialSlots * slotSize) = (.ok span, arena)
        ∧ t = ⟨arena, sizing.initialSlots, 0, sizing.maxSlots, sizing.loadPercent⟩ := by
  unfold new at h
  rcases hv : sizing.validate with fault | _ <;> rw [hv] at h
  · cases h
  simp only at h
  rcases hr : Arena.reserve mapper sizing.reservationSize with refusal | arena <;> rw [hr] at h
  · cases h
  simp only [ofArena] at h
  split_ifs at h with halign
  rcases hgrow : arena.grow (sizing.initialSlots * slotSize) with ⟨fault | span, arena'⟩ <;>
    rw [hgrow] at h
  · cases h
  · cases h
    exact ⟨rfl, arena, arena', span, rfl, hgrow, rfl⟩

/-- Why there is no new table: the sizing breaks a rule, the reservation fails, or what was reserved
is of no use, be it for its alignment or for the first commit, and is released. -/
theorem refusal_cases {mapper : Mapper} {sizing : Sizing} {refusal : Refusal}
    (h : Table.new mapper sizing = .error refusal) :
    (∃ fault, sizing.fault? = some fault ∧ refusal = ⟨.invalidSizing fault, []⟩)
      ∨ sizing.validate = .ok () ∧ (Arena.reserve mapper sizing.reservationSize = .error refusal
        ∨ ∃ arena, Arena.reserve mapper sizing.reservationSize = .ok arena
          ∧ (refusal = ⟨.reservationFailed arena.reserved .misaligned, arena.release⟩
            ∨ ∃ fault arena', arena.grow (sizing.initialSlots * slotSize) = (.error fault, arena')
              ∧ refusal = ⟨fault, arena'.release⟩)) := by
  unfold new at h
  rcases hfault : sizing.fault? with _ | fault
  · have hvalid : sizing.validate = .ok () := by
      unfold Sizing.validate
      rw [hfault]
    rw [hvalid] at h
    simp only at h
    refine .inr ⟨hvalid, ?_⟩
    rcases hreserve : Arena.reserve mapper sizing.reservationSize with refusal' | arena <;>
      rw [hreserve] at h
    · cases h
      exact .inl rfl
    refine .inr ⟨arena, rfl, ?_⟩
    simp only [ofArena] at h
    split_ifs at h
    · cases h
      exact .inl rfl
    · rcases hgrow : arena.grow (sizing.initialSlots * slotSize) with ⟨fault | span, arena'⟩ <;>
        rw [hgrow] at h <;> cases h
      exact .inr ⟨fault, arena', rfl, rfl⟩
  · unfold Sizing.validate at h
    rw [hfault] at h
    cases h
    exact .inl ⟨fault, rfl, rfl⟩

theorem sizes_of_new {mapper : Mapper} {sizing : Sizing} {t : Table}
    (h : Table.new mapper sizing = .ok t) :
    t.slots = sizing.initialSlots ∧ t.occupied = 0 ∧ t.maxSlots = sizing.maxSlots
      ∧ t.loadPercent = sizing.loadPercent := by
  obtain ⟨-, -, arena, -, -, -, rfl⟩ := exists_of_new h
  exact ⟨rfl, rfl, rfl, rfl⟩

theorem sound_of_new {mapper : Mapper} {sizing : Sizing} {t : Table}
    (h : Table.new mapper sizing = .ok t) :
    t.Sound ∧ t.slotArray.held = 0 ∧ t.arena.mapper = mapper := by
  obtain ⟨hvalid, arena, arena', span, hreserve, hgrow, rfl⟩ := exists_of_new h
  obtain ⟨hinit, hmax, hle, hlim, -, -⟩ := Sizing.rules_of_validate hvalid
  obtain ⟨hmapper, hbytes, -⟩ := Arena.fresh_of_reserve hreserve
  rcases arena.grow_cases (sizing.initialSlots * slotSize) with ⟨span', a, hgrow', hmap, hrange⟩ |
    ⟨fault, history, hgrow', -, -⟩ <;> rw [hgrow'] at hgrow <;> cases hgrow
  have hblank : ∀ i, (Store.blank.word i) = Slot.empty := Store.word_blank
  have harray : (⟨arena', sizing.initialSlots, 0, sizing.maxSlots, sizing.loadPercent⟩
      : Table).slotArray = ⟨.blank, sizing.initialSlots⟩ := by
    simp only [slotArray, hrange, hbytes]
  have hpos : 0 < sizing.initialSlots := by
    obtain ⟨k, hk⟩ := hinit
    rw [hk]
    exact Nat.two_pow_pos k
  have hheld := SlotArray.held_of_blank (s := ⟨.blank, sizing.initialSlots⟩) hblank
  refine ⟨⟨hinit, hmax, hle, hlim, ?_, ?_⟩, ?_, hmap.trans hmapper⟩ <;> rw [harray]
  · exact SlotArray.sound_of_blank hpos hblank
  · rw [hheld]
    rfl
  · exact hheld

end Table

end ClassLoading
