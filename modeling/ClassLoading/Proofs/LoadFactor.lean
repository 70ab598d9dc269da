import ClassLoading.Proofs.Insertions

/-!
# The load factor

To take one more entry a table doubles once at most. Once it holds an entry that is enough: slots
that bear `n` entries within the load factor bear `n + 1` when there are twice as many. Only the
first entry can be too much for twice the smallest table, so a sizing keeps its load just where that
entry is not, or where twice the smallest table is the largest one (`load_guarantee`).

The slots never become fewer, nor more than twice as many at a time, whatever the mapper does.
-/

namespace ClassLoading

namespace Arena

theorem reserve_system {size : Nat} (hpos : 0 < size) (hle : size ≤ slotLimit * slotSize) :
    ∃ a, Arena.reserve Mapper.system size = .ok a ∧ a.range.base = 4096 := by
  have hpages : size ≤ wholePages 4096 size := le_wholePages (by decide) size
  have hend := wholePages_le 4096 size
  have hmost : slotLimit * slotSize = 17179869184 := by decide
  have hlimit : sizeLimit = 18446744073709551615 := by decide
  have hlength : Mapper.maxLength = 9223372036854775807 := by decide
  obtain ⟨k, hk⟩ : ∃ k, wholePages 4096 size = k + 1 := ⟨wholePages 4096 size - 1, by omega⟩
  have hround : roundToPage size Mapper.system.pageSize = some (k + 1) := by
    rw [← hk]
    exact roundToPage_eq (by show size + 4095 ≤ sizeLimit; omega)
  have hgrant : Mapper.system.onReserve [] (k + 1) = .granted ⟨4096, k + 1⟩ := by
    simp only [Mapper.system]
    rw [if_neg (by omega), if_neg (by omega)]
  unfold reserve
  rw [hround]
  simp only [Mapper.reserve, hgrant, Nat.lt_irrefl, if_false]
  exact ⟨_, rfl, rfl⟩

end Arena

namespace Table

/-- Over a generous mapper that has an aligned range for it, there is a new table. -/
theorem exists_new {mapper : Mapper} {sizing : Sizing} {arena : Arena}
    (h : sizing.validate = .ok ()) (hm : mapper.Generous)
    (hreserve : Arena.reserve mapper sizing.reservationSize = .ok arena)
    (halign : arena.range.base % slotSize = 0) : ∃ t, Table.new mapper sizing = .ok t := by
  obtain ⟨hne, hend⟩ := grownEnd?_first h hreserve
  obtain ⟨rfl, -, -⟩ := Arena.fresh_of_reserve hreserve
  have hgrow := arena.grow_of_grownEnd _ hne hend
  rw [Arena.answer_granted hm hend] at hgrow
  unfold new
  simp only [h, hreserve, ofArena, halign, hgrow, ne_eq, not_true_eq_false, if_false]
  exact ⟨_, rfl⟩

theorem exists_new_system {sizing : Sizing} (h : sizing.validate = .ok ()) :
    ∃ t, Table.new Mapper.system sizing = .ok t := by
  obtain ⟨-, ⟨k, hk⟩, -, hlim, -, -⟩ := Sizing.rules_of_validate h
  have hsize := reservationSize_eq hlim
  have hpos : 0 < sizing.reservationSize := by
    rw [hsize, hk]
    exact Nat.mul_pos (Nat.two_pow_pos k) (by decide)
  have hle : sizing.reservationSize ≤ slotLimit * slotSize := by
    rw [hsize]
    exact Nat.mul_le_mul_right _ hlim
  obtain ⟨arena, hreserve, hbase⟩ := Arena.reserve_system hpos hle
  exact exists_new h Mapper.system_generous hreserve (by rw [hbase]; decide)

end Table

namespace Registry

variable {mapper : Mapper} {sizing : Sizing} {r : Registry}

section Sizes

theorem store_sizes (h : r.table.Sound) (hroom : r.table.occupied < r.table.slots) (c : Class) :
    (r.store c).2.table.slots = r.table.slots
      ∧ (r.store c).2.table.occupied ≤ r.table.occupied + 1
      ∧ ∀ name, (r.store c).1 ≠ .error (.duplicateClass name) := by
  unfold store
  split_ifs
  · exact ⟨rfl, Nat.le_succ _, by simp⟩
  · obtain ⟨t, hinsert, ht⟩ :=
      Table.exists_insert h hroom (hashName c.name) (UInt32.ofNat r.size)
    simp only [hinsert]
    exact ⟨ht.slots, (ht.occupied h).le, by simp⟩

/-- After an insertion the table is as large and as full as before, or has at most one entry more,
in twice as many slots if it was crowded. -/
theorem insert_sizes (h : r.table.Sound) (c : Class) :
    ((r.insert c).2.table.slots = r.table.slots
        ∧ (r.insert c).2.table.occupied = r.table.occupied)
      ∨ (r.insert c).2.table.slots
          = (if r.table.isCrowded then 2 * r.table.slots else r.table.slots)
        ∧ (r.insert c).2.table.occupied ≤ r.table.occupied + 1 := by
  rcases r.insert_steps c with hsame | ⟨fault, t, hmake, -, rfl⟩ | ⟨t, hmake, hinsert⟩
  · rw [hsame]
    exact .inl ⟨rfl, rfl⟩
  · obtain ⟨hslots, hocc, -⟩ := Table.sizes_of_makeRoom_error h hmake
    exact .inl ⟨hslots, hocc⟩
  · obtain ⟨hsound, hslots, hocc, hroom⟩ := Table.sizes_of_makeRoom_ok h hmake
    obtain ⟨hslots', hocc', -⟩ := store_sizes (r := { r with table := t }) hsound hroom c
    rw [hinsert]
    exact .inr ⟨hslots'.trans hslots, hocc ▸ hocc'⟩

theorem insert_of_duplicate (h : r.table.Sound) {c : Class} {name : String}
    (hdup : (r.insert c).1 = .error (.duplicateClass name)) : (r.insert c).2 = r := by
  rcases r.insert_steps c with hsame | ⟨fault, t, hmake, hfault, -⟩ | ⟨t, hmake, hinsert⟩
  · exact hsame
  · rw [hfault, Except.error.injEq] at hdup
    exact absurd hdup ((Table.sizes_of_makeRoom_error h hmake).2.2 name)
  · obtain ⟨hsound, -, -, hroom⟩ := Table.sizes_of_makeRoom_ok h hmake
    rw [hinsert] at hdup
    exact absurd hdup ((store_sizes (r := { r with table := t }) hsound hroom c).2.2 name)

end Sizes

section Reachable

theorem Reachable.exists_after (h : Reachable mapper sizing r) :
    ∃ t calls, Table.new mapper sizing = .ok t ∧ r.table = t.after calls := by
  induction h with
  | new h => exact ⟨_, [], table_of_new h, rfl⟩
  | @call r c _ ih =>
    obtain ⟨t, calls, hnew, htable⟩ := ih
    obtain ⟨calls', htable'⟩ := r.call_table c
    exact ⟨t, calls ++ calls', hnew, by rw [htable', htable, Table.after_append]⟩

/-- What the table of a registry has of its sizing, whatever the mapper does. -/
structure Sized (sizing : Sizing) (r : Registry) : Prop where
  sound : r.table.Sound
  initialSlots_le : sizing.initialSlots ≤ r.table.slots
  maxSlots : r.table.maxSlots = sizing.maxSlots
  loadPercent : r.table.loadPercent = sizing.loadPercent

theorem Reachable.sized (h : Reachable mapper sizing r) : r.Sized sizing := by
  obtain ⟨t, calls, hnew, htable⟩ := h.exists_after
  obtain ⟨hinit, -, hmax, hload⟩ := Table.sizes_of_new hnew
  obtain ⟨hsound, hslots, -⟩ := Table.sound_after calls (Table.sound_of_new hnew).1
  have hkeeps := Table.keeps_after calls t
  constructor <;> rw [htable]
  · exact hsound
  · exact hinit.ge.trans hslots
  · exact hkeeps.maxSlots.trans hmax
  · exact hkeeps.loadPercent.trans hload

theorem Sized.slots_le (h : r.Sized sizing) : r.table.slots ≤ sizing.maxSlots :=
  h.maxSlots ▸ h.sound.slots_le

theorem Sized.insert_slots (h : r.Sized sizing) (c : Class) :
    r.table.slots ≤ (r.insert c).2.table.slots
      ∧ (r.insert c).2.table.slots ≤ 2 * r.table.slots := by
  rcases insert_sizes h.sound c with ⟨hslots, -⟩ | ⟨hslots, -⟩ <;> rw [hslots]
  · omega
  · split_ifs <;> omega

end Reachable

section Load

/-- Within the load factor, or in the largest table. -/
def WithinLoad (sizing : Sizing) (r : Registry) : Prop :=
  r.table.occupied * 100 ≤ r.table.slots * sizing.loadPercent ∨ r.table.slots = sizing.maxSlots

/-- Whatever is registered, and whatever commits are refused, a registry of that sizing stays
within its load. -/
def KeepsLoad (sizing : Sizing) : Prop :=
  ∀ mapper : Mapper, mapper.Steady → ∀ r, Reachable mapper sizing r → r.WithinLoad sizing

/-- Whether the smallest table can take an entry by doubling once: twice its slots are enough for
one entry, or they are as many as there can be. -/
def OneDoublingEnough (sizing : Sizing) : Prop :=
  50 ≤ sizing.initialSlots * sizing.loadPercent ∨ sizing.maxSlots ≤ 2 * sizing.initialSlots

theorem WithinLoad.insert (h : r.Sized sizing) (henough : OneDoublingEnough sizing)
    (hload : r.WithinLoad sizing) (c : Class) : (r.insert c).2.WithinLoad sizing := by
  have hle := h.slots_le
  unfold WithinLoad at hload ⊢
  rcases insert_sizes h.sound c with ⟨hslots, hocc⟩ | ⟨hslots, hocc⟩
  · rwa [hslots, hocc]
  have hcrowded : r.table.isCrowded = true ↔ r.table.slots * sizing.loadPercent
      < (r.table.occupied + 1) * 100 ∧ r.table.slots < sizing.maxSlots := by
    rw [Table.isCrowded_iff, h.loadPercent, h.maxSlots]
  rw [hslots]
  split_ifs with hc
  · obtain ⟨-, hlt⟩ := hcrowded.1 hc
    have hdouble : 2 * r.table.slots ≤ sizing.maxSlots :=
      h.maxSlots ▸ h.sound.double_le (h.maxSlots.symm ▸ hlt)
    have hinit := h.initialSlots_le
    have hload' := hload.resolve_right hlt.ne
    rw [Nat.mul_assoc]
    rcases henough with hfifty | hmax
    · -- The first entry fits by `hfifty`; a later one is no more than what the old slots bear.
      have hmono : sizing.initialSlots * sizing.loadPercent ≤ r.table.slots * sizing.loadPercent :=
        Nat.mul_le_mul_right _ hinit
      left
      omega
    · right
      omega
  · have hroomy := mt hcrowded.2 hc
    omega

theorem keepsLoad_of_enough (henough : OneDoublingEnough sizing) : KeepsLoad sizing := by
  intro mapper _ r h
  induction h with
  | new h =>
    have hocc := (Table.sizes_of_new (table_of_new h)).2.1
    left
    rw [hocc]
    omega
  | @call r c h ih =>
    cases c with
    | register c => exact ih.insert h.sized henough c
    | find name => exact ih
    | get id => exact ih
    | list => exact ih
    | size => exact ih

end Load

section Breach

/-- Over the pages of the system every sizing has a registry. -/
theorem exists_new_system (h : sizing.validate = .ok ()) :
    ∃ r, Registry.new Mapper.system sizing = .ok r := by
  obtain ⟨t, ht⟩ := Table.exists_new_system h
  unfold new
  rw [ht]
  exact ⟨_, rfl⟩

/-- Where the first doubling is not enough, the first class takes a registry over its load. -/
theorem not_keepsLoad (h : sizing.validate = .ok ()) (hfew : ¬ OneDoublingEnough sizing) :
    ¬ KeepsLoad sizing := by
  intro hkeeps
  obtain ⟨hfifty, hmax⟩ := not_or.1 hfew
  obtain ⟨r, hnew⟩ := exists_new_system h
  have hm := Mapper.system_steady
  have hr := reached_of_new hnew hm
  have hreach : Reachable Mapper.system sizing r := .new hnew
  obtain ⟨hinit, hocc, -, -⟩ := Table.sizes_of_new (table_of_new hnew)
  have hempty := (ready_of_new hnew hm).2
  have hnone : ¬ r.Registers (unfurnished "").name := by
    rintro ⟨d, hd, -⟩
    simp [hempty] at hd
  have hocc' : (r.insert (unfurnished "")).2.table.occupied = 1 := by
    obtain ⟨-, hclasses⟩ := hr.insert_granted Mapper.system_generous hnone
    have hsize : r.size = 0 := congrArg Array.size hempty
    rw [if_pos (by omega), hempty] at hclasses
    rw [(hr.insert _).ready.sound.size_eq, ← Array.length_toList, hclasses]
    rfl
  have hcrowded : r.table.isCrowded = true := by
    rw [Table.isCrowded_iff, hr.loadPercent, hr.maxSlots, hinit, hocc]
    omega
  have hslots : (r.insert (unfurnished "")).2.table.slots = 2 * sizing.initialSlots := by
    rcases insert_sizes hreach.sized.sound (unfurnished "") with ⟨-, hsame⟩ | ⟨hslots, -⟩
    · omega
    · rw [hslots, if_pos hcrowded, hinit]
  have hload : (r.insert (unfurnished "")).2.WithinLoad sizing :=
    hkeeps _ hm _ (hreach.call (.register (unfurnished "")))
  unfold WithinLoad at hload
  rw [hocc', hslots, Nat.mul_assoc] at hload
  omega

/-- A registry keeps to its load, whatever happens, if and only if one doubling is enough from the
start; its slots never become fewer, nor more than there may be or than twice as many at a time, and
a name that is taken leaves all as it was. -/
theorem load_guarantee (h : sizing.validate = .ok ()) :
    (KeepsLoad sizing ↔ 50 ≤ sizing.initialSlots * sizing.loadPercent
        ∨ sizing.maxSlots ≤ 2 * sizing.initialSlots)
      ∧ (50 ≤ sizing.loadPercent → KeepsLoad sizing) ∧ KeepsLoad {}
      ∧ ∀ mapper r, Reachable mapper sizing r → r.table.slots ≤ sizing.maxSlots ∧ ∀ c,
        r.table.slots ≤ (r.insert c).2.table.slots
          ∧ (r.insert c).2.table.slots ≤ 2 * r.table.slots
          ∧ ∀ name, (r.insert c).1 = .error (.duplicateClass name) → (r.insert c).2 = r := by
  obtain ⟨⟨k, hk⟩, -⟩ := Sizing.rules_of_validate h
  refine ⟨⟨fun hkeeps => ?_, keepsLoad_of_enough⟩, fun hfifty => keepsLoad_of_enough (.inl ?_),
    keepsLoad_of_enough (.inl (by decide)), fun mapper r hr => ⟨hr.sized.slots_le, fun c => ?_⟩⟩
  · by_contra hfew
    exact not_keepsLoad h hfew hkeeps
  · have hpos := Nat.two_pow_pos k
    calc 50 ≤ sizing.loadPercent := hfifty
      _ ≤ sizing.initialSlots * sizing.loadPercent := Nat.le_mul_of_pos_left _ (hk ▸ hpos)
  · obtain ⟨hge, hle⟩ := hr.sized.insert_slots c
    exact ⟨hge, hle, fun name => insert_of_duplicate hr.sized.sound⟩

/-- At 49 percent two slots are too few for a class, but where there are never more than two the
load is kept even at one percent. -/
theorem load_guarantee_sparse :
    Sizing.validate ⟨1, 4, 49⟩ = .ok () ∧ ¬ KeepsLoad ⟨1, 4, 49⟩
      ∧ Sizing.validate ⟨1, 2, 1⟩ = .ok () ∧ KeepsLoad ⟨1, 2, 1⟩ := by
  have hfew : Sizing.validate ⟨1, 4, 49⟩ = .ok () := by decide
  have henough : Sizing.validate ⟨1, 2, 1⟩ = .ok () := by decide
  exact ⟨hfew, mt (load_guarantee hfew).1.1 (by decide), henough,
    (load_guarantee henough).1.2 (by decide)⟩

end Breach

end Registry

end ClassLoading
