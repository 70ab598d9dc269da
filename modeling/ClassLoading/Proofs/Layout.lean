import ClassLoading.Proofs.Growth
import ClassLoading.Proofs.Visits

/-!
# Layout

Over a generous mapper, a table takes as many entries as its largest size has slots, and how many
slots it comes to have follows from their number (`exists_added`, `filled_adding`). Which slots are
occupied, and how far each entry is from its home, follows from the entries: the order in which they
came does not matter (`layout_perm`), although it decides which of two entries of a home is nearer
to it.
-/

namespace ClassLoading

namespace SlotArray

/-- How far the entries are from their homes, in slot order. -/
def distances (s : SlotArray) : List Nat :=
  s.entries.map fun (i, word) => s.distance word i

theorem length_distances (s : SlotArray) : s.distances.length = s.held.card := by
  rw [← length_entries, distances, List.length_map, List.length_map]

/-- Two arrays with the same depths have entries at the same distances. -/
theorem distances_eq (s : SlotArray) :
    s.distances = (List.range s.count).filterMap fun i =>
      if s.depth i = 0 then none else some (s.depth i - 1) := by
  unfold distances entries
  rw [List.map_filterMap]
  refine List.filterMap_congr fun i _ => ?_
  by_cases h : s.word i = Slot.empty
  · simp [h, depth_of_empty h]
  · simp [h, depth_of_held h]

end SlotArray

namespace Table

variable {t t' : Table}

/-- Making room for some entries and inserting each. -/
def adding (entries : List (UInt32 × UInt32)) : List TableCall :=
  entries.flatMap fun (hash, id) => [.makeRoom, .insert hash id]

/-- How many slots a table comes to have that `n` more entries are added to. -/
def slotsAfter (load max : Nat) : (slots occupied n : Nat) → Nat
  | slots, _, 0 => slots
  | slots, occupied, n + 1 =>
    slotsAfter load max
      (if slots * load < (occupied + 1) * 100 ∧ slots < max then 2 * slots else slots)
      (occupied + 1) n

section Adding

/-- What a table has become by room for an entry and the entry itself. -/
structure Added (t : Table) (hash id : UInt32) (t' : Table) : Prop where
  sound : t'.Sound
  backed : t'.Backed
  keeps : t.Keeps t'
  slots : t'.slots = if t.isCrowded then 2 * t.slots else t.slots
  occupied : t'.occupied = t.occupied + 1
  held : t'.slotArray.held = Slot.pack hash id ::ₘ t.slotArray.held
  anchored : t'.slotArray.Anchored

theorem place_of_insert {hash id : UInt32} (h : t.insert hash id = (.ok (), t')) :
    t.slotArray.place? (Slot.pack hash id) = some t'.slotArray
      ∧ t'.occupied = t.occupied + 1 := by
  unfold insert at h
  split_ifs at h
  · cases h
  · rcases hplace : t.slotArray.place? (Slot.pack hash id) with _ | s <;> rw [hplace] at h <;>
      cases h
    exact ⟨rfl, rfl⟩

theorem exists_added (h : t.Sound) (hb : t.Backed) (hm : t.arena.mapper.Generous)
    (hload : t.loadPercent ≤ 95) (hroom : t.occupied < t.maxSlots) (hash id : UInt32) :
    ∃ t₁ t', t.makeRoom = (.ok (), t₁) ∧ t₁.insert hash id = (.ok (), t')
      ∧ t.Added hash id t' := by
  obtain ⟨t₁, hmake, hr⟩ := exists_roomy h hb hm hload hroom
  obtain ⟨t', hinsert, he⟩ := exists_insert hr.sound hr.room hash id
  have hbacked := hr.backed.insert hr.sound hash id
  have hkeeps := t₁.insert_keeps hash id
  rw [hinsert] at hbacked hkeeps
  obtain ⟨hplace, hocc⟩ := place_of_insert hinsert
  refine ⟨t₁, t', hmake, hinsert, he.sound, hbacked, hr.keeps.trans hkeeps,
    he.slots.trans hr.slots, hocc.trans (congrArg _ hr.occupied), ?_, ?_⟩
  · rw [he.held, hr.held]
  · exact SlotArray.anchored_of_place hr.sound.array (Slot.pack_ne_empty hash id) hplace he.slots
      he.sound.array

/-- What becomes of a table that some entries are added to. -/
structure Filled (t : Table) (entries : List (UInt32 × UInt32)) : Prop where
  answers : ∀ step ∈ t.trace (adding entries), step.2 = .ok ()
  sound : (t.after (adding entries)).Sound
  anchored : (t.after (adding entries)).slotArray.Anchored
  slots : (t.after (adding entries)).slots
    = slotsAfter t.loadPercent t.maxSlots t.slots t.occupied entries.length
  held : (t.after (adding entries)).slotArray.held
    = (entries.map fun (hash, id) => Slot.pack hash id : Multiset UInt64) + t.slotArray.held

theorem filled_adding :
    ∀ (entries : List (UInt32 × UInt32)) {t : Table}, t.Sound → t.Backed →
      t.arena.mapper.Generous → t.loadPercent ≤ 95 → t.slotArray.Anchored →
      t.occupied + entries.length ≤ t.maxSlots → t.Filled entries
  | [], t, h, _, _, _, ha, _ => ⟨nofun, h, ha, rfl, (Multiset.zero_add _).symm⟩
  | (hash, id) :: rest, t, h, hb, hm, hload, _, hroom => by
    rw [List.length_cons] at hroom
    obtain ⟨t₁, t', hmake, hinsert, hadded⟩ := exists_added h hb hm hload (by omega) hash id
    have htrace : t.trace (adding ((hash, id) :: rest))
        = (.makeRoom, .ok ()) :: (.insert hash id, .ok ()) :: t'.trace (adding rest) := by
      show t.trace (.makeRoom :: .insert hash id :: adding rest) = _
      simp only [trace, call, hmake, hinsert]
    have hafter : t.after (adding ((hash, id) :: rest)) = t'.after (adding rest) := by
      show t.after (.makeRoom :: .insert hash id :: adding rest) = _
      simp only [after, call, hmake, hinsert]
    have hfilled := filled_adding rest hadded.sound hadded.backed (hadded.keeps.mapper ▸ hm)
      (hadded.keeps.loadPercent ▸ hload) hadded.anchored (by
        rw [hadded.occupied, hadded.keeps.maxSlots]
        omega)
    refine ⟨?_, ?_, ?_, ?_, ?_⟩
    · rw [htrace]
      simpa using hfilled.answers
    · rw [hafter]
      exact hfilled.sound
    · rw [hafter]
      exact hfilled.anchored
    · rw [hafter, hfilled.slots, hadded.keeps.loadPercent, hadded.keeps.maxSlots, hadded.slots,
        hadded.occupied, List.length_cons, slotsAfter]
      exact congrArg (slotsAfter _ _ · _ _) (if_congr isCrowded_iff rfl rfl)
    · rw [hafter, hfilled.held, hadded.held, List.map_cons, ← Multiset.cons_coe, Multiset.cons_add,
        Multiset.add_cons]

theorem filled_of_new {mapper : Mapper} {sizing : Sizing} (h : Table.new mapper sizing = .ok t)
    (hm : mapper.Generous) {entries : List (UInt32 × UInt32)}
    (hlen : entries.length ≤ sizing.maxSlots) : t.Filled entries := by
  obtain ⟨hsound, hheld, hmapper⟩ := sound_of_new h
  obtain ⟨hvalid, -⟩ := exists_of_new h
  obtain ⟨-, -, -, -, -, hload⟩ := Sizing.rules_of_validate hvalid
  obtain ⟨-, hocc, hmax, hpercent⟩ := sizes_of_new h
  exact filled_adding entries hsound (backed_of_new h) (hmapper.symm ▸ hm) (hpercent.trans_le hload)
    (SlotArray.anchored_of_blank hsound.array.pos (hsound.array.blank_of_held hheld)) (by omega)

end Adding

section Layout

/-- The same slots are occupied, by entries that are as far from their homes. -/
structure SameLayout (t t' : Table) : Prop where
  slots : t'.slots = t.slots
  empty_iff : ∀ i < t.slots,
    t'.slotArray.word i = Slot.empty ↔ t.slotArray.word i = Slot.empty
  distance : ∀ i < t.slots, t.slotArray.word i ≠ Slot.empty →
    t'.slotArray.distance (t'.slotArray.word i) i = t.slotArray.distance (t.slotArray.word i) i
  probes : t'.probes = t.probes

theorem probes_eq (t : Table) : t.probes
    = ⟨t.slotArray.distances.foldl max 0, t.slotArray.distances.sum, t.occupied⟩ := rfl

theorem sameLayout_of_depth (hslots : t'.slots = t.slots) (hocc : t'.occupied = t.occupied)
    (hdepth : ∀ i < t.slots, t'.slotArray.depth i = t.slotArray.depth i) : t.SameLayout t' := by
  have hempty : ∀ i < t.slots,
      (t'.slotArray.word i = Slot.empty ↔ t.slotArray.word i = Slot.empty) := by
    intro i hi
    rw [← SlotArray.depth_eq_zero_iff, hdepth i hi, SlotArray.depth_eq_zero_iff]
  refine ⟨hslots, hempty, fun i hi hword => ?_, ?_⟩
  · have hsame := hdepth i hi
    rw [SlotArray.depth_of_held hword, SlotArray.depth_of_held ((hempty i hi).not.2 hword)] at hsame
    omega
  · have hdistances : t'.slotArray.distances = t.slotArray.distances := by
      rw [SlotArray.distances_eq, SlotArray.distances_eq]
      change (List.range t'.slots).filterMap _ = (List.range t.slots).filterMap _
      rw [hslots]
      refine List.filterMap_congr fun i hi => ?_
      rw [hdepth i (List.mem_range.1 hi)]
    rw [probes_eq, probes_eq, hdistances, hocc]

/-- Adding the same entries in two orders to new tables of one sizing works, and the tables have the
same layout, up to the last slot. -/
theorem layout_perm {mapper mapper' : Mapper} {sizing : Sizing}
    (h : Table.new mapper sizing = .ok t) (h' : Table.new mapper' sizing = .ok t')
    (hm : mapper.Generous) (hm' : mapper'.Generous) {entries entries' : List (UInt32 × UInt32)}
    (hperm : entries.Perm entries') (hlen : entries.length ≤ sizing.maxSlots) :
    (∀ step ∈ t.trace (adding entries), step.2 = .ok ())
      ∧ (∀ step ∈ t'.trace (adding entries'), step.2 = .ok ())
      ∧ (t.after (adding entries)).SameLayout (t'.after (adding entries')) := by
  have hfilled := filled_of_new h hm hlen
  have hfilled' := filled_of_new h' hm' (hperm.length_eq ▸ hlen)
  obtain ⟨-, hblank, -⟩ := sound_of_new h
  obtain ⟨-, hblank', -⟩ := sound_of_new h'
  obtain ⟨hinit, hocc, hmax, hpercent⟩ := sizes_of_new h
  obtain ⟨hinit', hocc', hmax', hpercent'⟩ := sizes_of_new h'
  have hslots : (t'.after (adding entries')).slots = (t.after (adding entries)).slots := by
    rw [hfilled.slots, hfilled'.slots, hinit, hinit', hocc, hocc', hmax, hmax', hpercent, hpercent',
      hperm.length_eq]
  have hheld : (t'.after (adding entries')).slotArray.held
      = (t.after (adding entries)).slotArray.held := by
    rw [hfilled.held, hfilled'.held, hblank, hblank', Multiset.coe_eq_coe.2 (hperm.map _)]
  have hoccupied : (t'.after (adding entries')).occupied = (t.after (adding entries)).occupied := by
    rw [← hfilled.sound.occupied, ← hfilled'.sound.occupied, hheld]
  refine ⟨hfilled.answers, hfilled'.answers, sameLayout_of_depth hslots hoccupied fun i hi => ?_⟩
  exact SlotArray.depth_eq_of_held hfilled.sound.array hfilled'.sound.array hfilled.anchored
    hfilled'.anchored hslots hheld hi

/-- Three entries of one home and one of the next, from one slot up to four full ones. -/
theorem layout_perm_full :
    ∃ t, Table.new Mapper.system ⟨1, 4, 95⟩ = .ok t ∧ Mapper.system.Generous
      ∧ (t.after (adding [(3, 0), (0, 1), (7, 2), (3, 3)])).occupied = 4
      ∧ (t.after (adding [(3, 0), (0, 1), (7, 2), (3, 3)])).SameLayout
        (t.after (adding [(3, 3), (7, 2), (0, 1), (3, 0)])) := by
  have hnew : Table.new Mapper.system ⟨1, 4, 95⟩ = .ok _ := rfl
  have hm := Mapper.system_generous
  exact ⟨_, hnew, hm, by decide +kernel,
    (layout_perm hnew hnew hm hm (by decide) (by decide)).2.2⟩

end Layout

end Table

end ClassLoading
