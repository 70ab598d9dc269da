import Mathlib.Algebra.Order.BigOperators.Group.List
import ClassLoading.Proofs.CheckedSlots
import ClassLoading.Proofs.Commits
import ClassLoading.Proofs.Layout

/-!
# Checked tables

The making of a table and the calls on it as a machine with 64-bit sizes carries them out: a sum or
product that is too large, a difference below zero, slots that are not committed, a slot that is not
there and an entry that finds no slot when the table doubles end a call without a result. No call
ends so if the sizing of the table keeps the rules, whatever was called before and whatever the
mapper answers (`inRange_after`).
-/

namespace ClassLoading

namespace Arena

/-- The arena grown by some bytes; the commit takes the difference of its new end and its old. -/
def checkedGrow (a : Arena) (additional : Nat) : Option (Except Fault Span × Arena) :=
  match a.grownEnd? additional with
  | none => some (a.grow additional)
  | some stop => do
    let _ ← checkedSub stop a.committed
    return a.grow additional

theorem checkedGrow_eq (a : Arena) (n : Nat) : a.checkedGrow n = some (a.grow n) := by
  unfold checkedGrow
  rcases hend : a.grownEnd? n with _ | stop
  · rfl
  · unfold grownEnd? at hend
    split at hend
    · cases hend
    · simp only [Option.ite_none_right_eq_some, Option.some.injEq] at hend
      have hle : a.committed ≤ stop := by omega
      simp [checkedSub_eq hle]

end Arena

namespace Table

def checkedOfArena (arena : Arena) (sizing : Sizing) : Option (Except Refusal Table) :=
  if arena.range.base % slotSize ≠ 0 then
    some (.error ⟨.reservationFailed arena.reserved .misaligned, arena.release⟩)
  else do
    let bytes ← checkedSize (sizing.initialSlots * slotSize)
    let grown ← arena.checkedGrow bytes
    match grown with
    | (.error fault, arena) => return .error ⟨fault, arena.release⟩
    | (.ok _, arena) =>
      return .ok ⟨arena, sizing.initialSlots, 0, sizing.maxSlots, sizing.loadPercent⟩

def checkedNew (mapper : Mapper) (sizing : Sizing) : Option (Except Refusal Table) :=
  match sizing.validate with
  | .error fault => some (.error ⟨fault, []⟩)
  | .ok () => do
    let bytes ← checkedSize (sizing.maxSlots * slotSize)
    match Arena.reserve mapper bytes with
    | .error refusal => return .error refusal
    | .ok arena => checkedOfArena arena sizing

/-- The slots, if they lie in the committed bytes and these in the reservation. -/
def checkedSlots (t : Table) : Option SlotArray := do
  let bytes ← checkedSize (t.slots * slotSize)
  if bytes ≤ t.arena.committed ∧ t.arena.committed ≤ t.arena.reserved then some t.slotArray
  else none

def checkedFind (t : Table) (hash : UInt32) (accept : UInt32 → Bool) : Option (Option UInt32) := do
  let s ← t.checkedSlots
  let ids ← s.checkedIds hash
  return ids.find? accept

def checkedCommitDouble (t : Table) : Option (Except Fault Unit × Table) := do
  let slots ← checkedSize (2 * t.slots)
  let needed ← checkedSize (slots * slotSize)
  if needed ≤ t.arena.committed then return (.ok (), t)
  else
    let missing ← checkedSub needed t.arena.committed
    let grown ← t.arena.checkedGrow missing
    match grown with
    | (.ok _, arena) => return (.ok (), { t with arena := arena })
    | (.error fault, arena) => return (.error fault, { t with arena := arena })

def checkedGrow (t : Table) : Option (Except Fault Unit × Table) := do
  let committed ← t.checkedCommitDouble
  match committed with
  | (.error fault, t) => return (.error fault, t)
  | (.ok (), t) =>
    let s ← t.checkedSlots
    let _ ← { t with slots := 2 * t.slots }.checkedSlots
    let doubled ← s.checkedDouble
    return (.ok (), t.withSlotArray doubled)

def checkedMakeRoom (t : Table) : Option (Except Fault Unit × Table) := do
  let entries ← checkedSize (t.occupied + 1)
  let filled ← checkedSize (entries * 100)
  let most ← checkedSize (t.slots * t.loadPercent)
  if most < filled ∧ t.slots < t.maxSlots then
    let grown ← t.checkedGrow
    match grown with
    | (.error fault, t) => return (.error fault, t)
    | (.ok (), t) => return t.ifRoom
  else return t.ifRoom

def checkedInsert (t : Table) (hash id : UInt32) : Option (Except Fault Unit × Table) :=
  if t.slots ≤ t.occupied then some (.error (.registryFull t.slots), t)
  else do
    let s ← t.checkedSlots
    let placed ← s.checkedPlace (Slot.pack hash id)
    match placed with
    | none => return (.error (.registryFull t.slots), t)
    | some s =>
      let occupied ← checkedSize (t.occupied + 1)
      return (.ok (), { t.withSlotArray s with occupied := occupied })

def checkedCall (t : Table) : TableCall → Option (Except Fault Unit × Table)
  | .makeRoom => t.checkedMakeRoom
  | .insert hash id => t.checkedInsert hash id

/-- The statistics with the distance of one more entry. -/
def checkedProbe (s : SlotArray) (p : Probes) (entry : Nat × UInt64) : Option Probes := do
  let distance ← s.checkedDistance entry.2 entry.1
  let total ← checkedSize (p.total + distance)
  return { p with max := max p.max distance, total := total }

def checkedProbes (t : Table) : Option Probes := do
  let s ← t.checkedSlots
  s.entries.foldlM (checkedProbe s) ⟨0, 0, t.occupied⟩

variable {t : Table}

/-- What holds of a table from its making on: it is in order, has the pages of its slots and no
others, and keeps a load factor within the rules. -/
structure Regular (t : Table) : Prop where
  sound : t.Sound
  backed : t.Backed
  paged : t.Paged
  load : t.loadPercent ≤ 95

section Slots

theorem regular_of_new {mapper : Mapper} {sizing : Sizing} (h : Table.new mapper sizing = .ok t) :
    t.Regular := by
  obtain ⟨-, -, -, -, -, hload⟩ := Sizing.rules_of_validate (exists_of_new h).1
  obtain ⟨-, -, -, hpercent⟩ := sizes_of_new h
  exact ⟨(sound_of_new h).1, backed_of_new h, paged_of_new h, hpercent.trans_le hload⟩

theorem Regular.after (h : t.Regular) (calls : List TableCall) : (t.after calls).Regular := by
  refine ⟨(sound_after calls h.sound).1, backed_after calls h.sound h.backed,
    paged_after calls h.sound h.backed h.paged, ?_⟩
  exact (keeps_after calls t).loadPercent.trans_le h.load

theorem Regular.slots_le (h : t.Regular) : t.slots ≤ slotLimit :=
  h.sound.slots_le.trans h.sound.maxSlots_le

theorem Regular.slotArray (h : t.Regular) : t.slotArray.Regular :=
  ⟨h.sound.slots, h.slots_le⟩

theorem slots_mul_le {n : Nat} (hslots : t.slots ≤ slotLimit) (hn : n ≤ slotLimit) :
    t.slots * n ≤ sizeLimit :=
  (Nat.mul_le_mul hslots hn).trans (by decide)

theorem Regular.crowding_le (h : t.Regular) : (t.occupied + 1) * 100 ≤ sizeLimit := by
  have hocc := h.sound.occupied_le.trans h.slots_le
  exact (Nat.mul_le_mul_right _ (Nat.add_le_add_right hocc 1)).trans (by decide)

theorem Regular.entries_le (h : t.Regular) : t.occupied + 1 ≤ sizeLimit :=
  (Nat.le_mul_of_pos_right _ (by decide)).trans h.crowding_le

theorem Regular.load_le (h : t.Regular) : t.slots * t.loadPercent ≤ sizeLimit :=
  slots_mul_le h.slots_le (h.load.trans (by decide))

theorem Regular.doubling_le (h : t.Regular) : 2 * t.slots * slotSize ≤ sizeLimit :=
  (Nat.mul_le_mul_right _ (Nat.mul_le_mul_left 2 h.slots_le)).trans (by decide)

theorem Regular.committed_le (h : t.Regular) : t.arena.committed ≤ t.arena.reserved := by
  rw [h.paged.committed]
  exact (wholePages_mono _ (Nat.mul_le_mul_right _ h.sound.slots_le)).trans h.backed.room

theorem checkedSlots_eq (hslots : t.slots ≤ slotLimit)
    (hcovered : t.slots * slotSize ≤ t.arena.committed)
    (hcommitted : t.arena.committed ≤ t.arena.reserved) : t.checkedSlots = some t.slotArray := by
  have hbytes : t.slots * slotSize ≤ sizeLimit := slots_mul_le hslots (by decide)
  simp [checkedSlots, checkedSize_eq hbytes, hcovered, hcommitted]

theorem Regular.checkedSlots (h : t.Regular) : t.checkedSlots = some t.slotArray :=
  checkedSlots_eq h.slots_le h.backed.covered h.committed_le

end Slots

section Reads

theorem Regular.checkedFind (h : t.Regular) (hash : UInt32) (accept : UInt32 → Bool) :
    t.checkedFind hash accept = some (t.find? hash accept) := by
  simp [Table.checkedFind, h.checkedSlots, SlotArray.checkedIds_eq h.slotArray, find?]

theorem Regular.total_le (h : t.Regular) : t.probes.total ≤ t.slots * t.slots := by
  have hdistance : ∀ d ∈ t.slotArray.distances, d ≤ t.slots := by
    intro d hd
    obtain ⟨⟨i, word⟩, -, rfl⟩ := List.mem_map.1 hd
    exact (SlotArray.distance_lt h.sound.array.pos word i).le
  have hlen : t.slotArray.distances.length ≤ t.slots := by
    rw [SlotArray.length_distances, h.sound.occupied]
    exact h.sound.occupied_le
  calc t.probes.total = t.slotArray.distances.sum := rfl
    _ ≤ t.slotArray.distances.length • t.slots := List.sum_le_card_nsmul _ _ hdistance
    _ ≤ t.slots * t.slots := Nat.mul_le_mul_right _ hlen

theorem foldlM_checkedProbe {s : SlotArray} (hs : s.Regular) :
    ∀ (entries : List (Nat × UInt64)) (p : Probes),
      p.total + (entries.map fun (i, word) => s.distance word i).sum ≤ sizeLimit →
      entries.foldlM (checkedProbe s) p
        = some ⟨(entries.map fun (i, word) => s.distance word i).foldl max p.max,
          p.total + (entries.map fun (i, word) => s.distance word i).sum, p.entries⟩
  | [], _, _ => rfl
  | (i, word) :: rest, p, hle => by
    simp only [List.map_cons, List.sum_cons] at hle ⊢
    have hprobe : checkedProbe s p (i, word)
        = some { p with
          max := max p.max (s.distance word i), total := p.total + s.distance word i } := by
      simp [checkedProbe, SlotArray.checkedDistance_eq hs,
        checkedSize_eq (show p.total + s.distance word i ≤ sizeLimit by omega)]
    rw [List.foldlM_cons, hprobe, Option.bind_eq_bind, Option.bind_some,
      foldlM_checkedProbe hs rest _ (by simp only; omega), List.foldl_cons, Nat.add_assoc]

theorem Regular.checkedProbes (h : t.Regular) : t.checkedProbes = some t.probes := by
  have htotal := h.total_le.trans (slots_mul_le h.slots_le h.slots_le)
  rw [Table.checkedProbes, h.checkedSlots, Option.bind_eq_bind, Option.bind_some,
    foldlM_checkedProbe h.slotArray _ _ ((Nat.zero_add _).trans_le htotal), Nat.zero_add]
  rfl

end Reads

section Calls

theorem Regular.checkedCommitDouble (h : t.Regular) :
    t.checkedCommitDouble = some t.commitDouble := by
  have hneeded := h.doubling_le
  have hdouble : 2 * t.slots ≤ sizeLimit := (Nat.le_mul_of_pos_right _ (by decide)).trans hneeded
  simp only [Table.checkedCommitDouble, commitDouble, checkedSize_eq hdouble,
    checkedSize_eq hneeded, Option.bind_eq_bind, Option.bind_some, Option.pure_def]
  split_ifs with hcommitted
  · rfl
  · rw [checkedSub_eq (by omega), Option.bind_some, Arena.checkedGrow_eq, Option.bind_some]
    rcases t.arena.grow (2 * t.slots * slotSize - t.arena.committed) with ⟨fault | span, arena⟩ <;>
      rfl

theorem Regular.checkedGrow (h : t.Regular) (hlt : t.slots < t.maxSlots) :
    t.checkedGrow = some t.grow := by
  have hdouble := h.sound.double_le hlt
  have hlimit : 2 * t.slots ≤ slotLimit := hdouble.trans h.sound.maxSlots_le
  obtain ⟨-, hcovered⟩ := h.backed.commitDouble hdouble
  obtain ⟨-, hend⟩ := h.paged.commitDouble h.backed hdouble
  have hreserved := (growthEnd_le hdouble).trans h.backed.room
  rw [Table.checkedGrow, h.checkedCommitDouble, grow]
  rcases t.commitDouble_cases with ⟨arena, hcommit, -, hrange⟩ | ⟨fault, history, hcommit, -, -⟩ <;>
    rw [hcommit] at hcovered hend ⊢
  · have harray := slotArray_of_range hrange
    have hcommitted : arena.committed ≤ arena.reserved := by
      rw [Arena.reserved, hrange]
      exact (hend rfl).trans_le hreserved
    have hcovers : t.slots * slotSize ≤ arena.committed :=
      (Nat.mul_le_mul_right _ (Nat.le_mul_of_pos_left _ (by decide))).trans (hcovered rfl)
    obtain ⟨s, hs, -⟩ := SlotArray.exists_double h.sound.array
    simp [checkedSlots_eq (t := { t with arena := arena }) h.slots_le hcovers hcommitted,
      checkedSlots_eq (t := { t with arena := arena, slots := 2 * t.slots }) hlimit (hcovered rfl)
        hcommitted, harray, SlotArray.checkedDouble_eq h.slotArray hlimit, hs]
  · rfl

theorem Regular.checkedMakeRoom (h : t.Regular) : t.checkedMakeRoom = some t.makeRoom := by
  rw [Table.checkedMakeRoom, checkedSize_eq h.entries_le, Option.bind_eq_bind, Option.bind_some,
    checkedSize_eq h.crowding_le, checkedSize_eq h.load_le]
  simp only [Option.bind_some, Option.pure_def, ← isCrowded_iff]
  split_ifs with hc
  · rw [h.checkedGrow (isCrowded_iff.1 hc).2, Option.bind_eq_bind, Option.bind_some]
    rcases hgrow : t.grow with ⟨fault | _, t'⟩
    · rw [makeRoom_of_grow_error hc hgrow]
    · rw [makeRoom_of_grow_ok hc hgrow]
  · rw [makeRoom_of_not_crowded hc]

theorem Regular.checkedInsert (h : t.Regular) (hash id : UInt32) :
    t.checkedInsert hash id = some (t.insert hash id) := by
  unfold Table.checkedInsert insert
  split_ifs
  · rfl
  · rw [h.checkedSlots, Option.bind_eq_bind, Option.bind_some,
      SlotArray.checkedPlace_eq h.slotArray, Option.bind_eq_bind, Option.bind_some]
    rcases t.slotArray.place? (Slot.pack hash id) with _ | s
    · rfl
    · simp only [checkedSize_eq h.entries_le]
      rfl

/-- No call on a table leaves the range of sizes or the slots. -/
theorem Regular.checkedCall (h : t.Regular) (c : TableCall) :
    t.checkedCall c = some (t.call c) := by
  cases c with
  | makeRoom => exact h.checkedMakeRoom
  | insert hash id => exact h.checkedInsert hash id

theorem checkedOfArena_eq {sizing : Sizing} (hinit : sizing.initialSlots * slotSize ≤ sizeLimit)
    (arena : Arena) : checkedOfArena arena sizing = some (ofArena arena sizing) := by
  unfold checkedOfArena ofArena
  split_ifs
  · rfl
  · rw [checkedSize_eq hinit, Option.bind_eq_bind, Option.bind_some, Arena.checkedGrow_eq,
      Option.bind_eq_bind, Option.bind_some]
    rcases arena.grow (sizing.initialSlots * slotSize) with ⟨fault | span, arena'⟩ <;> rfl

theorem checkedNew_eq {sizing : Sizing} (hinit : sizing.initialSlots * slotSize ≤ sizeLimit)
    (hmost : sizing.maxSlots * slotSize ≤ sizeLimit)
    (hreservation : sizing.reservationSize = sizing.maxSlots * slotSize) (mapper : Mapper) :
    checkedNew mapper sizing = some (Table.new mapper sizing) := by
  unfold checkedNew new
  rcases sizing.validate with fault | _
  · rfl
  · simp only [checkedSize_eq hmost, Option.bind_eq_bind, Option.bind_some, hreservation]
    rcases Arena.reserve mapper (sizing.maxSlots * slotSize) with refusal | arena
    · rfl
    · exact checkedOfArena_eq hinit arena

/-- What no size and no slot of a table goes beyond, and that calls find the slots they need. -/
structure InRange (t : Table) : Prop where
  crowding : (t.occupied + 1) * 100 ≤ sizeLimit
  load : t.slots * t.loadPercent ≤ sizeLimit
  doubling : 2 * t.slots * slotSize ≤ sizeLimit
  total : t.probes.total ≤ sizeLimit
  covered : t.slots * slotSize ≤ t.arena.committed
  committed : t.arena.committed ≤ t.arena.reserved
  calls : ∀ c, t.checkedCall c = some (t.call c)
  searches : ∀ hash accept, t.checkedFind hash accept = some (t.find? hash accept)
  probes : t.checkedProbes = some t.probes
  redistributes : ∃ s, t.slotArray.double? = some s
  inserts : ∀ t', t.makeRoom = (.ok (), t') → ∀ hash id, (t'.insert hash id).1 = .ok ()

theorem Regular.inRange (h : t.Regular) : t.InRange := by
  refine ⟨h.crowding_le, h.load_le, h.doubling_le, h.total_le.trans
    (slots_mul_le h.slots_le h.slots_le), h.backed.covered, h.committed_le, h.checkedCall,
    h.checkedFind, h.checkedProbes, ?_, ?_⟩
  · obtain ⟨s, hs, -⟩ := SlotArray.exists_double h.sound.array
    exact ⟨s, hs⟩
  · intro t' hmake hash id
    obtain ⟨hsound, -, -, hroom⟩ := sizes_of_makeRoom_ok h.sound hmake
    obtain ⟨t'', hinsert, -⟩ := exists_insert hsound hroom hash id
    rw [hinsert]

/-- No sum, product or difference of a table that is made by the rules leaves the range of 64-bit
sizes, no slot is used that is not there, and no entry is left without one, neither by a doubling
nor by an insertion that room was made for. -/
theorem inRange_after {sizing : Sizing} (hvalid : sizing.validate = .ok ()) :
    sizing.initialSlots * slotSize ≤ sizeLimit
      ∧ sizing.maxSlots * slotSize ≤ sizeLimit
      ∧ sizing.reservationSize = sizing.maxSlots * slotSize
      ∧ ∀ mapper, checkedNew mapper sizing = some (Table.new mapper sizing)
        ∧ ∀ t, Table.new mapper sizing = .ok t → ∀ calls, (t.after calls).InRange := by
  obtain ⟨-, -, hle, hlimit, -, -⟩ := Sizing.rules_of_validate hvalid
  have hmost : sizing.maxSlots * slotSize ≤ sizeLimit :=
    (Nat.mul_le_mul_right _ hlimit).trans (by decide)
  have hinit := (Nat.mul_le_mul_right slotSize hle).trans hmost
  have hreservation := reservationSize_eq hlimit
  refine ⟨hinit, hmost, hreservation, fun mapper => ?_⟩
  exact ⟨checkedNew_eq hinit hmost hreservation mapper,
    fun t hnew calls => ((regular_of_new hnew).after calls).inRange⟩

/-- One slot is doubled to eight for three entries, and there is room for any other. -/
theorem inRange_after_doublings :
    ∃ t calls, Table.new roomy.mapper ⟨1, 16, 50⟩ = .ok t ∧ (t.after calls).slots = 8
      ∧ (t.after calls).InRange
      ∧ (t.after calls).makeRoom.1 = .ok ()
      ∧ ∀ hash id, ((t.after calls).makeRoom.2.insert hash id).1 = .ok () := by
  obtain ⟨t, calls, hnew, hslots, hmake⟩ : ∃ t calls, Table.new roomy.mapper ⟨1, 16, 50⟩ = .ok t
      ∧ (t.after calls).slots = 8 ∧ (t.after calls).makeRoom.1 = .ok () :=
    ⟨_, adding [(0, 0), (1, 1), (0, 2)], rfl, by decide +kernel, by decide +kernel⟩
  have hvalid : (⟨1, 16, 50⟩ : Sizing).validate = .ok () := rfl
  obtain ⟨-, -, -, hrange⟩ := inRange_after hvalid
  have hafter := (hrange roomy.mapper).2 t hnew calls
  exact ⟨t, calls, hnew, hslots, hafter, hmake, hafter.inserts _ (Prod.ext hmake rfl)⟩

end Calls

end Table

end ClassLoading
