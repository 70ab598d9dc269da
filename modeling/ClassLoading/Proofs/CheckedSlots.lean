import ClassLoading.Proofs.CheckedArithmetic
import ClassLoading.Proofs.TableSteps

/-!
# Checked walks

The walks through a slot array as a machine with 64-bit sizes takes them: slots are numbered with a
mask, and a walk ends without a result where it would look at a slot that is not there or come to a
number that is too large or below zero. If the slots are a power of two and no more than a table can
have, no walk ends so, and each finds what the walk without checks finds (`checkedIds_eq`,
`checkedPlace_eq`, `checkedDouble_eq`).
-/

namespace ClassLoading

namespace SlotArray

variable (s : SlotArray)

def checkedWord (i : Nat) : Option UInt64 :=
  if i < s.count then some (s.word i) else none

def checkedSetWord (i : Nat) (word : UInt64) : Option SlotArray :=
  if i < s.count then some (s.setWord i word) else none

def checkedHome (hash : UInt32) : Option Nat := do
  let mask ← checkedSub s.count 1
  return hash.toNat &&& mask

/-- The slot some steps after another one, going round. -/
def checkedStep (i steps : Nat) : Option Nat := do
  let mask ← checkedSub s.count 1
  let sum ← checkedSize (i + steps)
  return sum &&& mask

def checkedDistance (word : UInt64) (i : Nat) : Option Nat := do
  let mask ← checkedSub s.count 1
  let home ← s.checkedHome (Slot.hash word)
  return wrappingSub i home &&& mask

def checkedIdsFrom (hash : UInt32) : (most i passed : Nat) → Option (List UInt32)
  | 0, _, _ => some []
  | most + 1, i, passed => do
    let word ← s.checkedWord i
    if word = Slot.empty then return []
    else
      let distance ← s.checkedDistance word i
      if distance < passed then return []
      else
        let next ← s.checkedStep i 1
        let later ← checkedIdsFrom hash most next (passed + 1)
        return if Slot.hash word = hash then Slot.id word :: later else later

/-- The ids that a search meets. -/
def checkedIds (hash : UInt32) : Option (List UInt32) := do
  let home ← s.checkedHome hash
  s.checkedIdsFrom hash s.count home 0

def checkedHasEmptyFrom (start : Nat) : (most steps : Nat) → Option Bool
  | 0, _ => some false
  | most + 1, steps => do
    let i ← s.checkedStep start steps
    let word ← s.checkedWord i
    if word = Slot.empty then return true else checkedHasEmptyFrom start most (steps + 1)

def checkedSettle (start : Nat) :
    (most : Nat) → SlotArray → (entry : UInt64) → (steps passed : Nat) → Option SlotArray
  | 0, s, _, _, _ => some s
  | most + 1, s, entry, steps, passed => do
    let i ← s.checkedStep start steps
    let resident ← s.checkedWord i
    if resident = Slot.empty then s.checkedSetWord i entry
    else
      let distance ← s.checkedDistance resident i
      if distance < passed then
        let s ← s.checkedSetWord i entry
        let further ← checkedSize (distance + 1)
        checkedSettle start most s resident (steps + 1) further
      else
        let further ← checkedSize (passed + 1)
        checkedSettle start most s entry (steps + 1) further

/-- The array with one more entry, or none if it is full. -/
def checkedPlace (entry : UInt64) : Option (Option SlotArray) := do
  let start ← s.checkedHome (Slot.hash entry)
  let free ← s.checkedHasEmptyFrom start s.count 0
  if free then
    let placed ← checkedSettle start s.count s entry 0 0
    return some placed
  else return none

/-- The same entries in twice as many slots. An entry that finds no slot ends this, too. -/
def checkedDouble : Option SlotArray := do
  let count ← checkedSize (2 * s.count)
  (s.entries.map Prod.snd).foldlM (fun s entry => (s.checkedPlace entry).join)
    { s.clear with count := count }

/-- Slots that masks are made for, and no more of them than a table can have. -/
structure Regular (s : SlotArray) : Prop where
  power : ∃ k, s.count = 2 ^ k
  le : s.count ≤ slotLimit

variable {s}

section Steps

theorem Regular.pos (hs : s.Regular) : 0 < s.count := by
  obtain ⟨k, hk⟩ := hs.power
  rw [hk]
  exact Nat.two_pow_pos k

theorem Regular.setWord (hs : s.Regular) (i : Nat) (w : UInt64) : (s.setWord i w).Regular :=
  ⟨hs.power, hs.le⟩

/-- A mask of the slots takes the remainder. -/
theorem Regular.and_mask (hs : s.Regular) (n : Nat) : n &&& (s.count - 1) = n % s.count := by
  obtain ⟨k, hk⟩ := hs.power
  rw [hk, Nat.and_two_pow_sub_one_eq_mod]

theorem Regular.two_mul_le (hs : s.Regular) : 2 * s.count ≤ sizeLimit :=
  (Nat.mul_le_mul_left 2 hs.le).trans (by decide)

theorem checkedWord_eq {i : Nat} (hi : i < s.count) : s.checkedWord i = some (s.word i) :=
  if_pos hi

theorem checkedSetWord_eq {i : Nat} (hi : i < s.count) (w : UInt64) :
    s.checkedSetWord i w = some (s.setWord i w) :=
  if_pos hi

theorem checkedHome_eq (hs : s.Regular) (hash : UInt32) :
    s.checkedHome hash = some (s.home hash) := by
  simp [checkedHome, checkedSub_eq hs.pos, hs.and_mask, home]

theorem checkedStep_eq (hs : s.Regular) {i steps : Nat} (hi : i < s.count)
    (hsteps : steps ≤ s.count) : s.checkedStep i steps = some ((i + steps) % s.count) := by
  have hle := hs.two_mul_le
  simp [checkedStep, checkedSub_eq hs.pos, checkedSize_eq (show i + steps ≤ sizeLimit by omega),
    hs.and_mask]

/-- Slots that are a power of two go round where sizes do. -/
theorem Regular.wrappingSub_mod (hs : s.Regular) {i home : Nat} (hhome : home < s.count) :
    wrappingSub i home % s.count = (i + s.count - home) % s.count := by
  obtain ⟨k, hk⟩ := hs.power
  have hlimit : sizeLimit + 1 = 2 ^ 64 := by decide
  have hdvd : s.count ∣ sizeLimit + 1 := by
    rw [hk, hlimit]
    refine Nat.pow_dvd_pow 2 (Nat.le_of_lt ((Nat.pow_lt_pow_iff_right (a := 2) (by decide)).1 ?_))
    rw [← hk]
    exact hs.le.trans_lt (by decide)
  have hle := Nat.le_of_dvd (by omega) hdvd
  obtain ⟨m, hm⟩ := Nat.dvd_sub hdvd (Nat.dvd_refl s.count)
  rw [wrappingSub, Nat.mod_mod_of_dvd _ hdvd,
    show i + (sizeLimit + 1) - home = i + s.count - home + s.count * m by omega,
    Nat.add_mul_mod_self_left]

theorem checkedDistance_eq (hs : s.Regular) (w : UInt64) (i : Nat) :
    s.checkedDistance w i = some (s.distance w i) := by
  simp [checkedDistance, checkedSub_eq hs.pos, checkedHome_eq hs, hs.and_mask,
    hs.wrappingSub_mod (home_lt hs.pos _), distance]

end Steps

section Walks

theorem checkedIdsFrom_eq (hs : s.Regular) (hash : UInt32) :
    ∀ (most : Nat) {i : Nat} (passed : Nat), i < s.count →
      s.checkedIdsFrom hash most i passed = some (s.idsFrom hash most i passed)
  | 0, _, _, _ => rfl
  | most + 1, i, passed, hi => by
    have hstep : s.checkedStep i 1 = some (s.next i) := checkedStep_eq hs hi hs.pos
    have ih := checkedIdsFrom_eq hs hash most (passed + 1) (next_lt hi)
    simp only [checkedIdsFrom, idsFrom, checkedWord_eq hi, checkedDistance_eq hs, hstep, ih,
      Option.bind_eq_bind, Option.bind_some, Option.pure_def]
    by_cases hempty : s.word i = Slot.empty
    · simp [hempty]
    · by_cases hnear : s.distance (s.word i) i < passed
      · simp [hempty, hnear]
      · simp [hempty, hnear]

theorem checkedIds_eq (hs : s.Regular) (hash : UInt32) :
    s.checkedIds hash = some (s.ids hash) := by
  simp [checkedIds, checkedHome_eq hs, checkedIdsFrom_eq hs hash _ _ (home_lt hs.pos hash), ids]

theorem checkedHasEmptyFrom_eq (hs : s.Regular) {start : Nat} (hstart : start < s.count) :
    ∀ (most steps : Nat), steps + most ≤ s.count →
      s.checkedHasEmptyFrom start most steps
        = some (s.hasEmptyFrom most ((start + steps) % s.count))
  | 0, _, _ => rfl
  | most + 1, steps, hle => by
    have hi : (start + steps) % s.count < s.count := Nat.mod_lt _ hs.pos
    have ih := checkedHasEmptyFrom_eq hs hstart most (steps + 1) (by omega)
    simp only [checkedHasEmptyFrom, hasEmptyFrom, checkedStep_eq hs hstart (by omega : steps ≤ _),
      checkedWord_eq hi, ih, next_mod, Option.bind_eq_bind, Option.bind_some, Option.pure_def]
    by_cases hempty : s.word ((start + steps) % s.count) = Slot.empty
    · simp [hempty]
    · simp [hempty]

theorem checkedSettle_eq {start : Nat} :
    ∀ (most : Nat) (s : SlotArray) (entry : UInt64) (steps passed : Nat), s.Regular →
      start < s.count → passed ≤ steps → steps + most ≤ s.count →
      checkedSettle start most s entry steps passed
        = some (s.settle most entry ((start + steps) % s.count) passed)
  | 0, _, _, _, _, _, _, _, _ => rfl
  | most + 1, s, entry, steps, passed, hs, hstart, hpassed, hle => by
    have hi : (start + steps) % s.count < s.count := Nat.mod_lt _ hs.pos
    have hlimit := hs.two_mul_le
    simp only [checkedSettle, settle, checkedStep_eq hs hstart (by omega : steps ≤ _),
      checkedWord_eq hi, checkedSetWord_eq hi, checkedDistance_eq hs, next_mod,
      Option.bind_eq_bind, Option.bind_some]
    split_ifs with hempty hnear
    · rfl
    · rw [checkedSize_eq (by omega), Option.bind_some]
      exact checkedSettle_eq most _ _ (steps + 1) _ (hs.setWord _ _) hstart (by omega) (by
        rw [count_setWord]
        omega)
    · rw [checkedSize_eq (by omega), Option.bind_some]
      exact checkedSettle_eq most s entry (steps + 1) _ hs hstart (by omega) (by omega)

/-- A placement stays inside the array. -/
theorem checkedPlace_eq (hs : s.Regular) (entry : UInt64) :
    s.checkedPlace entry = some (s.place? entry) := by
  have hhome := home_lt hs.pos (Slot.hash entry)
  have hfirst : (s.home (Slot.hash entry) + 0) % s.count = s.home (Slot.hash entry) :=
    Nat.mod_eq_of_lt hhome
  have hfree := checkedHasEmptyFrom_eq hs hhome s.count 0 (by omega)
  have hsettle := checkedSettle_eq s.count s entry 0 0 hs hhome le_rfl (by omega)
  rw [hfirst] at hfree hsettle
  simp only [checkedPlace, place?, checkedHome_eq hs, hfree, hsettle, Option.bind_eq_bind,
    Option.bind_some, Option.pure_def]
  split_ifs <;> rfl

theorem count_settle :
    ∀ (most : Nat) (s : SlotArray) (entry : UInt64) (i passed : Nat),
      (s.settle most entry i passed).count = s.count
  | 0, _, _, _, _ => rfl
  | most + 1, s, entry, i, passed => by
    simp only [settle]
    split_ifs
    · rfl
    · exact count_settle most _ _ _ _
    · exact count_settle most _ _ _ _

theorem Regular.place {s' : SlotArray} (hs : s.Regular) {entry : UInt64}
    (h : s.place? entry = some s') : s'.Regular := by
  unfold place? at h
  simp only [Option.ite_none_right_eq_some, Option.some.injEq] at h
  have hcount : s'.count = s.count := by
    rw [← h.2, count_settle]
  exact ⟨hcount ▸ hs.power, hcount ▸ hs.le⟩

theorem checkedPlaceAll_eq :
    ∀ (entries : List UInt64) {s : SlotArray}, s.Regular →
      entries.foldlM (fun s entry => (s.checkedPlace entry).join) s = s.placeAll? entries
  | [], _, _ => rfl
  | entry :: rest, s, hs => by
    rw [placeAll?, List.foldlM_cons, List.foldlM_cons, checkedPlace_eq hs]
    rcases hplace : s.place? entry with _ | s'
    · rfl
    · exact checkedPlaceAll_eq rest (hs.place hplace)

/-- A doubling stays inside the doubled array. -/
theorem checkedDouble_eq (hs : s.Regular) (hdouble : 2 * s.count ≤ slotLimit) :
    s.checkedDouble = s.double? := by
  obtain ⟨k, hk⟩ := hs.power
  have hdoubled : ({ s.clear with count := 2 * s.count } : SlotArray).Regular := by
    refine ⟨⟨k + 1, ?_⟩, hdouble⟩
    rw [hk, Nat.pow_succ, Nat.mul_comm]
  rw [checkedDouble, checkedSize_eq hs.two_mul_le]
  exact checkedPlaceAll_eq _ hdoubled

end Walks

end SlotArray

end ClassLoading
