import Mathlib.Data.Multiset.Filter
import Mathlib.Data.Multiset.Range
import ClassLoading.Registry.SlotArray

/-!
# Robin Hood order

The depth of a slot is zero where it is empty and otherwise one more than the distance of the entry
in it. An array is ordered if the depth grows by at most one from each slot to the next
(`Ordered`). Settling an entry keeps that, whatever it displaces, and the entries afterwards are
those before and the new one (`settle_spec`); so a placement works as long as some slot is empty
(`exists_place`) and a doubling always does (`exists_double`).

Where an array is ordered, a search meets the entries of its hash, all of them and no others, even
if no slot is empty (`mem_ids_iff`).
-/

namespace ClassLoading.SlotArray

variable {s : SlotArray}

/-- How deep an entry sits in a slot, counted from one; zero for an empty slot. -/
def depth (s : SlotArray) (i : Nat) : Nat :=
  if s.word i = Slot.empty then 0 else s.distance (s.word i) i + 1

/-- An entry away from its home sits behind one that is about as far from its own. -/
def Ordered (s : SlotArray) : Prop :=
  ∀ i < s.count, s.depth (s.next i) ≤ s.depth i + 1

/-- The words of the entries. -/
def held (s : SlotArray) : Multiset UInt64 :=
  ((Multiset.range s.count).map s.word).filter (· ≠ Slot.empty)

section Ring

@[simp] theorem count_setWord (i : Nat) (w : UInt64) : (s.setWord i w).count = s.count := rfl

theorem word_setWord (i : Nat) (w : UInt64) (k : Nat) :
    (s.setWord i w).word k = if k = i then w else s.word k :=
  Store.word_setWord s.bytes i w k

@[simp] theorem word_setWord_self (i : Nat) (w : UInt64) : (s.setWord i w).word i = w := by
  rw [word_setWord, if_pos rfl]

theorem word_setWord_of_ne {i k : Nat} (w : UInt64) (h : k ≠ i) :
    (s.setWord i w).word k = s.word k := by
  rw [word_setWord, if_neg h]

@[simp] theorem next_setWord (i : Nat) (w : UInt64) : (s.setWord i w).next = s.next := rfl

@[simp] theorem distance_setWord (i : Nat) (w : UInt64) :
    (s.setWord i w).distance = s.distance := rfl

theorem next_lt {i : Nat} (hi : i < s.count) : s.next i < s.count :=
  Nat.mod_lt _ (by omega)

theorem home_lt (hs : 0 < s.count) (hash : UInt32) : s.home hash < s.count :=
  Nat.mod_lt _ hs

theorem distance_lt (hs : 0 < s.count) (w : UInt64) (i : Nat) : s.distance w i < s.count :=
  Nat.mod_lt _ hs

theorem next_eq {i : Nat} (hi : i < s.count) :
    s.next i = if i + 1 = s.count then 0 else i + 1 := by
  unfold next
  split_ifs with h
  · rw [h, Nat.mod_self]
  · exact Nat.mod_eq_of_lt (by omega)

theorem next_inj {i j : Nat} (hi : i < s.count) (hj : j < s.count) (h : s.next i = s.next j) :
    i = j := by
  rw [next_eq hi, next_eq hj] at h
  split_ifs at h <;> omega

theorem distance_eq (w : UInt64) {i : Nat} (hi : i < s.count) :
    s.distance w i = if s.home (Slot.hash w) ≤ i then i - s.home (Slot.hash w)
      else i + s.count - s.home (Slot.hash w) := by
  have hh := home_lt (by omega : 0 < s.count) (Slot.hash w)
  unfold distance
  split_ifs with h
  · rw [show i + s.count - s.home (Slot.hash w) = i - s.home (Slot.hash w) + s.count by omega,
      Nat.add_mod_right]
    exact Nat.mod_eq_of_lt (by omega)
  · exact Nat.mod_eq_of_lt (by omega)

theorem distance_home (hs : 0 < s.count) (w : UInt64) :
    s.distance w (s.home (Slot.hash w)) = 0 := by
  rw [distance_eq w (home_lt hs _), if_pos le_rfl, Nat.sub_self]

theorem distance_next {w : UInt64} {i : Nat} (hi : i < s.count)
    (h : s.distance w i + 1 < s.count) : s.distance w (s.next i) = s.distance w i + 1 := by
  have hh := home_lt (by omega : 0 < s.count) (Slot.hash w)
  rw [distance_eq w hi] at h ⊢
  rw [distance_eq w (next_lt hi), next_eq hi]
  split_ifs at h ⊢ <;> omega

theorem next_mod (i t : Nat) : s.next ((i + t) % s.count) = (i + (t + 1)) % s.count := by
  unfold next
  rw [Nat.mod_add_mod, Nat.add_assoc]

theorem exists_step {i k : Nat} (hi : i < s.count) (hk : k < s.count) :
    ∃ t < s.count, k = (i + t) % s.count := by
  rcases Nat.lt_or_ge k i with h | h
  · refine ⟨k + s.count - i, by omega, ?_⟩
    rw [show i + (k + s.count - i) = k + s.count by omega, Nat.add_mod_right,
      Nat.mod_eq_of_lt hk]
  · refine ⟨k - i, by omega, ?_⟩
    rw [show i + (k - i) = k by omega, Nat.mod_eq_of_lt hk]

theorem home_add_distance (w : UInt64) {i : Nat} (hi : i < s.count) :
    (s.home (Slot.hash w) + s.distance w i) % s.count = i := by
  have hh := home_lt (by omega : 0 < s.count) (Slot.hash w)
  rw [distance_eq w hi]
  split_ifs with h
  · rw [show s.home (Slot.hash w) + (i - s.home (Slot.hash w)) = i by omega,
      Nat.mod_eq_of_lt hi]
  · rw [show s.home (Slot.hash w) + (i + s.count - s.home (Slot.hash w)) = i + s.count by omega,
      Nat.add_mod_right, Nat.mod_eq_of_lt hi]

end Ring

section Depth

theorem depth_of_empty {i : Nat} (h : s.word i = Slot.empty) : s.depth i = 0 :=
  if_pos h

theorem depth_of_held {i : Nat} (h : s.word i ≠ Slot.empty) :
    s.depth i = s.distance (s.word i) i + 1 :=
  if_neg h

theorem depth_eq_zero_iff {i : Nat} : s.depth i = 0 ↔ s.word i = Slot.empty := by
  refine ⟨fun h => ?_, depth_of_empty⟩
  by_contra hword
  rw [depth_of_held hword] at h
  exact Nat.succ_ne_zero _ h

theorem depth_setWord_self {w : UInt64} (hw : w ≠ Slot.empty) (i : Nat) :
    (s.setWord i w).depth i = s.distance w i + 1 := by
  rw [depth_of_held (by rwa [word_setWord_self]), word_setWord_self, distance_setWord]

theorem depth_setWord_of_ne {i k : Nat} (w : UInt64) (h : k ≠ i) :
    (s.setWord i w).depth k = s.depth k := by
  unfold depth
  rw [word_setWord_of_ne w h, distance_setWord]

theorem depth_add_le (ho : s.Ordered) {i : Nat} (hi : i < s.count) (t : Nat) :
    s.depth ((i + t) % s.count) ≤ s.depth i + t := by
  induction t with
  | zero => rw [Nat.add_zero, Nat.mod_eq_of_lt hi, Nat.add_zero]
  | succ t ih =>
    have hstep := ho ((i + t) % s.count) (Nat.mod_lt _ (by omega))
    rw [next_mod] at hstep
    omega

/-- With an empty slot somewhere, no entry is a whole round deep. -/
theorem depth_lt (ho : s.Ordered) (hempty : ∃ k < s.count, s.word k = Slot.empty) {i : Nat}
    (hi : i < s.count) : s.depth i < s.count := by
  obtain ⟨k, hk, hw⟩ := hempty
  obtain ⟨t, ht, rfl⟩ := exists_step hk hi
  have := depth_add_le ho hk t
  rw [depth_of_empty hw] at this
  omega

/-- An entry fits where it is at least as deep as what was there, if the slot before is about as
deep. -/
theorem ordered_setWord (ho : s.Ordered) {i : Nat} {w : UInt64} (hw : w ≠ Slot.empty)
    (hold : s.depth i ≤ s.distance w i + 1)
    (hbefore : ∀ j < s.count, s.next j = i → s.distance w i ≤ s.depth j) :
    (s.setWord i w).Ordered := by
  intro j hj
  rw [count_setWord] at hj
  have hstep := ho j hj
  rw [next_setWord]
  by_cases hnext : s.next j = i
  · rw [hnext, depth_setWord_self hw]
    by_cases hji : j = i
    · rw [hji, depth_setWord_self hw]
      omega
    · rw [depth_setWord_of_ne w hji]
      have := hbefore j hj hnext
      omega
  · rw [depth_setWord_of_ne w hnext]
    by_cases hji : j = i
    · subst hji
      rw [depth_setWord_self hw]
      omega
    · rwa [depth_setWord_of_ne w hji]

end Depth

section Held

theorem mem_held {w : UInt64} :
    w ∈ s.held ↔ w ≠ Slot.empty ∧ ∃ i < s.count, s.word i = w := by
  unfold held
  simp only [Multiset.mem_filter, Multiset.mem_map, Multiset.mem_range]
  exact and_comm

theorem held_entries : ((s.entries.map Prod.snd : List UInt64) : Multiset UInt64) = s.held := by
  have hlist : s.entries.map Prod.snd
      = ((List.range s.count).map s.word).filter (· ≠ Slot.empty) := by
    unfold entries
    rw [List.map_filterMap, List.filter_map, ← List.filterMap_eq_map, ← List.filterMap_eq_filter,
      List.filterMap_filterMap]
    refine List.filterMap_congr fun i _ => ?_
    by_cases h : s.word i = Slot.empty <;> simp [h, Option.guard]
  rw [hlist, ← Multiset.filter_coe, ← Multiset.map_coe, Multiset.coe_range, held]

theorem length_entries (s : SlotArray) : (s.entries.map Prod.snd).length = s.held.card := by
  rw [← held_entries, Multiset.coe_card]

theorem ne_empty_of_mem_entries {w : UInt64} (h : w ∈ s.entries.map Prod.snd) :
    w ≠ Slot.empty := by
  rw [← Multiset.mem_coe, held_entries] at h
  exact (mem_held.1 h).1

theorem exists_held_setWord {i : Nat} (hi : i < s.count) :
    ∃ others : Multiset UInt64, ∀ w, (s.setWord i w).held
      = if w = Slot.empty then others else w ::ₘ others := by
  obtain ⟨rest, hrest⟩ := Multiset.exists_cons_of_mem (Multiset.mem_range.2 hi)
  have hnot : i ∉ rest := by
    have := Multiset.nodup_range s.count
    rw [hrest, Multiset.nodup_cons] at this
    exact this.1
  refine ⟨(rest.map s.word).filter (· ≠ Slot.empty), fun w => ?_⟩
  have hsame : rest.map (s.setWord i w).word = rest.map s.word :=
    Multiset.map_congr rfl fun k hk => word_setWord_of_ne w (ne_of_mem_of_not_mem hk hnot)
  unfold held
  rw [count_setWord, hrest, Multiset.map_cons, hsame, word_setWord_self]
  split_ifs with h
  · simp [h]
  · simp [h]

theorem setWord_word_held (i : Nat) : (s.setWord i (s.word i)).held = s.held := by
  have hword : (s.setWord i (s.word i)).word = s.word := by
    funext k
    rw [word_setWord]
    split_ifs with h
    · rw [h]
    · rfl
  unfold held
  rw [hword, count_setWord]

theorem held_setWord_empty {i : Nat} (hi : i < s.count) {w : UInt64} (hw : w ≠ Slot.empty)
    (h : s.word i = Slot.empty) : (s.setWord i w).held = w ::ₘ s.held := by
  obtain ⟨others, ho⟩ := exists_held_setWord hi
  rw [← setWord_word_held (s := s) i, ho, ho, h, if_neg hw, if_pos rfl]

theorem held_setWord {i : Nat} (hi : i < s.count) {w : UInt64} (hw : w ≠ Slot.empty)
    (h : s.word i ≠ Slot.empty) : s.word i ::ₘ (s.setWord i w).held = w ::ₘ s.held := by
  obtain ⟨others, ho⟩ := exists_held_setWord hi
  rw [← setWord_word_held (s := s) i, ho, ho, if_neg hw, if_neg h, Multiset.cons_swap]

theorem card_held_le : s.held.card ≤ s.count := by
  unfold held
  refine (Multiset.card_le_card (Multiset.filter_le _ _)).trans ?_
  rw [Multiset.card_map, Multiset.card_range]

theorem exists_empty (h : s.held.card < s.count) : ∃ k < s.count, s.word k = Slot.empty := by
  by_contra hfull
  push Not at hfull
  have hall : ∀ w ∈ (Multiset.range s.count).map s.word, w ≠ Slot.empty := by
    intro w hw
    obtain ⟨k, hk, rfl⟩ := Multiset.mem_map.1 hw
    exact hfull k (Multiset.mem_range.1 hk)
  unfold held at h
  rw [Multiset.filter_eq_self.2 hall, Multiset.card_map, Multiset.card_range] at h
  exact absurd h (lt_irrefl _)

end Held

section Settle

theorem empty_of_hasEmptyFrom :
    ∀ (most : Nat) {i : Nat}, i < s.count → s.hasEmptyFrom most i = true →
      ∃ k < s.count, s.word k = Slot.empty
  | 0, _, _, h => by simp [hasEmptyFrom] at h
  | most + 1, i, hi, h => by
    simp only [hasEmptyFrom, Bool.or_eq_true, beq_iff_eq] at h
    rcases h with h | h
    · exact ⟨i, hi, h⟩
    · exact empty_of_hasEmptyFrom most (next_lt hi) h

theorem hasEmptyFrom_of_empty :
    ∀ (most : Nat) {i t : Nat}, i < s.count → t < most →
      s.word ((i + t) % s.count) = Slot.empty → s.hasEmptyFrom most i = true
  | most + 1, i, 0, hi, _, h => by
    rw [Nat.add_zero, Nat.mod_eq_of_lt hi] at h
    simp [hasEmptyFrom, h]
  | most + 1, i, t + 1, hi, ht, h => by
    have hlater : s.hasEmptyFrom most (s.next i) = true := by
      refine hasEmptyFrom_of_empty most (t := t) (next_lt hi) (by omega) ?_
      unfold next
      rwa [Nat.mod_add_mod, Nat.add_right_comm, Nat.add_assoc]
    simp [hasEmptyFrom, hlater]

theorem hasEmptyFrom_setWord {i : Nat} (w : UInt64) (hi : s.word i ≠ Slot.empty) :
    ∀ (most j : Nat), s.hasEmptyFrom most j = true →
      (s.setWord i w).hasEmptyFrom most j = true
  | 0, _, h => by simp [hasEmptyFrom] at h
  | most + 1, j, h => by
    simp only [hasEmptyFrom, Bool.or_eq_true, beq_iff_eq] at h ⊢
    rcases h with h | h
    · left
      rw [word_setWord_of_ne w (by rintro rfl; exact hi h), h]
    · exact Or.inr (hasEmptyFrom_setWord w hi most _ h)

/-- What a settled entry leaves behind, the array before being `s`. -/
structure Settled (s : SlotArray) (entry : UInt64) (s' : SlotArray) : Prop where
  count : s'.count = s.count
  ordered : s'.Ordered
  held : s'.held = entry ::ₘ s.held
  beyond : ∀ i, s.count ≤ i → s'.word i = s.word i

/-- An entry that has come to slot `i`, and is no further from its home than the entry before that
slot is deep, settles if an empty slot lies ahead. -/
theorem settle_spec :
    ∀ (most : Nat) (s : SlotArray) (entry : UInt64) (i : Nat), i < s.count →
      entry ≠ Slot.empty → s.Ordered → s.hasEmptyFrom most i = true →
      (∀ j < s.count, s.next j = i → s.distance entry i ≤ s.depth j) →
      Settled s entry (s.settle most entry i (s.distance entry i))
  | 0, s, _, i, _, _, _, hfree, _ => by simp [hasEmptyFrom] at hfree
  | most + 1, s, entry, i, hi, hentry, ho, hfree, hbefore => by
    have hempty := empty_of_hasEmptyFrom _ hi hfree
    have hdeep := depth_lt ho hempty hi
    simp only [hasEmptyFrom, Bool.or_eq_true, beq_iff_eq] at hfree
    unfold settle
    simp only
    split_ifs with hslot hnear
    · -- the slot is empty: the entry stays here
      have hold : s.depth i ≤ s.distance entry i + 1 := by
        rw [depth_of_empty hslot]
        exact Nat.zero_le _
      refine ⟨rfl, ordered_setWord ho hentry hold hbefore, held_setWord_empty hi hentry hslot,
        fun k hk => word_setWord_of_ne entry (by omega)⟩
    · -- the resident is nearer to its home: it gives way and seeks on
      have hres := depth_of_held hslot
      have hfar := distance_next hi (w := s.word i) (by omega)
      have ho' := ordered_setWord ho hentry (by omega) hbefore
      have hahead := hasEmptyFrom_setWord entry hslot most _ (hfree.resolve_left hslot)
      have hbefore' : ∀ j < (s.setWord i entry).count, (s.setWord i entry).next j = s.next i →
          s.distance (s.word i) (s.next i) ≤ (s.setWord i entry).depth j := by
        intro j hj hnext
        have hji : j = i := next_inj hj hi hnext
        rw [hji, depth_setWord_self hentry]
        omega
      have ih := settle_spec most (s.setWord i entry) (s.word i) (s.next i) (next_lt hi) hslot ho'
        hahead hbefore'
      rw [distance_setWord, hfar] at ih
      refine ⟨ih.count, ih.ordered, ?_, fun k hk => ?_⟩
      · rw [ih.held, held_setWord hi hentry hslot]
      · rw [ih.beyond k hk, word_setWord_of_ne entry (by omega)]
    · -- the resident is as far from its home: the entry goes on
      have hres := depth_of_held hslot
      have hfar := distance_next hi (w := entry) (by omega)
      have hbefore' : ∀ j < s.count, s.next j = s.next i →
          s.distance entry (s.next i) ≤ s.depth j := by
        intro j hj hnext
        have hji : j = i := next_inj hj hi hnext
        rw [hji]
        omega
      have ih := settle_spec most s entry (s.next i) (next_lt hi) hentry ho
        (hfree.resolve_left hslot) hbefore'
      rwa [hfar] at ih

end Settle

/-- Slots in order, with nothing behind the last one. -/
structure Sound (s : SlotArray) : Prop where
  pos : 0 < s.count
  ordered : s.Ordered
  beyond : ∀ i, s.count ≤ i → s.word i = Slot.empty

section Place

theorem sound_of_blank (hs : 0 < s.count) (h : ∀ i, s.word i = Slot.empty) : s.Sound :=
  ⟨hs, fun i _ => by rw [depth_of_empty (h _)]; exact Nat.zero_le _, fun i _ => h i⟩

theorem held_of_blank (h : ∀ i, s.word i = Slot.empty) : s.held = 0 := by
  refine Multiset.eq_zero_of_forall_notMem fun w hw => ?_
  obtain ⟨hne, i, -, rfl⟩ := mem_held.1 hw
  exact hne (h i)

theorem Sound.blank_of_held (hs : s.Sound) (h : s.held = 0) (i : Nat) : s.word i = Slot.empty := by
  rcases Nat.lt_or_ge i s.count with hi | hi
  · by_contra hword
    have hmem := mem_held.2 ⟨hword, i, hi, rfl⟩
    rw [h] at hmem
    exact Multiset.notMem_zero _ hmem
  · exact hs.beyond i hi

theorem exists_place (hs : s.Sound) (hroom : s.held.card < s.count) {entry : UInt64}
    (hentry : entry ≠ Slot.empty) :
    ∃ s', s.place? entry = some s' ∧ s'.count = s.count ∧ s'.Sound
      ∧ s'.held = entry ::ₘ s.held := by
  have hhome := home_lt hs.pos (Slot.hash entry)
  obtain ⟨k, hk, hempty⟩ := exists_empty hroom
  obtain ⟨t, ht, rfl⟩ := exists_step hhome hk
  have hfree := hasEmptyFrom_of_empty s.count hhome ht hempty
  have hzero := distance_home hs.pos entry
  have hset := settle_spec s.count s entry _ hhome hentry hs.ordered hfree
    fun j _ _ => by rw [hzero]; exact Nat.zero_le _
  rw [hzero] at hset
  refine ⟨s.settle s.count entry (s.home (Slot.hash entry)) 0, ?_, hset.count,
    ⟨?_, hset.ordered, fun i hi => ?_⟩, hset.held⟩
  · unfold place?
    rw [if_pos hfree]
  · rw [hset.count]
    exact hs.pos
  · rw [hset.count] at hi
    rw [hset.beyond i hi, hs.beyond i hi]

theorem exists_placeAll :
    ∀ (entries : List UInt64) {s : SlotArray}, s.Sound → (∀ w ∈ entries, w ≠ Slot.empty) →
      s.held.card + entries.length ≤ s.count →
      ∃ s', s.placeAll? entries = some s' ∧ s'.count = s.count ∧ s'.Sound
        ∧ s'.held = (entries : Multiset UInt64) + s.held
  | [], s, hs, _, _ => ⟨s, rfl, rfl, hs, by simp⟩
  | entry :: rest, s, hs, hne, hroom => by
    rw [List.length_cons] at hroom
    obtain ⟨s₁, hplace, hcount, hs₁, hheld⟩ :=
      exists_place hs (by omega) (hne entry List.mem_cons_self)
    have hroom₁ : s₁.held.card + rest.length ≤ s₁.count := by
      rw [hheld, Multiset.card_cons, hcount]
      omega
    obtain ⟨s', hrest, hcount', hs', hheld'⟩ :=
      exists_placeAll rest hs₁ (fun w hw => hne w (List.mem_cons_of_mem _ hw)) hroom₁
    refine ⟨s', ?_, hcount'.trans hcount, hs', ?_⟩
    · unfold placeAll? at hrest ⊢
      rw [List.foldlM_cons, hplace]
      exact hrest
    · rw [hheld', hheld, Multiset.add_cons, ← Multiset.cons_coe, Multiset.cons_add]

theorem foldl_empty (l : List Nat) :
    ∀ s : SlotArray, (l.foldl (fun s i => s.setWord i Slot.empty) s).count = s.count
      ∧ ∀ k, (l.foldl (fun s i => s.setWord i Slot.empty) s).word k
        = if k ∈ l then Slot.empty else s.word k := by
  induction l with
  | nil => intro s; simp
  | cons i l ih =>
    intro s
    obtain ⟨hcount, hword⟩ := ih (s.setWord i Slot.empty)
    refine ⟨hcount, fun k => ?_⟩
    rw [List.foldl_cons, hword, word_setWord]
    by_cases hi : k = i <;> by_cases hl : k ∈ l <;> simp [hi, hl]

@[simp] theorem count_clear : s.clear.count = s.count :=
  (foldl_empty _ s).1

theorem word_clear (hs : s.Sound) (i : Nat) : s.clear.word i = Slot.empty := by
  unfold clear
  rw [(foldl_empty _ s).2]
  split_ifs with h
  · rfl
  · rw [List.mem_range] at h
    exact hs.beyond i (by omega)

/-- The entries always fit into twice as many slots. -/
theorem exists_double (hs : s.Sound) :
    ∃ s', s.double? = some s' ∧ s'.count = 2 * s.count ∧ s'.Sound ∧ s'.held = s.held := by
  have hblank : ∀ i, ({ s.clear with count := 2 * s.count } : SlotArray).word i = Slot.empty :=
    word_clear hs
  have hpos : 0 < 2 * s.count := by
    have := hs.pos
    omega
  obtain ⟨s', hplace, hcount, hs', hheld⟩ :=
    exists_placeAll (s.entries.map Prod.snd) (sound_of_blank hpos hblank)
      (fun _ => ne_empty_of_mem_entries) (by
      rw [held_of_blank hblank, Multiset.card_zero, length_entries]
      have := card_held_le (s := s)
      simp only
      omega)
  refine ⟨s', hplace, hcount, hs', ?_⟩
  rw [hheld, held_entries, held_of_blank hblank, Multiset.add_zero]

end Place

section Search

theorem held_of_mem_idsFrom {hash id : UInt32} :
    ∀ (most : Nat) {i passed : Nat}, i < s.count → id ∈ s.idsFrom hash most i passed →
      ∃ w ∈ s.held, Slot.hash w = hash ∧ Slot.id w = id
  | 0, _, _, _, h => by simp [idsFrom] at h
  | most + 1, i, passed, hi, h => by
    unfold idsFrom at h
    simp only at h
    split_ifs at h with hstop hhash
    · simp at h
    · rw [List.mem_cons] at h
      rcases h with rfl | h
      · rw [not_or] at hstop
        exact ⟨s.word i, mem_held.2 ⟨hstop.1, i, hi, rfl⟩, hhash, rfl⟩
      · exact held_of_mem_idsFrom most (next_lt hi) h
    · exact held_of_mem_idsFrom most (next_lt hi) h

/-- A search that has come no further than the entry in slot `k` meets that entry: on the way
there every slot is at least as deep as the search has come. -/
theorem mem_idsFrom (ho : s.Ordered) {k : Nat} (hk : k < s.count) (hne : s.word k ≠ Slot.empty) :
    ∀ (most passed : Nat), passed ≤ s.distance (s.word k) k →
      s.distance (s.word k) k < passed + most →
      Slot.id (s.word k) ∈ s.idsFrom (Slot.hash (s.word k)) most
        ((s.home (Slot.hash (s.word k)) + passed) % s.count) passed
  | 0, passed, hp, hm => by omega
  | most + 1, passed, hp, hm => by
    have hpos : 0 < s.count := by omega
    have hhome := home_add_distance (s.word k) hk
    generalize hi : (s.home (Slot.hash (s.word k)) + passed) % s.count = i
    have hlt : i < s.count := hi ▸ Nat.mod_lt _ hpos
    have hdeep : passed + 1 ≤ s.depth i := by
      have hadd := depth_add_le ho hlt (s.distance (s.word k) k - passed)
      rw [← hi, Nat.mod_add_mod, Nat.add_assoc,
        show passed + (s.distance (s.word k) k - passed) = s.distance (s.word k) k by omega, hhome,
        hi, depth_of_held hne] at hadd
      omega
    have hheld : s.word i ≠ Slot.empty := by
      intro h
      rw [depth_of_empty h] at hdeep
      omega
    rw [depth_of_held hheld] at hdeep
    have hnext : s.next i = (s.home (Slot.hash (s.word k)) + (passed + 1)) % s.count := by
      rw [← hi, next_mod]
    unfold idsFrom
    simp only
    rw [if_neg (by rw [not_or]; exact ⟨hheld, by omega⟩), hnext]
    rcases Nat.lt_or_ge passed (s.distance (s.word k) k) with hlt' | hge
    · have ih := mem_idsFrom ho hk hne most (passed + 1) hlt' (by omega)
      split_ifs
      · exact List.mem_cons_of_mem _ ih
      · exact ih
    · have hik : i = k := by
        rw [← hi, Nat.le_antisymm hp hge, hhome]
      rw [hik, if_pos rfl]
      exact List.mem_cons_self

/-- A search meets just the entries of its hash. -/
theorem mem_ids_iff (hs : s.Sound) {hash id : UInt32} :
    id ∈ s.ids hash ↔ ∃ w ∈ s.held, Slot.hash w = hash ∧ Slot.id w = id := by
  constructor
  · exact held_of_mem_idsFrom _ (home_lt hs.pos hash)
  · rintro ⟨w, hw, rfl, rfl⟩
    obtain ⟨hne, k, hk, rfl⟩ := mem_held.1 hw
    have hmem := mem_idsFrom hs.ordered hk hne s.count 0 (Nat.zero_le _)
      (by have := distance_lt hs.pos (s.word k) k; omega)
    rwa [Nat.add_zero, Nat.mod_eq_of_lt (home_lt hs.pos _)] at hmem

end Search

end ClassLoading.SlotArray
