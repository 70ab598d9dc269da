import Mathlib.Data.Int.ModEq
import Mathlib.Data.Nat.Count
import Mathlib.Data.Finset.Card
import ClassLoading.Proofs.RobinHood

/-!
# Where entries have been

An entry visits each slot from its home to the slot it sits in. How many entries visit a slot
follows from how many visit the slot before, of which one stays there, and how many have their home
in the slot itself (`visits_next`). If some slot is passed by no entry from before, this recurrence
around the ring has one solution, the least (`visits_le`).

In an ordered array the visits of all slots give the depth of each (`lt_visits_iff`): the entries
that visit a slot sit there and in the slots behind it, in the order of their homes. So two such
arrays with the same entries have the same depths, whichever entry of a home sits where
(`depth_eq_of_held`).
-/

namespace ClassLoading.SlotArray

variable {s s' : SlotArray}

/-- A slot that is visited is not empty. -/
def Gapless (s : SlotArray) : Prop :=
  ∀ j < s.count, ∀ t, t < s.depth ((j + t) % s.count) → s.word j ≠ Slot.empty

/-- Some slot is visited by no entry but those whose home it is. -/
def Anchored (s : SlotArray) : Prop :=
  ∃ j < s.count, ∀ t, s.depth ((j + t) % s.count) ≤ t + 1

/-- How many entries visit a slot. -/
def visits (s : SlotArray) (j : Nat) : Nat :=
  Nat.count (fun t => t < s.depth ((j + t) % s.count)) s.count

/-- How many entries have their home in a slot. -/
def homed (s : SlotArray) (j : Nat) : Nat :=
  s.held.countP fun w => s.home (Slot.hash w) = j

section Ring

theorem next_add_mod (j t : Nat) : (s.next j + t) % s.count = (j + (t + 1)) % s.count := by
  unfold next
  rw [Nat.mod_add_mod, Nat.add_assoc, Nat.add_comm 1]

theorem distance_add (w : UInt64) {t : Nat} (ht : t < s.count) :
    s.distance w ((s.home (Slot.hash w) + t) % s.count) = t := by
  have hpos : 0 < s.count := by omega
  have hh := home_lt hpos (Slot.hash w)
  rw [distance_eq w (Nat.mod_lt _ hpos)]
  rcases Nat.lt_or_ge (s.home (Slot.hash w) + t) s.count with hlt | hge
  · rw [Nat.mod_eq_of_lt hlt, if_pos (by omega), Nat.add_sub_cancel_left]
  · rw [Nat.mod_eq_sub_mod hge, Nat.mod_eq_of_lt (by omega), if_neg (by omega)]
    omega

theorem distance_eq_iff (w : UInt64) {j t : Nat} (hj : j < s.count) (ht : t < s.count) :
    s.distance w ((j + t) % s.count) = t ↔ s.home (Slot.hash w) = j := by
  have hpos : 0 < s.count := by omega
  constructor
  · intro h
    have hsame := home_add_distance w (Nat.mod_lt (j + t) hpos)
    rw [h] at hsame
    have hmod : s.home (Slot.hash w) ≡ j [MOD s.count] := Nat.ModEq.add_right_cancel' t hsame
    exact hmod.eq_of_lt_of_lt (home_lt hpos _) hj
  · rintro rfl
    exact distance_add w ht

theorem depth_le_count (hs : 0 < s.count) (i : Nat) : s.depth i ≤ s.count := by
  unfold depth
  split_ifs
  · exact Nat.zero_le _
  · exact distance_lt hs _ i

end Ring

section Counting

theorem count_rotate (p : Nat → Prop) [DecidablePred p] (n : Nat) (j : Nat) :
    Nat.count (fun t => p ((j + t) % n)) n = Nat.count (fun t => p (t % n)) n := by
  induction j with
  | zero => simp only [Nat.zero_add]
  | succ j ih =>
    have hshift := Nat.count_succ' (fun t => p ((j + t) % n)) n
    rw [Nat.count_succ, Nat.add_zero, Nat.add_mod_right] at hshift
    rw [← ih, Nat.add_right_cancel hshift]
    simp only [Nat.add_right_comm j 1, Nat.add_assoc]

theorem count_lt_eq (f : Nat → Nat) (n : Nat) :
    Nat.count (fun t => t < f t) n
      = Nat.count (fun t => t + 1 < f t) n + Nat.count (fun t => f t = t + 1) n := by
  induction n with
  | zero => rfl
  | succ n ih =>
    simp only [Nat.count_succ]
    split_ifs <;> omega

/-- The entries of a home sit as deep as they are away from it. -/
theorem homed_eq {j : Nat} (hj : j < s.count) :
    s.homed j = Nat.count (fun t => s.depth ((j + t) % s.count) = t + 1) s.count := by
  have hiff : ∀ t < s.count, s.depth ((j + t) % s.count) = t + 1 ↔
      s.word ((j + t) % s.count) ≠ Slot.empty
        ∧ s.home (Slot.hash (s.word ((j + t) % s.count))) = j := by
    intro t ht
    rw [← distance_eq_iff _ hj ht]
    by_cases hword : s.word ((j + t) % s.count) = Slot.empty
    · rw [depth_of_empty hword]
      simp [hword]
    · rw [depth_of_held hword]
      simp [hword]
  have hcount : Nat.count (fun t => s.depth ((j + t) % s.count) = t + 1) s.count
      = Nat.count (fun t => s.word (t % s.count) ≠ Slot.empty
        ∧ s.home (Slot.hash (s.word (t % s.count))) = j) s.count := by
    rw [← count_rotate (fun i => s.word i ≠ Slot.empty ∧ s.home (Slot.hash (s.word i)) = j) _ j]
    exact Nat.le_antisymm (Nat.count_mono_left fun t ht => (hiff t ht).1)
      (Nat.count_mono_left fun t ht => (hiff t ht).2)
  rw [hcount, Nat.count_eq_card_filter_range, homed, held, Multiset.countP_eq_card_filter,
    Multiset.filter_filter, Multiset.filter_map, Multiset.card_map]
  refine congrArg _ (Multiset.filter_congr fun i hi => ?_)
  rw [Nat.mod_eq_of_lt (Finset.mem_range.1 hi)]
  exact and_comm

end Counting

section Flow

/-- Of those that visit a slot, one stays and the others come to the next. -/
theorem visits_next (hg : s.Gapless) {j : Nat} (hj : j < s.count) :
    s.visits (s.next j) = s.visits j - 1 + s.homed (s.next j) := by
  have hpos : 0 < s.count := by omega
  -- No entry has gone all the way around, so only the one that stays is lost by going one slot on.
  have hround : ¬ s.count < s.depth ((j + s.count) % s.count) :=
    Nat.not_lt_of_le (depth_le_count hpos _)
  have hshift := Nat.count_succ' (fun t => t < s.depth ((j + t) % s.count)) s.count
  rw [Nat.count_succ, if_neg hround, Nat.add_zero] at hshift
  have hpassed : Nat.count (fun t => t + 1 < s.depth ((j + (t + 1)) % s.count)) s.count
      = s.visits j - 1 := by
    unfold visits
    rw [hshift]
    split_ifs with hfirst
    · rw [Nat.add_sub_cancel]
    · -- Where no entry stays the slot is empty, and without gaps no entry visits it.
      rw [Nat.add_zero]
      have hempty : s.word j = Slot.empty := by
        by_contra hword
        rw [Nat.add_zero, Nat.mod_eq_of_lt hj, depth_of_held hword] at hfirst
        exact hfirst (Nat.succ_pos _)
      have hnone : Nat.count (fun t => t + 1 < s.depth ((j + (t + 1)) % s.count)) s.count = 0 :=
        Nat.count_iff_forall_not.2 fun t _ hvisit => hg j hj (t + 1) hvisit hempty
      rw [hnone]
  rw [homed_eq (next_lt hj), ← hpassed, visits, count_lt_eq]
  simp only [next_add_mod]

theorem homed_le_visits {j : Nat} (hj : j < s.count) : s.homed j ≤ s.visits j := by
  rw [homed_eq hj]
  exact Nat.count_mono_left fun t _ ht => by omega

/-- Around the ring from an anchor, an array has no more visits than another one with the same
homes. -/
theorem visits_le (hg : s.Gapless) (hg' : s'.Gapless) (ha : s.Anchored)
    (hcount : s'.count = s.count) (hhomed : ∀ j, s'.homed j = s.homed j) {j : Nat}
    (hj : j < s.count) : s.visits j ≤ s'.visits j := by
  obtain ⟨i, hi, hanchor⟩ := ha
  obtain ⟨t, -, rfl⟩ := exists_step hi hj
  clear hj
  induction t with
  | zero =>
    have hfirst : s.visits i ≤ s.homed i := by
      rw [homed_eq hi]
      refine Nat.count_mono_left fun t _ ht => ?_
      have := hanchor t
      omega
    rw [Nat.add_zero, Nat.mod_eq_of_lt hi]
    exact hfirst.trans ((hhomed i).ge.trans (homed_le_visits (hcount ▸ hi)))
  | succ t ih =>
    have hlt : (i + t) % s.count < s.count := Nat.mod_lt _ (by omega)
    have hnext : s'.next ((i + t) % s.count) = s.next ((i + t) % s.count) := by
      unfold next
      rw [hcount]
    have hstep := visits_next hg' (hlt.trans_eq hcount.symm)
    rw [hnext, hhomed] at hstep
    rw [← next_mod, visits_next hg hlt, hstep]
    omega

/-- The visits of an anchored array without gaps follow from its entries. -/
theorem visits_eq_of_held (hg : s.Gapless) (hg' : s'.Gapless) (ha : s.Anchored) (ha' : s'.Anchored)
    (hcount : s'.count = s.count) (hheld : s'.held = s.held) {j : Nat} (hj : j < s.count) :
    s'.visits j = s.visits j := by
  have hhomed : ∀ j, s'.homed j = s.homed j := by
    intro j
    unfold homed home
    rw [hheld, hcount]
  exact Nat.le_antisymm
    (visits_le hg' hg ha' hcount.symm (fun j => (hhomed j).symm) (hj.trans_eq hcount.symm))
    (visits_le hg hg' ha hcount hhomed hj)

end Flow

section Order

theorem Ordered.gapless (ho : s.Ordered) : s.Gapless := by
  intro j hj t ht hempty
  have := depth_add_le ho hj t
  rw [depth_of_empty hempty] at this
  omega

theorem Ordered.anchored (ho : s.Ordered) {j : Nat} (hj : j < s.count) (h : s.depth j ≤ 1) :
    s.Anchored := by
  refine ⟨j, hj, fun t => ?_⟩
  have := depth_add_le ho hj t
  omega

/-- The entries that visit a slot sit there and in as many slots behind it. -/
theorem lt_visits_iff (ho : s.Ordered) {j k : Nat} (hk : k < s.count) :
    k < s.visits j ↔ k < s.depth ((j + k) % s.count) := by
  -- Depths rise by one a slot at most, so the entries that have visited `j` sit in a row from there.
  have hdown : ∀ m d, m + d < s.depth ((j + (m + d)) % s.count) →
      m < s.depth ((j + m) % s.count) := by
    intro m d h
    have hmod := depth_add_le ho (Nat.mod_lt (j + m) (by omega : 0 < s.count)) d
    rw [Nat.mod_add_mod, Nat.add_assoc] at hmod
    omega
  constructor
  · intro h
    by_contra hnot
    have hrest : Nat.count (fun d => k + d < s.depth ((j + (k + d)) % s.count)) (s.count - k)
        = 0 := Nat.count_iff_forall_not.2 fun d _ hd => hnot (hdown k d hd)
    have hsplit := Nat.count_add (fun t => t < s.depth ((j + t) % s.count)) k (s.count - k)
    rw [Nat.add_sub_cancel' hk.le, hrest, Nat.add_zero] at hsplit
    have hle := Nat.count_le (p := fun t => t < s.depth ((j + t) % s.count)) (n := k)
    unfold visits at h
    omega
  · intro h
    have hall : Nat.count (fun t => t < s.depth ((j + t) % s.count)) (k + 1) = k + 1 := by
      refine Nat.count_iff_forall.2 fun m hm => hdown m (k - m) ?_
      rwa [Nat.add_sub_cancel' (by omega)]
    calc k < Nat.count (fun t => t < s.depth ((j + t) % s.count)) (k + 1) := by omega
      _ ≤ s.visits j := Nat.count_monotone _ (by omega)

theorem depth_eq_of_visits (ho : s.Ordered) (ho' : s'.Ordered) (hcount : s'.count = s.count)
    (hvisits : ∀ j < s.count, s'.visits j = s.visits j) {i : Nat} (hi : i < s.count) :
    s'.depth i = s.depth i := by
  have hpos : 0 < s.count := by omega
  have hle := depth_le_count hpos i
  have hle' := depth_le_count (s := s') (hcount ▸ hpos) i
  refine eq_of_forall_lt_iff fun k => ?_
  rcases Nat.lt_or_ge k s.count with hk | hk
  · have hback : ((i + (s.count - k)) % s.count + k) % s.count = i := by
      rw [Nat.mod_add_mod, Nat.add_assoc, Nat.sub_add_cancel hk.le, Nat.add_mod_right,
        Nat.mod_eq_of_lt hi]
    have hlt : (i + (s.count - k)) % s.count < s.count := Nat.mod_lt _ hpos
    have hiff := lt_visits_iff ho (j := (i + (s.count - k)) % s.count) hk
    have hiff' := lt_visits_iff ho' (j := (i + (s.count - k)) % s.count) (hk.trans_eq hcount.symm)
    rw [hcount, hvisits _ hlt, hback] at hiff'
    rw [hback] at hiff
    exact hiff'.symm.trans hiff
  · omega

/-- The depths of an anchored array follow from its entries. -/
theorem depth_eq_of_held (hs : s.Sound) (hs' : s'.Sound) (ha : s.Anchored) (ha' : s'.Anchored)
    (hcount : s'.count = s.count) (hheld : s'.held = s.held) {i : Nat} (hi : i < s.count) :
    s'.depth i = s.depth i :=
  depth_eq_of_visits hs.ordered hs'.ordered hcount (fun _ hj =>
    visits_eq_of_held hs.ordered.gapless hs'.ordered.gapless ha ha' hcount hheld hj) hi

end Order

section Anchor

/-- An entry that settles in front of the slot behind an empty one, or at home there, leaves that
slot with an entry at home if it has one. -/
theorem depth_settle_le :
    ∀ (most : Nat) (s : SlotArray) (entry : UInt64) (i passed : Nat) {k : Nat}, i < s.count →
      k < s.count → entry ≠ Slot.empty → s.word k = Slot.empty → s.depth (s.next k) ≤ 1 →
      (i = s.next k → passed = 0 ∧ s.distance entry i = 0) →
      (s.settle most entry i passed).depth (s.next k) ≤ 1
  | 0, _, _, _, _, _, _, _, _, _, hle, _ => hle
  | most + 1, s, entry, i, passed, k, hi, hk, hentry, hempty, hle, hhome => by
    unfold settle
    simp only
    -- The walk stops at `k` at the latest, so it is at the slot behind `k` only if it starts there.
    split_ifs with hslot hnear
    · by_cases hik : i = s.next k
      · rw [← hik, depth_setWord_self hentry, (hhome hik).2]
      · rwa [depth_setWord_of_ne entry (Ne.symm hik)]
    · have hki : k ≠ i := by
        rintro rfl
        exact hslot hempty
      have hik : s.next k ≠ i := by
        intro h
        rw [(hhome h.symm).1] at hnear
        exact Nat.not_lt_zero _ hnear
      refine depth_settle_le most (s.setWord i entry) (s.word i) (s.next i) _ (next_lt hi) hk hslot
        ?_ ?_ fun hnext => absurd (next_inj hi hk hnext) (Ne.symm hki)
      · rwa [word_setWord_of_ne entry hki]
      · rwa [next_setWord, depth_setWord_of_ne entry hik]
    · refine depth_settle_le most s entry (s.next i) _ (next_lt hi) hk hentry hempty hle
        fun hnext => ?_
      rw [next_inj hi hk hnext] at hslot
      exact absurd hempty hslot

/-- A placement leaves an anchor, even if it takes the last empty slot: no entry has passed the slot
behind that one. -/
theorem anchored_of_place (hs : s.Sound) {entry : UInt64} (hentry : entry ≠ Slot.empty)
    (h : s.place? entry = some s') (hcount : s'.count = s.count) (hs' : s'.Sound) :
    s'.Anchored := by
  have hhome := home_lt hs.pos (Slot.hash entry)
  unfold place? at h
  simp only at h
  split_ifs at h with hfree
  obtain ⟨k, hk, hempty⟩ := empty_of_hasEmptyFrom s.count hhome hfree
  have hfollows := hs.ordered k hk
  rw [depth_of_empty hempty] at hfollows
  have hdepth := depth_settle_le s.count s entry _ 0 hhome hk hentry hempty hfollows
    fun _ => ⟨rfl, distance_home hs.pos entry⟩
  rw [Option.some.injEq] at h
  rw [h] at hdepth
  exact hs'.ordered.anchored (hcount ▸ next_lt hk) hdepth

theorem anchored_of_blank (hs : 0 < s.count) (h : ∀ i, s.word i = Slot.empty) : s.Anchored := by
  refine (sound_of_blank hs h).ordered.anchored hs ?_
  rw [depth_of_empty (h 0)]
  exact Nat.zero_le 1

end Anchor

end ClassLoading.SlotArray
