import Mathlib.Algebra.BigOperators.Group.Finset.Piecewise
import Mathlib.Algebra.BigOperators.Group.Finset.Sigma
import ClassLoading.Proofs.Layout

/-!
# Linear probing

By plain linear probing an entry goes to the first empty slot from its home on, and nothing gives
way to it. Entries that are placed so visit the slots as often as the same entries of a table do,
since the recurrence of the visits holds for both. So they fill the same slots, and all of them
together are as far from their homes; but in a table the entries that visit a slot sit in a row
behind it, so that none of them is further from its home than it has to be (`probes_le_plain`).
-/

namespace ClassLoading

namespace SlotArray

variable {s s' : SlotArray}

/-- Puts an entry into the first empty slot from `i` on, looking at up to `most` slots. -/
def placePlainFrom? (s : SlotArray) (entry : UInt64) : (most i : Nat) → Option SlotArray
  | 0, _ => none
  | most + 1, i =>
    if s.word i = Slot.empty then some (s.setWord i entry)
    else s.placePlainFrom? entry most (s.next i)

/-- The array with one more entry, in the first empty slot from its home on. -/
def placePlain? (s : SlotArray) (entry : UInt64) : Option SlotArray :=
  s.placePlainFrom? entry s.count (s.home (Slot.hash entry))

/-- An empty array of some slots, filled by linear probing. -/
def plain? (count : Nat) (entries : List UInt64) : Option SlotArray :=
  entries.foldlM placePlain? ⟨.blank, count⟩

section Plain

theorem placePlainFrom?_eq {entry : UInt64} :
    ∀ (most : Nat) {i t : Nat}, i < s.count → t < most →
      (∀ u < t, s.word ((i + u) % s.count) ≠ Slot.empty) →
      s.word ((i + t) % s.count) = Slot.empty →
      s.placePlainFrom? entry most i = some (s.setWord ((i + t) % s.count) entry)
  | most + 1, i, 0, hi, _, _, hempty => by
    have hfirst : (i + 0) % s.count = i := Nat.mod_eq_of_lt hi
    rw [hfirst] at hempty ⊢
    simp [placePlainFrom?, hempty]
  | most + 1, i, t + 1, hi, ht, hheld, hempty => by
    have hfirst := hheld 0 (Nat.succ_pos t)
    rw [Nat.add_zero, Nat.mod_eq_of_lt hi] at hfirst
    simp only [placePlainFrom?, if_neg hfirst]
    rw [← next_add_mod] at hempty ⊢
    refine placePlainFrom?_eq most (next_lt hi) (by omega) (fun u hu => ?_) hempty
    rw [next_add_mod]
    exact hheld (u + 1) (by omega)

/-- Where there is an empty slot, some slot is the first one from a home on. -/
theorem exists_first_empty {i : Nat} (hi : i < s.count)
    (h : ∃ k < s.count, s.word k = Slot.empty) :
    ∃ t < s.count, s.word ((i + t) % s.count) = Slot.empty
      ∧ ∀ u < t, s.word ((i + u) % s.count) ≠ Slot.empty := by
  classical
  obtain ⟨k, hk, hempty⟩ := h
  obtain ⟨t, ht, rfl⟩ := exists_step hi hk
  have hex : ∃ t, s.word ((i + t) % s.count) = Slot.empty := ⟨t, hempty⟩
  exact ⟨Nat.find hex, (Nat.find_le hempty).trans_lt ht, Nat.find_spec hex,
    fun u hu => Nat.find_min hex hu⟩

theorem gapless_of_blank (h : ∀ i, s.word i = Slot.empty) : s.Gapless := by
  intro j _ t ht
  rw [depth_of_empty (h _)] at ht
  exact absurd ht (Nat.not_lt_zero t)

/-- An entry in the first empty slot from its home on has left no gap. -/
theorem Gapless.setWord (hg : s.Gapless) {entry : UInt64} (hentry : entry ≠ Slot.empty) {t : Nat}
    (ht : t < s.count)
    (hheld : ∀ u < t, s.word ((s.home (Slot.hash entry) + u) % s.count) ≠ Slot.empty) :
    (s.setWord ((s.home (Slot.hash entry) + t) % s.count) entry).Gapless := by
  have hpos : 0 < s.count := by omega
  intro j hj u hu
  rw [count_setWord] at hj hu
  by_cases hslot : (j + u) % s.count = (s.home (Slot.hash entry) + t) % s.count
  · -- `j` is a slot that the new entry has come by
    rw [hslot, depth_setWord_self hentry, distance_add entry ht] at hu
    have hj' : j = (s.home (Slot.hash entry) + (t - u)) % s.count := by
      have hmod : j + u ≡ s.home (Slot.hash entry) + (t - u) + u [MOD s.count] := by
        rw [Nat.add_assoc, Nat.sub_add_cancel (by omega)]
        exact hslot
      have := Nat.ModEq.add_right_cancel' u hmod
      rw [← Nat.mod_eq_of_lt hj]
      exact this
    rcases Nat.eq_zero_or_pos u with rfl | hpositive
    · rw [Nat.sub_zero] at hj'
      rw [hj', word_setWord_self]
      exact hentry
    · rw [word_setWord]
      split_ifs
      · exact hentry
      · rw [hj']
        exact hheld _ (by omega)
  · rw [depth_setWord_of_ne entry hslot] at hu
    rw [word_setWord]
    split_ifs
    · exact hentry
    · exact hg j hj u hu

/-- An entry that takes an empty slot leaves an anchor behind that slot, which no other entry has
come by. -/
theorem Gapless.anchored_setWord (hg : s.Gapless) {k : Nat} (hk : k < s.count)
    (hempty : s.word k = Slot.empty) {entry : UInt64} : (s.setWord k entry).Anchored := by
  have hpos : 0 < s.count := by omega
  refine ⟨s.next k, next_lt hk, fun t => ?_⟩
  rw [count_setWord, next_add_mod]
  by_cases hslot : (k + (t + 1)) % s.count = k
  · have hround : s.count ≤ t + 1 := by
      by_contra hlt
      have hmod : k + (t + 1) ≡ k + 0 [MOD s.count] := by
        rw [Nat.ModEq, hslot, Nat.add_zero, Nat.mod_eq_of_lt hk]
      have hzero := (Nat.ModEq.add_left_cancel' k hmod).eq_of_lt_of_lt (by omega) hpos
      omega
    exact (depth_le_count (s := s.setWord k entry) hpos _).trans hround
  · rw [depth_setWord_of_ne entry hslot]
    by_contra hdeep
    exact hg k hk (t + 1) (by omega) hempty

theorem exists_placePlain (hg : s.Gapless) (hroom : s.held.card < s.count) {entry : UInt64}
    (hentry : entry ≠ Slot.empty) :
    ∃ s', s.placePlain? entry = some s' ∧ s'.count = s.count ∧ s'.Gapless ∧ s'.Anchored
      ∧ s'.held = entry ::ₘ s.held := by
  have hpos : 0 < s.count := by omega
  have hhome := home_lt hpos (Slot.hash entry)
  obtain ⟨t, ht, hempty, hheld⟩ := exists_first_empty hhome (exists_empty hroom)
  have hk : (s.home (Slot.hash entry) + t) % s.count < s.count := Nat.mod_lt _ hpos
  exact ⟨_, placePlainFrom?_eq s.count hhome ht hheld hempty, rfl, hg.setWord hentry ht hheld,
    hg.anchored_setWord hk hempty, held_setWord_empty hk hentry hempty⟩

theorem exists_placePlainAll :
    ∀ (entries : List UInt64) {s : SlotArray}, s.Gapless → s.Anchored →
      (∀ w ∈ entries, w ≠ Slot.empty) → s.held.card + entries.length ≤ s.count →
      ∃ s', entries.foldlM placePlain? s = some s' ∧ s'.count = s.count ∧ s'.Gapless ∧ s'.Anchored
        ∧ s'.held = (entries : Multiset UInt64) + s.held
  | [], s, hg, ha, _, _ => ⟨s, rfl, rfl, hg, ha, by simp⟩
  | entry :: rest, s, hg, _, hne, hroom => by
    rw [List.length_cons] at hroom
    obtain ⟨s₁, hplace, hcount, hg₁, ha₁, hheld⟩ :=
      exists_placePlain hg (by omega) (hne entry List.mem_cons_self)
    have hroom₁ : s₁.held.card + rest.length ≤ s₁.count := by
      rw [hheld, Multiset.card_cons, hcount]
      omega
    obtain ⟨s', hrest, hcount', hg', ha', hheld'⟩ :=
      exists_placePlainAll rest hg₁ ha₁ (fun w hw => hne w (List.mem_cons_of_mem _ hw)) hroom₁
    refine ⟨s', ?_, hcount'.trans hcount, hg', ha', ?_⟩
    · rw [List.foldlM_cons, hplace]
      exact hrest
    · rw [hheld', hheld, Multiset.add_cons, ← Multiset.cons_coe, Multiset.cons_add]

/-- Linear probing takes as many entries as there are slots. -/
theorem exists_plain {count : Nat} (hpos : 0 < count) {entries : List UInt64}
    (hne : ∀ w ∈ entries, w ≠ Slot.empty) (hlen : entries.length ≤ count) :
    ∃ s, plain? count entries = some s ∧ s.count = count ∧ s.Gapless ∧ s.Anchored
      ∧ s.held = (entries : Multiset UInt64) := by
  have hblank : ∀ i, (⟨.blank, count⟩ : SlotArray).word i = Slot.empty := Store.word_blank
  have hheld := held_of_blank hblank
  obtain ⟨s, hplain, hcount, hg, ha, hheld'⟩ :=
    exists_placePlainAll entries (gapless_of_blank hblank)
      (anchored_of_blank (s := ⟨.blank, count⟩) hpos hblank) hne (by simpa [hheld] using hlen)
  refine ⟨s, hplain, hcount, hg, ha, ?_⟩
  rw [hheld', hheld, Multiset.add_zero]

end Plain

section Compare

theorem count_lt_eq_min (m n : Nat) : Nat.count (· < m) n = min n m := by
  have hfilter : (Finset.range n).filter (· < m) = Finset.range (min n m) := by
    ext t
    simp
  rw [Nat.count_eq_card_filter_range, hfilter, Finset.card_range]

theorem visits_pos_iff (hg : s.Gapless) {j : Nat} (hj : j < s.count) :
    0 < s.visits j ↔ s.word j ≠ Slot.empty := by
  refine ⟨fun hvisits hempty => ?_, fun hword => ?_⟩
  · have hnone : s.visits j = 0 :=
      Nat.count_iff_forall_not.2 fun t _ hvisit => hg j hj t hvisit hempty
    omega
  · have hfirst : 0 < s.depth (j % s.count) := by
      rw [Nat.mod_eq_of_lt hj, depth_of_held hword]
      exact Nat.succ_pos _
    calc 0 < Nat.count (fun t => t < s.depth ((j + t) % s.count)) 1 := by
          simp [Nat.count_succ, hfirst]
      _ ≤ s.visits j := Nat.count_monotone _ (by omega)

/-- Every entry visits as many slots as it is deep. -/
theorem sum_visits (hs : 0 < s.count) :
    ∑ j ∈ Finset.range s.count, s.visits j = ∑ i ∈ Finset.range s.count, s.depth i := by
  have hcomm : ∀ p : Nat → Nat → Prop, ∀ _ : ∀ j t, Decidable (p j t),
      ∑ j ∈ Finset.range s.count, Nat.count (p j) s.count
        = ∑ t ∈ Finset.range s.count, Nat.count (p · t) s.count := by
    intro p _
    simp only [Nat.count_eq_card_filter_range, Finset.card_filter]
    exact Finset.sum_comm
  calc ∑ j ∈ Finset.range s.count, s.visits j
      = ∑ t ∈ Finset.range s.count, Nat.count (fun j => t < s.depth ((j + t) % s.count)) s.count :=
        hcomm _ _
    _ = ∑ t ∈ Finset.range s.count, Nat.count (fun j => t < s.depth (j % s.count)) s.count := by
        refine Finset.sum_congr rfl fun t _ => ?_
        rw [← count_rotate (fun i => t < s.depth i) s.count t]
        simp only [Nat.add_comm t]
    _ = ∑ j ∈ Finset.range s.count, Nat.count (· < s.depth (j % s.count)) s.count :=
        (hcomm (fun j t => t < s.depth (j % s.count)) _).symm
    _ = ∑ i ∈ Finset.range s.count, s.depth i := by
        refine Finset.sum_congr rfl fun j hj => ?_
        rw [count_lt_eq_min, Nat.mod_eq_of_lt (Finset.mem_range.1 hj),
          Nat.min_eq_right (depth_le_count hs j)]

theorem mem_distances_iff {d : Nat} :
    d ∈ s.distances ↔ ∃ i < s.count, s.depth i = d + 1 := by
  rw [distances_eq, List.mem_filterMap]
  simp only [List.mem_range]
  refine exists_congr fun i => and_congr_right fun _ => ?_
  split_ifs with hdepth
  · simp [hdepth]
  · simp only [Option.some.injEq]
    omega

theorem sum_add_length_filterMap (f : Nat → Nat) (l : List Nat) :
    (l.filterMap fun i => if f i = 0 then none else some (f i - 1)).sum
      + (l.filterMap fun i => if f i = 0 then none else some (f i - 1)).length
      = (l.map f).sum := by
  induction l with
  | nil => rfl
  | cons i l ih =>
    by_cases hi : f i = 0
    · simp [hi, ih]
    · simp [hi]
      omega

theorem sum_distances (s : SlotArray) :
    s.distances.sum + s.held.card = ∑ i ∈ Finset.range s.count, s.depth i := by
  rw [← length_distances, distances_eq, sum_add_length_filterMap]
  rfl

theorem foldl_max_le_iff (l : List Nat) (a m : Nat) :
    l.foldl max a ≤ m ↔ a ≤ m ∧ ∀ d ∈ l, d ≤ m := by
  induction l generalizing a with
  | nil => simp
  | cons d l ih => simp [ih, and_assoc]

/-- In an array with the same visits as an ordered one, some entry is at least as deep as any. -/
theorem exists_depth_ge (ho : s.Ordered) (hcount : s'.count = s.count)
    (hvisits : ∀ j < s.count, s'.visits j = s.visits j) {i : Nat} (hi : i < s.count) :
    ∃ k < s.count, s.depth i ≤ s'.depth k := by
  by_contra hshallow
  push Not at hshallow
  have hpos : 0 < s.count := by omega
  have hdeep := depth_le_count hpos i
  have hpositive := Nat.zero_lt_of_lt (hshallow i hi)
  -- All entries that visit the home of the one in slot `i` sit before that slot.
  obtain ⟨d, hd⟩ : ∃ d, s.depth i = d + 1 := ⟨s.depth i - 1, by omega⟩
  have hback : ((i + (s.count - d)) % s.count + d) % s.count = i := by
    rw [Nat.mod_add_mod, Nat.add_assoc, Nat.sub_add_cancel (by omega), Nat.add_mod_right,
      Nat.mod_eq_of_lt hi]
  have hhome : (i + (s.count - d)) % s.count < s.count := Nat.mod_lt _ hpos
  have hmany : d < s.visits ((i + (s.count - d)) % s.count) := by
    rw [lt_visits_iff ho (by omega), hback, hd]
    exact Nat.lt_succ_self d
  have hfew : s'.visits ((i + (s.count - d)) % s.count) ≤ Nat.count (· < d) s'.count := by
    refine Nat.count_mono_left fun t _ ht => ?_
    have := hshallow _ (Nat.mod_lt ((i + (s.count - d)) % s.count + t) hpos)
    rw [hcount] at ht
    omega
  rw [hvisits _ hhome, count_lt_eq_min] at hfew
  omega

theorem empty_iff_of_visits (hg : s.Gapless) (hg' : s'.Gapless) (hcount : s'.count = s.count)
    (hvisits : ∀ j < s.count, s'.visits j = s.visits j) {i : Nat} (hi : i < s.count) :
    s'.word i = Slot.empty ↔ s.word i = Slot.empty := by
  rw [← not_iff_not, ← ne_eq, ← ne_eq, ← visits_pos_iff hg hi, ← visits_pos_iff hg' (hcount ▸ hi),
    hvisits i hi]

theorem sum_distances_of_visits (hpos : 0 < s.count) (hcount : s'.count = s.count)
    (hvisits : ∀ j < s.count, s'.visits j = s.visits j) (hheld : s'.held = s.held) :
    s'.distances.sum = s.distances.sum := by
  have hdepths : ∑ i ∈ Finset.range s'.count, s'.depth i
      = ∑ i ∈ Finset.range s.count, s.depth i := by
    rw [← sum_visits (hcount ▸ hpos), ← sum_visits hpos, hcount]
    exact Finset.sum_congr rfl fun j hj => hvisits j (Finset.mem_range.1 hj)
  rw [← sum_distances, ← sum_distances, hheld] at hdepths
  exact Nat.add_right_cancel hdepths

theorem max_distances_le (ho : s.Ordered) (hcount : s'.count = s.count)
    (hvisits : ∀ j < s.count, s'.visits j = s.visits j) :
    s.distances.foldl max 0 ≤ s'.distances.foldl max 0 := by
  refine (foldl_max_le_iff _ _ _).2 ⟨Nat.zero_le _, fun d hd => ?_⟩
  obtain ⟨i, hi, hdepth⟩ := mem_distances_iff.1 hd
  obtain ⟨k, hk, hdeeper⟩ := exists_depth_ge ho hcount hvisits hi
  have hmem : s'.depth k - 1 ∈ s'.distances := mem_distances_iff.2 ⟨k, hcount ▸ hk, by omega⟩
  have hle := ((foldl_max_le_iff s'.distances 0 _).1 le_rfl).2 _ hmem
  omega

end Compare

section Anchors

theorem anchored_of_placeAll :
    ∀ (entries : List UInt64) {s : SlotArray}, s.Sound → s.Anchored →
      (∀ w ∈ entries, w ≠ Slot.empty) → s.held.card + entries.length ≤ s.count →
      s.placeAll? entries = some s' → s'.Anchored
  | [], s, _, ha, _, _, h => by
    cases h
    exact ha
  | entry :: rest, s, hs, _, hne, hroom, h => by
    rw [List.length_cons] at hroom
    have hentry := hne entry List.mem_cons_self
    obtain ⟨s₁, hplace, hcount, hs₁, hheld⟩ := exists_place hs (by omega) hentry
    have hroom₁ : s₁.held.card + rest.length ≤ s₁.count := by
      rw [hheld, Multiset.card_cons, hcount]
      omega
    unfold placeAll? at h
    rw [List.foldlM_cons, hplace] at h
    exact anchored_of_placeAll rest hs₁ (anchored_of_place hs hentry hplace hcount hs₁)
      (fun w hw => hne w (List.mem_cons_of_mem _ hw)) hroom₁ h

theorem anchored_of_double (hs : s.Sound) (h : s.double? = some s') : s'.Anchored := by
  have hblank : ∀ i, ({ s.clear with count := 2 * s.count } : SlotArray).word i = Slot.empty :=
    word_clear hs
  have hpos : 0 < 2 * s.count := Nat.mul_pos (by decide) hs.pos
  refine anchored_of_placeAll (s.entries.map Prod.snd) (sound_of_blank hpos hblank)
    (anchored_of_blank hpos hblank) (fun _ => ne_empty_of_mem_entries) ?_ h
  rw [held_of_blank hblank, Multiset.card_zero, length_entries]
  have := card_held_le (s := s)
  simp only
  omega

end Anchors

end SlotArray

namespace Table

variable {mapper : Mapper} {sizing : Sizing} {t : Table}

section Anchors

theorem grow_slotArray (t : Table) :
    t.grow.2.slotArray = t.slotArray ∨ t.slotArray.double? = some t.grow.2.slotArray := by
  unfold grow
  rcases t.commitDouble_cases with ⟨arena, hcommit, -, hrange⟩ | ⟨fault, history, hcommit, -⟩ <;>
    rw [hcommit]
  · have harray := slotArray_of_range hrange
    simp only [harray]
    rcases t.slotArray.double? with _ | s
    · exact .inl harray
    · exact .inr rfl
  · exact .inl rfl

theorem call_anchored (h : t.Sound) (ha : t.slotArray.Anchored) (c : TableCall) :
    (t.call c).2.slotArray.Anchored := by
  cases c with
  | makeRoom =>
    simp only [call, makeRoom_snd]
    split_ifs
    · rcases t.grow_slotArray with hsame | hdouble
      · rwa [hsame]
      · exact SlotArray.anchored_of_double h.array hdouble
    · exact ha
  | insert hash id =>
    simp only [call]
    rcases Nat.lt_or_ge t.occupied t.slots with hroom | hfull
    · obtain ⟨t', hinsert, ht⟩ := exists_insert h hroom hash id
      rw [hinsert]
      exact SlotArray.anchored_of_place h.array (Slot.pack_ne_empty hash id)
        (place_of_insert hinsert).1 ht.slots ht.sound.array
    · rwa [insert_full hfull]

theorem anchored_after : ∀ (calls : List TableCall) {t : Table}, t.Sound → t.slotArray.Anchored →
    (t.after calls).slotArray.Anchored
  | [], _, _, ha => ha
  | c :: rest, _, h, ha => anchored_after rest (call_sound h c).1 (call_anchored h ha c)

theorem anchored_of_new (h : Table.new mapper sizing = .ok t) : t.slotArray.Anchored := by
  obtain ⟨hsound, hheld, -⟩ := sound_of_new h
  exact SlotArray.anchored_of_blank hsound.array.pos (hsound.array.blank_of_held hheld)

end Anchors

/-- However a table has come by its entries, plain linear probing of the same entries, in any order,
fills the same slots of an array of the same size. All of them together are as far from their homes,
and the one that is furthest from its home is no nearer to it. -/
theorem probes_le_plain (h : Table.new mapper sizing = .ok t) (calls : List TableCall)
    {entries : List UInt64}
    (hperm : entries.Perm ((t.after calls).slotArray.entries.map Prod.snd)) :
    ∃ plain, SlotArray.plain? (t.after calls).slots entries = some plain
      ∧ (∀ i < (t.after calls).slots,
        plain.word i = Slot.empty ↔ (t.after calls).slotArray.word i = Slot.empty)
      ∧ plain.distances.sum = (t.after calls).probes.total
      ∧ (t.after calls).probes.max ≤ plain.distances.foldl max 0 := by
  have hsound := (run_of_new h calls).1
  have hanchored := anchored_after calls (sound_of_new h).1 (anchored_of_new h)
  generalize t.after calls = t' at *
  have hgapless := hsound.array.ordered.gapless
  have hheld : (entries : Multiset UInt64) = t'.slotArray.held := by
    rw [← SlotArray.held_entries]
    exact Multiset.coe_eq_coe.2 hperm
  have hne : ∀ w ∈ entries, w ≠ Slot.empty := fun w hw =>
    SlotArray.ne_empty_of_mem_entries (hperm.mem_iff.1 hw)
  have hlen : entries.length ≤ t'.slots := by
    rw [← Multiset.coe_card, hheld]
    exact SlotArray.card_held_le
  obtain ⟨plain, hplain, hcount, hg, ha, hheld'⟩ :=
    SlotArray.exists_plain hsound.slots_pos hne hlen
  have hcount' : plain.count = t'.slotArray.count := hcount
  have hsame : plain.held = t'.slotArray.held := hheld'.trans hheld
  have hvisits : ∀ j < t'.slotArray.count, plain.visits j = t'.slotArray.visits j := fun j hj =>
    SlotArray.visits_eq_of_held hgapless hg hanchored ha hcount' hsame hj
  exact ⟨plain, hplain,
    fun i hi => SlotArray.empty_iff_of_visits hgapless hg hcount' hvisits hi,
    SlotArray.sum_distances_of_visits hsound.array.pos hcount' hvisits hsame,
    SlotArray.max_distances_le hsound.array.ordered hcount' hvisits⟩

/-- Three entries of one home and one of the next. -/
def rivals : List (UInt32 × UInt32) :=
  [(0, 0), (0, 1), (1, 2), (0, 3)]

/-- They fill four slots: in a table the furthest is two slots from its home, by linear probing in
the order they came it is three. -/
theorem probes_le_plain_rivals :
    ∃ t plain, Table.new Mapper.system ⟨4, 4, 95⟩ = .ok t
      ∧ (rivals.map fun (hash, id) => Slot.pack hash id).Perm
        ((t.after (adding rivals)).slotArray.entries.map Prod.snd)
      ∧ (t.after (adding rivals)).probes = ⟨2, 5, 4⟩
      ∧ SlotArray.plain? 4 (rivals.map fun (hash, id) => Slot.pack hash id) = some plain
      ∧ plain.distances = [0, 1, 1, 3] ∧ plain.distances.sum = 5
      ∧ 2 ≤ plain.distances.foldl max 0 := by
  obtain ⟨t, hnew, hslots, hperm, hprobes⟩ : ∃ t, Table.new Mapper.system ⟨4, 4, 95⟩ = .ok t
      ∧ (t.after (adding rivals)).slots = 4
      ∧ (rivals.map fun (hash, id) => Slot.pack hash id).Perm
        ((t.after (adding rivals)).slotArray.entries.map Prod.snd)
      ∧ (t.after (adding rivals)).probes = ⟨2, 5, 4⟩ :=
    ⟨_, rfl, by decide +kernel, by decide +kernel, by decide +kernel⟩
  obtain ⟨plain, hplain, -, hsum, hmax⟩ := probes_le_plain hnew (adding rivals) hperm
  rw [hprobes] at hsum hmax
  rw [hslots] at hplain
  have hdistances : (SlotArray.plain? 4 (rivals.map fun (hash, id) => Slot.pack hash id)).map
      SlotArray.distances = some [0, 1, 1, 3] := by decide +kernel
  rw [hplain, Option.map_some, Option.some.injEq] at hdistances
  exact ⟨t, plain, hnew, hperm, hprobes, hplain, hdistances, hsum, hmax⟩

end Table

end ClassLoading
