import ClassLoading.Proofs.TableRuns

/-!
# Growth

A table reserves the pages of its largest size when it is made, so growth never runs out of
reserved bytes (`Backed`). To double, a table asks its mapper for one commit at most, and what the
mapper answers decides the rest (`commitDouble_outcome`). A table below its largest size is crowded
before it is full, so making room fails for the mapper's reasons or because the largest table is
full, and for no others (`makeRoom_outcome`).
-/

namespace ClassLoading

/-- A mapper that grants every commit inside the reservation. -/
def Mapper.Generous (m : Mapper) : Prop :=
  ∀ past extent offset size, offset + size ≤ extent.length → offset + size ≤ sizeLimit →
    m.onCommit past extent offset size = .granted

theorem Mapper.system_steady : Mapper.system.Steady := by
  intro past extent offset size
  show (if _ then CommitAnswer.granted else _) ≠ .crashed
  split_ifs <;> simp

theorem Mapper.system_generous : Mapper.system.Generous := by
  intro past extent offset size hlength hlimit
  have hlt : offset + size < 1 <<< 64 := Nat.lt_of_le_of_lt hlimit (by decide)
  exact if_pos ⟨hlt, hlength⟩

/-- The bytes of the pages that a number of bytes take. -/
def wholePages (page n : Nat) : Nat :=
  (n + (page - 1)) / page * page

section Pages

theorem dvd_wholePages (page n : Nat) : page ∣ wholePages page n :=
  Nat.dvd_mul_left _ _

theorem wholePages_zero {page : Nat} (hpage : 0 < page) : wholePages page 0 = 0 := by
  rw [wholePages, Nat.div_eq_of_lt (by omega), Nat.zero_mul]

theorem wholePages_le (page n : Nat) : wholePages page n ≤ n + (page - 1) :=
  Nat.div_mul_le_self _ _

theorem le_wholePages {page : Nat} (hpage : 0 < page) (n : Nat) : n ≤ wholePages page n := by
  have hmod := Nat.mod_lt (n + (page - 1)) hpage
  have hdiv := Nat.div_add_mod' (n + (page - 1)) page
  unfold wholePages
  omega

theorem wholePages_mono (page : Nat) {m n : Nat} (h : m ≤ n) : wholePages page m ≤ wholePages page n :=
  Nat.mul_le_mul_right _ (Nat.div_le_div_right (Nat.add_le_add_right h _))

theorem add_wholePages {page : Nat} (hpage : 0 < page) {c : Nat} (hc : page ∣ c) (n : Nat) :
    c + wholePages page n = wholePages page (c + n) := by
  obtain ⟨k, rfl⟩ := hc
  unfold wholePages
  rw [Nat.add_assoc, Nat.mul_add_div hpage, Nat.add_mul, Nat.mul_comm page k]

end Pages

namespace Arena

variable {a : Arena}

theorem roundToPage_eq_some_iff {size page rounded : Nat} :
    roundToPage size page = some rounded
      ↔ size + (page - 1) ≤ sizeLimit ∧ wholePages page size = rounded := by
  unfold roundToPage
  rw [Option.ite_none_right_eq_some, Option.some.injEq, wholePages]

theorem roundToPage_eq {size page : Nat} (h : size + (page - 1) ≤ sizeLimit) :
    roundToPage size page = some (wholePages page size) :=
  roundToPage_eq_some_iff.2 ⟨h, rfl⟩

/-- What was reserved has room for the pages of the bytes asked for. -/
theorem room_of_reserve {mapper : Mapper} {size : Nat} (h : reserve mapper size = .ok a) :
    0 < mapper.pageSize ∧ size + (mapper.pageSize - 1) ≤ sizeLimit
      ∧ wholePages mapper.pageSize size ≤ a.reserved := by
  obtain ⟨_, extent, hrounded, hne, hlong, rfl⟩ := exists_of_reserve h
  obtain ⟨hsize, rfl⟩ := roundToPage_eq_some_iff.1 hrounded
  refine ⟨Nat.pos_of_ne_zero fun hpage => hne ?_, hsize, hlong⟩
  rw [hpage, wholePages, Nat.mul_zero]

/-- Up to the bytes it has room for, an arena of whole pages can grow. -/
theorem grownEnd?_sub (hpage : 0 < a.mapper.pageSize) (hwhole : a.mapper.pageSize ∣ a.committed)
    {needed most : Nat} (hle : a.committed ≤ needed) (hmost : needed ≤ most)
    (hlimit : most + (a.mapper.pageSize - 1) ≤ sizeLimit)
    (hroom : wholePages a.mapper.pageSize most ≤ a.reserved) :
    a.grownEnd? (needed - a.committed) = some (wholePages a.mapper.pageSize needed) := by
  have hstop : a.committed + wholePages a.mapper.pageSize (needed - a.committed)
      = wholePages a.mapper.pageSize needed := by
    rw [add_wholePages hpage hwhole, Nat.add_sub_cancel' hle]
  have hlow := wholePages_le a.mapper.pageSize needed
  have hmono := wholePages_mono a.mapper.pageSize hmost
  unfold grownEnd?
  rw [roundToPage_eq (by omega)]
  simp only [hstop]
  rw [if_pos ⟨by omega, by omega⟩]

/-- A generous mapper grants all that an arena asks for. -/
theorem answer_granted (hm : a.mapper.Generous) {n stop : Nat} (h : a.grownEnd? n = some stop) :
    a.answer stop = .granted := by
  unfold grownEnd? at h
  split at h
  · cases h
  · simp only [Option.ite_none_right_eq_some, Option.some.injEq] at h
    obtain ⟨⟨hlimit, hreserved⟩, rfl⟩ := h
    refine hm _ _ _ _ ?_ ?_ <;> rw [Nat.add_sub_cancel' (Nat.le_add_right _ _)]
    · exact hreserved
    · exact hlimit

end Arena

namespace Table

variable {t : Table}

/-- A table whose pages are whole, hold its slots and can be as many as its largest size takes. -/
structure Backed (t : Table) : Prop where
  page_pos : 0 < t.arena.mapper.pageSize
  whole : t.arena.mapper.pageSize ∣ t.arena.committed
  covered : t.slots * slotSize ≤ t.arena.committed
  limit : t.maxSlots * slotSize + (t.arena.mapper.pageSize - 1) ≤ sizeLimit
  room : wholePages t.arena.mapper.pageSize (t.maxSlots * slotSize) ≤ t.arena.reserved

/-- Where the committed bytes end once there are pages for twice as many slots. -/
def growthEnd (t : Table) : Nat :=
  wholePages t.arena.mapper.pageSize (2 * t.slots * slotSize)

/-- What the mapper answers where the table asks for those pages. -/
def growthAnswer (t : Table) : CommitAnswer :=
  t.arena.answer t.growthEnd

/-- Whether making room takes a commit: one more entry would exceed the load factor, the table can
still grow and the pages are not there yet. -/
def NeedsPages (t : Table) : Prop :=
  t.slots * t.loadPercent < (t.occupied + 1) * 100 ∧ t.slots < t.maxSlots
    ∧ t.arena.committed < 2 * t.slots * slotSize

section Pages

theorem Backed.of_keeps (hb : t.Backed) {t' : Table} (hk : t.Keeps t')
    (hwhole : t.arena.mapper.pageSize ∣ t'.arena.committed)
    (hcovered : t'.slots * slotSize ≤ t'.arena.committed) : t'.Backed := by
  have hreserved : t'.arena.reserved = t.arena.reserved := congrArg Extent.length hk.extent
  refine ⟨?_, ?_, hcovered, ?_, ?_⟩ <;> rw [hk.mapper]
  · exact hb.page_pos
  · exact hwhole
  · rw [hk.maxSlots]
    exact hb.limit
  · rw [hk.maxSlots, hreserved]
    exact hb.room

theorem reservationSize_eq {sizing : Sizing} (h : sizing.maxSlots ≤ slotLimit) :
    sizing.reservationSize = sizing.maxSlots * slotSize := by
  have hmost : sizing.maxSlots * slotSize ≤ slotLimit * slotSize := Nat.mul_le_mul_right _ h
  exact Nat.min_eq_left (hmost.trans (by decide))

/-- A new table first asks for the pages of its smallest size. -/
theorem grownEnd?_first {mapper : Mapper} {sizing : Sizing} {arena : Arena}
    (hvalid : sizing.validate = .ok ())
    (hreserve : Arena.reserve mapper sizing.reservationSize = .ok arena) :
    sizing.initialSlots * slotSize ≠ 0 ∧ arena.grownEnd? (sizing.initialSlots * slotSize)
      = some (wholePages mapper.pageSize (sizing.initialSlots * slotSize)) := by
  obtain ⟨⟨k, hk⟩, -, hle, hlim, -, -⟩ := Sizing.rules_of_validate hvalid
  obtain ⟨rfl, -, hzero⟩ := Arena.fresh_of_reserve hreserve
  obtain ⟨hpage, hlimit, hroom⟩ := Arena.room_of_reserve hreserve
  rw [reservationSize_eq hlim] at hlimit hroom
  have hend := Arena.grownEnd?_sub hpage (by rw [hzero]; exact Nat.dvd_zero _)
    (by rw [hzero]; exact Nat.zero_le _) (Nat.mul_le_mul_right slotSize hle) hlimit hroom
  rw [hzero, Nat.sub_zero] at hend
  refine ⟨?_, hend⟩
  have hpos := Nat.two_pow_pos k
  unfold slotSize
  omega

theorem backed_of_new {mapper : Mapper} {sizing : Sizing} (h : Table.new mapper sizing = .ok t) :
    t.Backed := by
  obtain ⟨hvalid, arena, arena', span, hreserve, hgrow, rfl⟩ := exists_of_new h
  obtain ⟨-, -, -, hlim, -, -⟩ := Sizing.rules_of_validate hvalid
  obtain ⟨hne, hend⟩ := grownEnd?_first hvalid hreserve
  obtain ⟨rfl, -, -⟩ := Arena.fresh_of_reserve hreserve
  obtain ⟨hpage, hlimit, hroom⟩ := Arena.room_of_reserve hreserve
  rw [reservationSize_eq hlim] at hlimit hroom
  rw [arena.grow_of_grownEnd _ hne hend] at hgrow
  split at hgrow <;> cases hgrow
  exact ⟨hpage, dvd_wholePages _ _, le_wholePages hpage _, hlimit, hroom⟩

/-- Doubling asks for pages where they are not there yet, and the mapper's answer is all that
counts. -/
theorem commitDouble_outcome (hb : t.Backed) (hle : 2 * t.slots ≤ t.maxSlots) :
    t.commitDouble =
      if t.arena.committed < 2 * t.slots * slotSize then
        match t.growthAnswer with
        | .granted => (.ok (), { t with arena := t.arena.granted t.growthEnd })
        | .refused reason =>
          (.error (.commitFailed (t.growthEnd - t.arena.committed) t.arena.committed reason),
            { t with arena := t.arena.denied t.growthEnd })
        | .crashed => (.error .mapperCrashed, { t with arena := t.arena.denied t.growthEnd })
      else (.ok (), t) := by
  unfold commitDouble
  simp only
  by_cases hneeded : t.arena.committed < 2 * t.slots * slotSize
  · have hend : t.arena.grownEnd? (2 * t.slots * slotSize - t.arena.committed)
        = some t.growthEnd :=
      Arena.grownEnd?_sub hb.page_pos hb.whole hneeded.le (Nat.mul_le_mul_right slotSize hle)
        hb.limit hb.room
    rw [if_neg (by omega), if_pos hneeded, t.arena.grow_of_grownEnd _ (by omega) hend,
      growthAnswer]
    cases t.arena.answer t.growthEnd <;> rfl
  · rw [if_pos (by omega), if_neg hneeded]

theorem Backed.commitDouble (hb : t.Backed) (hle : 2 * t.slots ≤ t.maxSlots) :
    t.commitDouble.2.Backed
      ∧ (t.commitDouble.1 = .ok () → 2 * t.slots * slotSize ≤ t.commitDouble.2.arena.committed) := by
  have hkeeps := t.commitDouble_keeps
  have hend := le_wholePages hb.page_pos (2 * t.slots * slotSize)
  rw [commitDouble_outcome hb hle] at hkeeps ⊢
  split_ifs at hkeeps ⊢ with hneeded
  · have hcovered := hb.covered
    rcases hanswer : t.growthAnswer with _ | reason | _ <;> rw [hanswer] at hkeeps
    · exact ⟨hb.of_keeps hkeeps (dvd_wholePages _ _) (hcovered.trans (hneeded.le.trans hend)),
        fun _ => hend⟩
    · exact ⟨hb.of_keeps hkeeps hb.whole hcovered, nofun⟩
    · exact ⟨hb.of_keeps hkeeps hb.whole hcovered, nofun⟩
  · exact ⟨hb, fun _ => Nat.le_of_not_lt hneeded⟩

theorem Backed.grow (h : t.Sound) (hb : t.Backed) (hlt : t.slots < t.maxSlots) :
    t.grow.2.Backed := by
  have hkeeps := t.grow_keeps
  obtain ⟨hback, hpages⟩ := hb.commitDouble (h.double_le hlt)
  rcases t.commitDouble_cases with ⟨arena, hcommit, hmap, hrange⟩ |
    ⟨fault, history, hcommit, -, -⟩ <;> rw [hcommit] at hback hpages
  · obtain ⟨t', hgrow, hd, hcommitted⟩ := exists_grow h hlt hcommit hmap hrange
    rw [hgrow] at hkeeps ⊢
    refine hb.of_keeps hkeeps ?_ ?_
    · rw [hcommitted, ← hmap]
      exact hback.whole
    · rw [hcommitted, hd.slots]
      exact hpages rfl
  · rw [grow_of_commitDouble_error hcommit]
    exact hback

theorem Backed.makeRoom (h : t.Sound) (hb : t.Backed) : t.makeRoom.2.Backed := by
  rw [makeRoom_snd]
  split_ifs with hc
  · exact hb.grow h (isCrowded_iff.1 hc).2
  · exact hb

theorem Backed.insert (h : t.Sound) (hb : t.Backed) (hash id : UInt32) :
    (t.insert hash id).2.Backed := by
  have hkeeps := t.insert_keeps hash id
  rcases Nat.lt_or_ge t.occupied t.slots with hroom | hfull
  · obtain ⟨t', hinsert, ht⟩ := exists_insert h hroom hash id
    rw [hinsert] at hkeeps ⊢
    refine hb.of_keeps hkeeps ?_ ?_ <;> rw [ht.committed]
    · exact hb.whole
    · rw [ht.slots]
      exact hb.covered
  · rw [insert_full hfull]
    exact hb

theorem backed_after : ∀ (calls : List TableCall) {t : Table}, t.Sound → t.Backed →
    (t.after calls).Backed
  | [], _, _, hb => hb
  | c :: rest, t, h, hb => by
    have hstep : (t.call c).2.Backed := by
      cases c with
      | makeRoom => exact hb.makeRoom h
      | insert hash id => exact hb.insert h hash id
    exact backed_after rest (call_sound h c).1 hstep

end Pages

section Outcome

theorem growthAnswer_granted (h : t.Sound) (hb : t.Backed)
    (hm : t.arena.mapper.Generous) (hneeds : t.NeedsPages) : t.growthAnswer = .granted := by
  obtain ⟨-, hlt, hneeded⟩ := hneeds
  have hle := Nat.mul_le_mul_right slotSize (h.double_le hlt)
  exact Arena.answer_granted hm (Arena.grownEnd?_sub hb.page_pos hb.whole hneeded.le hle hb.limit
    hb.room)

/-- What a table has become by making room. -/
structure Roomy (t t' : Table) : Prop where
  sound : t'.Sound
  backed : t'.Backed
  keeps : t.Keeps t'
  slots : t'.slots = if t.isCrowded then 2 * t.slots else t.slots
  occupied : t'.occupied = t.occupied
  held : t'.slotArray.held = t.slotArray.held
  room : t'.occupied < t'.slots

/-- A crowded table that has the pages for it doubles, and then there is room. -/
theorem exists_roomy_of_commitDouble (h : t.Sound) (hb : t.Backed) (hc : t.isCrowded = true)
    {arena : Arena} (hcommit : t.commitDouble = (.ok (), { t with arena := arena }))
    (hmap : arena.mapper = t.arena.mapper) (hrange : arena.range = t.arena.range) :
    ∃ t', t.makeRoom = (.ok (), t') ∧ t.Roomy t' := by
  have hlt := (isCrowded_iff.1 hc).2
  obtain ⟨t', hgrow, hd, -⟩ := exists_grow h hlt hcommit hmap hrange
  have hbacked := hb.grow h hlt
  have hkeeps := t.grow_keeps
  rw [hgrow] at hbacked hkeeps
  have hroom := hd.room h
  refine ⟨t', ?_, hd.sound, hbacked, hkeeps, ?_, hd.occupied, hd.held, hroom⟩
  · rw [makeRoom_of_grow_ok hc hgrow, ifRoom_of_lt hroom]
  · rw [if_pos hc, hd.slots]

theorem roomy_of_not_crowded (h : t.Sound) (hb : t.Backed) (hc : ¬ t.isCrowded = true)
    (hroom : t.occupied < t.slots) : t.Roomy t := by
  refine ⟨h, hb, Keeps.refl t, ?_, rfl, rfl, hroom⟩
  rw [if_neg hc]

/-- A full table that is not crowded has its largest size. -/
theorem slots_eq_of_full (h : t.Sound) (hload : t.loadPercent ≤ 95) (hc : ¬ t.isCrowded = true)
    (hfull : t.slots ≤ t.occupied) : t.slots = t.maxSlots := by
  refine Nat.le_antisymm h.slots_le (Nat.le_of_not_lt fun hlt => hc (isCrowded_iff.2 ⟨?_, hlt⟩))
  calc t.slots * t.loadPercent ≤ t.slots * 95 := Nat.mul_le_mul_left _ hload
    _ < (t.occupied + 1) * 100 := by omega

/-- Making room fails if the mapper crashes on a commit that is needed, or refuses it, or if the
largest table is full; otherwise it works. -/
theorem makeRoom_outcome (h : t.Sound) (hb : t.Backed) (hload : t.loadPercent ≤ 95) :
    (t.NeedsPages ∧ t.growthAnswer = .crashed ∧ t.makeRoom.1 = .error .mapperCrashed)
      ∨ (∃ reason, t.NeedsPages ∧ t.growthAnswer = .refused reason
        ∧ t.makeRoom.1
          = .error (.commitFailed (t.growthEnd - t.arena.committed) t.arena.committed reason))
      ∨ ((t.NeedsPages → t.growthAnswer = .granted)
        ∧ if t.occupied = t.maxSlots then t.makeRoom = (.error (.registryFull t.maxSlots), t)
          else ∃ t', t.makeRoom = (.ok (), t') ∧ t.Roomy t') := by
  have hocc := h.occupied_le
  have hmax := h.slots_le
  by_cases hc : t.isCrowded = true
  · obtain ⟨hcrowded, hlt⟩ := isCrowded_iff.1 hc
    have hne : t.occupied ≠ t.maxSlots := by omega
    have hcommit := commitDouble_outcome hb (h.double_le hlt)
    split_ifs at hcommit with hneeded
    · have hneeds : t.NeedsPages := ⟨hcrowded, hlt, hneeded⟩
      rcases hanswer : t.growthAnswer with _ | reason | _ <;> rw [hanswer] at hcommit
      · refine .inr (.inr ⟨fun _ => rfl, ?_⟩)
        rw [if_neg hne]
        exact exists_roomy_of_commitDouble h hb hc hcommit rfl rfl
      · refine .inr (.inl ⟨reason, hneeds, rfl, ?_⟩)
        rw [makeRoom_of_grow_error hc (grow_of_commitDouble_error hcommit)]
      · refine .inl ⟨hneeds, rfl, ?_⟩
        rw [makeRoom_of_grow_error hc (grow_of_commitDouble_error hcommit)]
    · refine .inr (.inr ⟨fun hneeds => absurd hneeds.2.2 hneeded, ?_⟩)
      rw [if_neg hne]
      exact exists_roomy_of_commitDouble h hb hc hcommit rfl rfl
  · -- A full table would be crowded if it could still grow.
    refine .inr (.inr ⟨fun hneeds => absurd (isCrowded_iff.2 ⟨hneeds.1, hneeds.2.1⟩) hc, ?_⟩)
    rw [makeRoom_of_not_crowded hc]
    rcases Nat.lt_or_ge t.occupied t.slots with hroom | hfull
    · rw [if_neg (by omega), ifRoom_of_lt hroom]
      exact ⟨t, rfl, roomy_of_not_crowded h hb hc hroom⟩
    · have hlargest := slots_eq_of_full h hload hc hfull
      rw [if_pos (by omega), ifRoom_of_full hfull, hlargest]

/-- Over a generous mapper, making room works until the largest table is full. -/
theorem exists_roomy (h : t.Sound) (hb : t.Backed) (hm : t.arena.mapper.Generous)
    (hload : t.loadPercent ≤ 95) (hroom : t.occupied < t.maxSlots) :
    ∃ t', t.makeRoom = (.ok (), t') ∧ t.Roomy t' := by
  have hgranted := growthAnswer_granted h hb hm
  rcases makeRoom_outcome h hb hload with ⟨hneeds, hanswer, -⟩ | ⟨reason, hneeds, hanswer, -⟩ |
    ⟨-, hmake⟩
  · cases (hgranted hneeds).symm.trans hanswer
  · cases (hgranted hneeds).symm.trans hanswer
  · rwa [if_neg hroom.ne] at hmake

end Outcome

end Table

end ClassLoading
