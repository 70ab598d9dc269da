import ClassLoading.Proofs.Growth

/-!
# Committed pages

A table commits the whole pages that its slots take, and no others. Its commits follow one another
from the start of the reservation without a gap (`Tiles`), though several doublings may share a page
and a refused commit leaves none; whatever it asks for lies inside the pages of its largest size,
which it has reserved, so it never runs out of them (`commits_tile`).
-/

namespace ClassLoading

/-- A fault that tells of a reservation with too little room. -/
def Fault.Exhausted : Fault → Prop
  | .reservationExhausted _ _ => True
  | _ => False

/-- Offsets and sizes of whole pages, each from where those before it end, that make up the bytes
from `start` up to `stop`. -/
def Tiles (page : Nat) : (start : Nat) → List (Nat × Nat) → (stop : Nat) → Prop
  | start, [], stop => start = stop
  | start, (offset, size) :: rest, stop =>
    offset = start ∧ page ∣ offset ∧ page ∣ size ∧ 0 < size ∧ Tiles page (offset + size) rest stop

theorem Tiles.concat {page stop size : Nat} (hstop : page ∣ stop) (hsize : page ∣ size)
    (hpos : 0 < size) : ∀ {start : Nat} {ranges : List (Nat × Nat)}, Tiles page start ranges stop →
      Tiles page start (ranges ++ [(stop, size)]) (stop + size)
  | _, [], rfl => ⟨rfl, hstop, hsize, hpos, rfl⟩
  | _, (_, _) :: _, ⟨hoffset, h1, h2, h3, hrest⟩ =>
    ⟨hoffset, h1, h2, h3, hrest.concat hstop hsize hpos⟩

theorem wholePages_of_dvd {page c : Nat} (hpage : 0 < page) (hc : page ∣ c) :
    wholePages page c = c := by
  have hadd := add_wholePages hpage hc 0
  rw [wholePages_zero hpage] at hadd
  exact hadd.symm

namespace History

variable {past : History} {most : Nat}

/-- No commit that was asked for, granted or not, goes beyond so many bytes. -/
def Within (past : History) (most : Nat) : Prop :=
  ∀ offset size granted, .committed offset size granted ∈ past → offset + size ≤ most

theorem commits_granted (past : History) (offset size : Nat) :
    commits (.committed offset size true :: past) = past.commits ++ [(offset, size)] := by
  simp [commits]

theorem commits_refused (past : History) (offset size : Nat) :
    commits (.committed offset size false :: past) = past.commits := by
  simp [commits]

theorem reservations_cons (past : History) (offset size : Nat) (granted : Bool) :
    reservations (.committed offset size granted :: past) = past.reservations := by
  simp [reservations]

theorem Within.committed (h : past.Within most) {offset size : Nat} (hle : offset + size ≤ most)
    (granted : Bool) : Within (.committed offset size granted :: past) most := by
  intro offset' size' granted' hmem
  rcases List.mem_cons.1 hmem with heq | hmem
  · cases heq
    exact hle
  · exact h _ _ _ hmem

theorem Within.released (h : past.Within most) (extent : Extent) (accepted : Bool) :
    Within (.released extent accepted :: past) most := by
  intro offset size granted hmem
  rcases List.mem_cons.1 hmem with heq | hmem
  · cases heq
  · exact h _ _ _ hmem

end History

namespace Arena

variable {a : Arena} {most stop : Nat}

/-- An arena whose commits tile its committed bytes and stay inside those it has reserved. -/
structure Paged (a : Arena) (most : Nat) : Prop where
  tiles : Tiles a.mapper.pageSize 0 a.history.commits a.committed
  within : a.history.Within most
  reservations : a.history.reservations = [most]

theorem Paged.congr (h : a.Paged most) {a' : Arena} (hmapper : a'.mapper = a.mapper)
    (hhistory : a'.history = a.history) (hcommitted : a'.committed = a.committed) :
    a'.Paged most := by
  constructor
  · rw [hmapper, hhistory, hcommitted]
    exact h.tiles
  · rw [hhistory]
    exact h.within
  · rw [hhistory]
    exact h.reservations

theorem Paged.granted (h : a.Paged most) (hwhole : a.mapper.pageSize ∣ a.committed)
    (hpages : a.mapper.pageSize ∣ stop) (hlt : a.committed < stop) (hle : stop ≤ most) :
    (a.granted stop).Paged most := by
  have hstop : a.committed + (stop - a.committed) = stop := Nat.add_sub_cancel' hlt.le
  refine ⟨?_, h.within.committed (hstop.trans_le hle) true, ?_⟩
  · have htiles := h.tiles.concat hwhole (Nat.dvd_sub hpages hwhole) (Nat.sub_pos_of_lt hlt)
    rw [hstop] at htiles
    rw [← History.commits_granted] at htiles
    exact htiles
  · exact (History.reservations_cons _ _ _ _).trans h.reservations

theorem Paged.denied (h : a.Paged most) (hlt : a.committed < stop) (hle : stop ≤ most) :
    (a.denied stop).Paged most := by
  have hstop : a.committed + (stop - a.committed) = stop := Nat.add_sub_cancel' hlt.le
  refine ⟨?_, h.within.committed (hstop.trans_le hle) false, ?_⟩
  · have htiles := h.tiles
    rw [← History.commits_refused] at htiles
    exact htiles
  · exact (History.reservations_cons _ _ _ _).trans h.reservations

theorem refusal_of_reserve {mapper : Mapper} {size : Nat} {refusal : Refusal}
    (h : reserve mapper size = .error refusal) (most : Nat) :
    ¬ refusal.fault.Exhausted ∧ refusal.history.Within most := by
  rcases reserve_cases mapper size with ⟨_, _, hreserve⟩ |
    ⟨_, -, -, ⟨_, _, hreserve⟩ | ⟨_, -, hreserve⟩ | ⟨_, -, hreserve⟩⟩ <;>
      rw [hreserve] at h <;> cases h
  · exact ⟨not_false, nofun⟩
  · exact ⟨not_false, by simp [History.Within]⟩
  · exact ⟨not_false, by simp [History.Within]⟩

theorem paged_of_reserve {mapper : Mapper} {size : Nat} (h : reserve mapper size = .ok a) :
    a.Paged (wholePages mapper.pageSize size) := by
  obtain ⟨_, extent, hrounded, -, -, rfl⟩ := exists_of_reserve h
  obtain ⟨-, rfl⟩ := roundToPage_eq_some_iff.1 hrounded
  exact ⟨rfl, by simp [History.Within], by simp [History.reservations]⟩

end Arena

namespace Table

variable {t : Table}

/-- A table that has committed the pages of its slots and no others. -/
structure Paged (t : Table) : Prop where
  arena : t.arena.Paged (wholePages t.arena.mapper.pageSize (t.maxSlots * slotSize))
  committed : t.arena.committed = wholePages t.arena.mapper.pageSize (t.slots * slotSize)

theorem Keeps.paged {t' : Table} (hk : t.Keeps t')
    (hcommitted : t'.arena.committed = wholePages t.arena.mapper.pageSize (t'.slots * slotSize))
    (harena : t'.arena.Paged (wholePages t.arena.mapper.pageSize (t.maxSlots * slotSize))) :
    t'.Paged := by
  constructor <;> rw [hk.mapper]
  · rw [hk.maxSlots]
    exact harena
  · exact hcommitted

/-- The pages for twice the slots lie inside the reservation. -/
theorem growthEnd_le (hle : 2 * t.slots ≤ t.maxSlots) :
    t.growthEnd ≤ wholePages t.arena.mapper.pageSize (t.maxSlots * slotSize) :=
  wholePages_mono _ (Nat.mul_le_mul_right slotSize hle)

theorem Paged.commitDouble (hb : t.Backed) (hp : t.Paged) (hle : 2 * t.slots ≤ t.maxSlots) :
    t.commitDouble.2.arena.Paged (wholePages t.arena.mapper.pageSize (t.maxSlots * slotSize))
      ∧ (t.commitDouble.1 = .ok () → t.commitDouble.2.arena.committed = t.growthEnd) := by
  have hstop := growthEnd_le hle
  have hneeded : 2 * t.slots * slotSize ≤ t.growthEnd := le_wholePages hb.page_pos _
  rw [commitDouble_outcome hb hle]
  split_ifs with hmissing
  · have hlt : t.arena.committed < t.growthEnd := hmissing.trans_le hneeded
    rcases t.growthAnswer with _ | reason | _
    · exact ⟨hp.arena.granted hb.whole (dvd_wholePages _ _) hlt hstop, fun _ => rfl⟩
    · exact ⟨hp.arena.denied hlt hstop, nofun⟩
    · exact ⟨hp.arena.denied hlt hstop, nofun⟩
  · refine ⟨hp.arena, fun _ => ?_⟩
    -- Twice the slots end in the same page as the slots so far.
    refine Nat.le_antisymm ?_ ?_
    · rw [hp.committed]
      exact wholePages_mono _ (Nat.mul_le_mul_right _ (by omega))
    · calc t.growthEnd ≤ wholePages t.arena.mapper.pageSize t.arena.committed :=
            wholePages_mono _ (Nat.le_of_not_lt hmissing)
        _ = t.arena.committed := wholePages_of_dvd hb.page_pos hb.whole

/-- Redistributing the entries takes no commit. -/
theorem grow_arena (t : Table) :
    t.grow.2.arena.history = t.commitDouble.2.arena.history
      ∧ t.grow.2.arena.committed = t.commitDouble.2.arena.committed := by
  unfold grow
  rcases t.commitDouble with ⟨fault | _, t'⟩
  · exact ⟨rfl, rfl⟩
  · simp only
    rcases t'.slotArray.double? with _ | s <;> exact ⟨rfl, rfl⟩

theorem commitDouble_of_grow_ok {t' : Table} (h : t.grow = (.ok (), t')) :
    t.commitDouble.1 = .ok () := by
  rcases hcommit : t.commitDouble with ⟨fault | _, t''⟩
  · rw [grow_of_commitDouble_error hcommit] at h
    cases h
  · rfl

theorem Paged.grow (h : t.Sound) (hb : t.Backed) (hp : t.Paged) (hlt : t.slots < t.maxSlots) :
    t.grow.2.Paged := by
  obtain ⟨harena, hend⟩ := hp.commitDouble hb (h.double_le hlt)
  obtain ⟨hhistory, hcommitted⟩ := t.grow_arena
  have hkeeps := t.grow_keeps
  refine hkeeps.paged ?_ (harena.congr (hkeeps.mapper.trans t.commitDouble_keeps.mapper.symm)
    hhistory hcommitted)
  rcases grow_cases h hlt with ⟨t', hgrow, hd⟩ | ⟨fault, history, hgrow, -, -⟩
  · rw [hcommitted, hend (commitDouble_of_grow_ok hgrow), hgrow, hd.slots]
    rfl
  · rw [hgrow]
    exact hp.committed

theorem Paged.makeRoom (h : t.Sound) (hb : t.Backed) (hp : t.Paged) : t.makeRoom.2.Paged := by
  rw [makeRoom_snd]
  split_ifs with hc
  · exact hp.grow h hb (isCrowded_iff.1 hc).2
  · exact hp

theorem insert_arena (t : Table) (hash id : UInt32) :
    (t.insert hash id).2.arena.history = t.arena.history
      ∧ (t.insert hash id).2.arena.committed = t.arena.committed := by
  unfold insert
  split_ifs
  · exact ⟨rfl, rfl⟩
  · rcases t.slotArray.place? (Slot.pack hash id) with _ | s <;> exact ⟨rfl, rfl⟩

theorem Paged.insert (h : t.Sound) (hp : t.Paged) (hash id : UInt32) :
    (t.insert hash id).2.Paged := by
  obtain ⟨hhistory, hcommitted⟩ := t.insert_arena hash id
  have hkeeps := t.insert_keeps hash id
  refine hkeeps.paged ?_ (hp.arena.congr hkeeps.mapper hhistory hcommitted)
  rw [hcommitted, insert_slots h]
  exact hp.committed

/-- Before the first commit of a new table, and after it, granted or not. -/
theorem paged_first {mapper : Mapper} {sizing : Sizing} {arena : Arena}
    (hvalid : sizing.validate = .ok ())
    (hreserve : Arena.reserve mapper sizing.reservationSize = .ok arena) :
    arena.Paged (wholePages mapper.pageSize (sizing.maxSlots * slotSize))
      ∧ (arena.granted (wholePages mapper.pageSize (sizing.initialSlots * slotSize))).Paged
        (wholePages mapper.pageSize (sizing.maxSlots * slotSize))
      ∧ (arena.denied (wholePages mapper.pageSize (sizing.initialSlots * slotSize))).Paged
        (wholePages mapper.pageSize (sizing.maxSlots * slotSize)) := by
  obtain ⟨-, -, hle, hlim, -, -⟩ := Sizing.rules_of_validate hvalid
  obtain ⟨hne, -⟩ := grownEnd?_first hvalid hreserve
  obtain ⟨hpage, -, -⟩ := Arena.room_of_reserve hreserve
  have hpaged := Arena.paged_of_reserve hreserve
  obtain ⟨rfl, -, hzero⟩ := Arena.fresh_of_reserve hreserve
  rw [reservationSize_eq hlim] at hpaged
  have hstop := wholePages_mono arena.mapper.pageSize (Nat.mul_le_mul_right slotSize hle)
  have hlt : arena.committed < wholePages arena.mapper.pageSize (sizing.initialSlots * slotSize) := by
    rw [hzero]
    exact (Nat.pos_of_ne_zero hne).trans_le (le_wholePages hpage _)
  refine ⟨hpaged, hpaged.granted ?_ (dvd_wholePages _ _) hlt hstop, hpaged.denied hlt hstop⟩
  rw [hzero]
  exact Nat.dvd_zero _

theorem paged_of_new {mapper : Mapper} {sizing : Sizing} (h : Table.new mapper sizing = .ok t) :
    t.Paged := by
  obtain ⟨hvalid, arena, arena', span, hreserve, hgrow, rfl⟩ := exists_of_new h
  obtain ⟨hne, hend⟩ := grownEnd?_first hvalid hreserve
  obtain ⟨-, hgranted, -⟩ := paged_first hvalid hreserve
  obtain ⟨rfl, -, -⟩ := Arena.fresh_of_reserve hreserve
  rw [arena.grow_of_grownEnd _ hne hend] at hgrow
  split at hgrow <;> cases hgrow
  exact ⟨hgranted, rfl⟩

theorem refusal_of_new {mapper : Mapper} {sizing : Sizing} {refusal : Refusal}
    (h : Table.new mapper sizing = .error refusal) :
    ¬ refusal.fault.Exhausted
      ∧ refusal.history.Within (wholePages mapper.pageSize (sizing.maxSlots * slotSize)) := by
  rcases refusal_cases h with ⟨fault, -, rfl⟩ | ⟨hvalid, hreserve | ⟨arena, hreserve, hof⟩⟩
  · exact ⟨not_false, nofun⟩
  · exact Arena.refusal_of_reserve hreserve _
  obtain ⟨hpaged, -, hdenied⟩ := paged_first hvalid hreserve
  rcases hof with rfl | ⟨fault, arena', hgrow, rfl⟩
  · exact ⟨not_false, hpaged.within.released _ _⟩
  · obtain ⟨hne, hend⟩ := grownEnd?_first hvalid hreserve
    rw [arena.grow_of_grownEnd _ hne hend] at hgrow
    split at hgrow <;> cases hgrow
    · exact ⟨not_false, hdenied.within.released _ _⟩
    · exact ⟨not_false, hdenied.within.released _ _⟩

theorem makeRoom_fault (h : t.Sound) (hb : t.Backed) (hload : t.loadPercent ≤ 95) {fault : Fault}
    (hfault : t.makeRoom.1 = .error fault) : ¬ fault.Exhausted := by
  rcases makeRoom_outcome h hb hload with ⟨-, -, hmake⟩ | ⟨reason, -, -, hmake⟩ | ⟨-, hmake⟩
  · rw [hmake] at hfault
    cases hfault
    exact not_false
  · rw [hmake] at hfault
    cases hfault
    exact not_false
  · split_ifs at hmake
    · rw [hmake] at hfault
      cases hfault
      exact not_false
    · obtain ⟨t', hmake, -⟩ := hmake
      rw [hmake] at hfault
      cases hfault

theorem insert_fault {hash id : UInt32} {fault : Fault}
    (hfault : (t.insert hash id).1 = .error fault) : ¬ fault.Exhausted := by
  unfold insert at hfault
  split_ifs at hfault
  · cases hfault
    exact not_false
  · rcases hplace : t.slotArray.place? (Slot.pack hash id) with _ | s <;> rw [hplace] at hfault <;>
      cases hfault
    exact not_false

theorem call_fault (h : t.Sound) (hb : t.Backed) (hload : t.loadPercent ≤ 95) {c : TableCall}
    {fault : Fault} (hfault : (t.call c).1 = .error fault) : ¬ fault.Exhausted := by
  cases c with
  | makeRoom => exact makeRoom_fault h hb hload hfault
  | insert hash id => exact insert_fault hfault

theorem paged_after : ∀ (calls : List TableCall) {t : Table}, t.Sound → t.Backed → t.Paged →
    (t.after calls).Paged
  | [], _, _, _, hp => hp
  | c :: rest, t, h, hb, hp => by
    have hstep : (t.call c).2.Paged := by
      cases c with
      | makeRoom => exact hp.makeRoom h hb
      | insert hash id => exact hp.insert h hash id
    exact paged_after rest (call_sound h c).1 (backed_after [c] h hb) hstep

theorem trace_fault : ∀ (calls : List TableCall) {t : Table}, t.Sound → t.Backed →
    t.loadPercent ≤ 95 → ∀ step ∈ t.trace calls, ∀ fault, step.2 = .error fault → ¬ fault.Exhausted
  | [], _, _, _, _ => nofun
  | c :: rest, t, h, hb, hload => by
    intro step hstep fault hfault
    rcases List.mem_cons.1 hstep with rfl | hstep
    · exact call_fault h hb hload hfault
    · have hkeeps : t.Keeps (t.call c).2 := keeps_after [c] t
      exact trace_fault rest (call_sound h c).1 (backed_after [c] h hb)
        (hkeeps.loadPercent.trans_le hload) step hstep fault hfault

/-- Whatever is called on a table, and whatever commits are refused, it has committed the pages of
its slots, in commits that tile them, has asked for none beyond the pages it reserved for its
largest size, and has not run out of these; nor has a table that could not be made. -/
theorem commits_tile (mapper : Mapper) (sizing : Sizing) :
    (∀ refusal, Table.new mapper sizing = .error refusal → ¬ refusal.fault.Exhausted
        ∧ refusal.history.Within (wholePages mapper.pageSize (sizing.maxSlots * slotSize)))
      ∧ ∀ t, Table.new mapper sizing = .ok t → ∀ calls,
        (t.after calls).arena.committed
            = wholePages mapper.pageSize ((t.after calls).slots * slotSize)
          ∧ Tiles mapper.pageSize 0 (t.after calls).arena.history.commits
            (t.after calls).arena.committed
          ∧ (t.after calls).arena.history.reservations
            = [wholePages mapper.pageSize (sizing.maxSlots * slotSize)]
          ∧ (t.after calls).arena.history.Within
            (wholePages mapper.pageSize (sizing.maxSlots * slotSize))
          ∧ ∀ step ∈ t.trace calls, ∀ fault, step.2 = .error fault → ¬ fault.Exhausted := by
  refine ⟨fun refusal => refusal_of_new, fun t hnew calls => ?_⟩
  obtain ⟨hsound, -, hmapper⟩ := sound_of_new hnew
  obtain ⟨-, -, hmax, hpercent⟩ := sizes_of_new hnew
  obtain ⟨-, -, -, -, -, hload⟩ := Sizing.rules_of_validate (exists_of_new hnew).1
  have hbacked := backed_of_new hnew
  have hkeeps := keeps_after calls t
  obtain ⟨harena, hcommitted⟩ := paged_after calls hsound hbacked (paged_of_new hnew)
  rw [hkeeps.mapper, hmapper] at harena hcommitted
  rw [hkeeps.maxSlots, hmax] at harena
  have htiles := harena.tiles
  rw [hkeeps.mapper, hmapper] at htiles
  exact ⟨hcommitted, htiles, harena.reservations, harena.within,
    trace_fault calls hsound hbacked (hpercent.trans_le hload)⟩

/-- Pages of four slots, two of which are granted. -/
def roomy : MapperScript where
  pageSize := 32
  failAfter := some 2

/-- One slot is doubled twice inside its page and once into another one, and then there is no
page left for more. -/
theorem commits_tile_doubling :
    ∃ t calls, Table.new roomy.mapper ⟨1, 16, 50⟩ = .ok t ∧ (t.after calls).slots = 8
      ∧ (t.after calls).arena.committed = wholePages 32 (8 * slotSize)
      ∧ Tiles 32 0 [(0, 32), (32, 32)] (wholePages 32 (8 * slotSize)) := by
  obtain ⟨t, calls, hnew, hslots, hcommits⟩ :
      ∃ t calls, Table.new roomy.mapper ⟨1, 16, 50⟩ = .ok t ∧ (t.after calls).slots = 8
        ∧ (t.after calls).arena.history.commits = [(0, 32), (32, 32)] :=
    ⟨_, [.makeRoom, .insert 1 0, .makeRoom, .insert 1 1, .makeRoom, .insert 1 2, .makeRoom,
      .insert 1 3, .makeRoom], rfl, by decide +kernel, by decide +kernel⟩
  obtain ⟨hcommitted, htiles, -⟩ := (commits_tile roomy.mapper ⟨1, 16, 50⟩).2 t hnew calls
  rw [hslots] at hcommitted
  rw [hcommits, hcommitted] at htiles
  exact ⟨t, calls, hnew, hslots, hcommitted, htiles⟩

end Table

end ClassLoading
