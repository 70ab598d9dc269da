import ClassLoading.Proofs.LoadFactor

/-!
# Frozen registries

Whatever the mapper does, a registry stays in order and holds the classes that it was answered for
(`Registry.Sound.after`). An insertion makes the mapper crash in one case only: it asks for pages,
and the mapper breaks down over them (`Registry.Crashes`).

From then on nothing changes any more, whatever is called (`Registry.frozen_after`): no name is
registered or found, and the classes registered until then are still there by number.
-/

namespace ClassLoading

/-- Where the mapper crashes on the pages that are needed, the table has nothing but a mark in its
history. -/
theorem Table.makeRoom_of_crashed {t : Table} (h : t.Sound) (hb : t.Backed) (hneeds : t.NeedsPages)
    (hanswer : t.growthAnswer = .crashed) :
    t.makeRoom = (.error .mapperCrashed, { t with arena := t.arena.denied t.growthEnd }) := by
  obtain ⟨hcrowded, hlt, hneeded⟩ := hneeds
  have hcommit := commitDouble_outcome hb (h.double_le hlt)
  rw [if_pos hneeded, hanswer] at hcommit
  exact makeRoom_of_grow_error (isCrowded_iff.2 ⟨hcrowded, hlt⟩)
    (grow_of_commitDouble_error hcommit)

namespace Registry

variable {mapper : Mapper} {sizing : Sizing} {r : Registry}

section Runs

open RegistryTrace in
theorem Sound.call (h : r.Sound) (c : RegistryCall) :
    (r.call c).2.Sound
      ∧ (r.call c).2.classes.toList = r.classes.toList ++ registered [(c, (r.call c).1)] := by
  cases c with
  | register c =>
    simp only [Registry.call]
    rcases h.insert_cases c with ⟨fault, hfail, hsound, hclasses, -⟩ | ⟨-, r', hinsert, hr'⟩
    · rw [hfail, hclasses]
      exact ⟨hsound, by simp [registered, Except.map]⟩
    · rw [hinsert]
      exact ⟨hr'.sound, by simp [registered, Except.map, hr'.classes]⟩
  | find name => exact ⟨h, by simp [Registry.call, registered]⟩
  | get id => exact ⟨h, by simp [Registry.call, registered]⟩
  | list => exact ⟨h, by simp [Registry.call, registered]⟩
  | size => exact ⟨h, by simp [Registry.call, registered]⟩

/-- What is stored is what the registrations of a run have been answered for. -/
theorem Sound.after : ∀ (calls : List RegistryCall) {r : Registry}, r.Sound →
    (r.after calls).Sound
      ∧ (r.after calls).classes.toList = r.classes.toList ++ (r.trace calls).registered
  | [], _, h => ⟨h, (List.append_nil _).symm⟩
  | c :: rest, r, h => by
    obtain ⟨hsound, hclasses⟩ := h.call c
    obtain ⟨hafter, hall⟩ := Sound.after rest hsound
    refine ⟨hafter, ?_⟩
    rw [Registry.after, hall, hclasses, List.append_assoc]
    exact congrArg _ (List.filterMap_append (l := [(c, (r.call c).1)])).symm

theorem Reachable.after : ∀ (calls : List RegistryCall) {r : Registry},
    Reachable mapper sizing r → Reachable mapper sizing (r.after calls)
  | [], _, h => h
  | c :: rest, _, h => Reachable.after rest (h.call c)

end Runs

section Crashes

/-- The class is new, its insertion takes pages that are not there yet, and the mapper crashes when
it is asked for them. -/
structure Crashes (mapper : Mapper) (r : Registry) (c : Class) : Prop where
  running : r.frozen = false
  vacant : ¬ r.Registers c.name
  needs : r.table.NeedsPages
  crashed : mapper.onCommit r.table.arena.history r.table.arena.range.toExtent
    r.table.arena.committed (r.table.growthEnd - r.table.arena.committed) = .crashed

/-- The registry that a crash leaves behind: frozen, and otherwise as it was, but for the commit in
its history. -/
def crash (r : Registry) : Registry :=
  { r with
    table := { r.table with arena := r.table.arena.denied r.table.growthEnd }
    frozen := true }

/-- What is known of the table of a registry in use. -/
theorem Reachable.table (h : Reachable mapper sizing r) :
    r.table.Backed ∧ r.table.arena.mapper = mapper ∧ r.table.loadPercent ≤ 95 := by
  obtain ⟨t, calls, hnew, htable⟩ := h.exists_after
  obtain ⟨hsound, -, hmapper⟩ := Table.sound_of_new hnew
  obtain ⟨-, -, -, -, -, hload⟩ := Sizing.rules_of_validate (Table.exists_of_new hnew).1
  rw [htable]
  refine ⟨Table.backed_after calls hsound (Table.backed_of_new hnew),
    (Table.keeps_after calls t).mapper.trans hmapper, ?_⟩
  rwa [(Table.keeps_after calls t).loadPercent, (Table.sizes_of_new hnew).2.2.2]

theorem Reachable.insert_of_crashes (h : Reachable mapper sizing r) {c : Class}
    (hsound : r.Sound) (hc : r.Crashes mapper c) :
    r.insert c = (.error .mapperCrashed, r.crash) := by
  obtain ⟨hback, rfl, -⟩ := h.table
  have hnew := hsound.isSome_lookup?_iff.not.2 hc.vacant
  rw [insert_of_makeRoom_fault hc.running hnew
    (Table.makeRoom_of_crashed hsound.table hback hc.needs hc.crashed)]
  rfl

/-- The mapper crashes in no other case. -/
theorem Reachable.insert_crashed_iff (h : Reachable mapper sizing r) (hsound : r.Sound)
    (c : Class) : (r.insert c).1 = .error .mapperCrashed ↔ r.Crashes mapper c := by
  refine ⟨fun hinsert => ?_, fun hc => by rw [h.insert_of_crashes hsound hc]⟩
  obtain ⟨hback, rfl, hload⟩ := h.table
  -- Every other outcome of an insertion has an answer of its own.
  by_cases hf : r.frozen = true
  · rw [insert_frozen hf] at hinsert
    cases hinsert
  rw [Bool.not_eq_true] at hf
  by_cases hdup : r.Registers c.name
  · rw [insert_duplicate hf (hsound.isSome_lookup?_iff.2 hdup)] at hinsert
    cases hinsert
  have hnew := hsound.isSome_lookup?_iff.not.2 hdup
  rcases Table.makeRoom_outcome hsound.table hback hload with ⟨hneeds, hcrash, -⟩ |
    ⟨reason, -, -, hmake⟩ | ⟨-, hmake⟩
  · exact ⟨hf, hdup, hneeds, hcrash⟩
  · rw [insert_of_makeRoom_fault hf hnew (Prod.ext hmake rfl)] at hinsert
    cases hinsert
  · split_ifs at hmake
    · rw [insert_of_makeRoom_fault hf hnew hmake] at hinsert
      cases hinsert
    · obtain ⟨t, hmake, ht⟩ := hmake
      obtain ⟨r', hstore, -⟩ := exists_store (hsound.of_table ht.sound ht.held) ht.room
        fun d hd hname => hdup ⟨d, hd, hname⟩
      rw [insert_of_makeRoom_ok hf hnew hmake, hstore] at hinsert
      cases hinsert

end Crashes

section Frozen

theorem call_frozen (h : r.frozen = true) (c : RegistryCall) : (r.call c).2 = r := by
  cases c with
  | register c => exact congrArg Prod.snd (insert_frozen h c)
  | find name => rfl
  | get id => rfl
  | list => rfl
  | size => rfl

theorem after_frozen (h : r.frozen = true) : ∀ calls : List RegistryCall, r.after calls = r
  | [] => rfl
  | c :: rest => by rw [after, call_frozen h, after_frozen h rest]

/-- What a registry answers that has been frozen with these classes in it. -/
structure Frozen (classes : List Class) (r : Registry) : Prop where
  insert : ∀ c, r.insert c = (.error .frozen, r)
  find : ∀ name, r.find? name = none
  capacity : r.capacity = 0
  stats : r.stats = .error .frozen
  size : r.size = classes.length
  isEmpty : r.isEmpty = classes.isEmpty
  get : ∀ id, r.get? id = classes[id.toNat]?
  list : r.toList.map Prod.snd = classes
    ∧ r.toList.map (fun pair => pair.1.toNat) = List.range classes.length

theorem Sound.frozen (h : r.Sound) (hf : r.frozen = true) : Frozen r.classes.toList r where
  insert := insert_frozen hf
  find _ := if_pos hf
  capacity := if_pos hf
  stats := if_pos hf
  size := Array.length_toList.symm
  isEmpty := Array.isEmpty_toList.symm
  get _ := Array.getElem?_toList.symm
  list := toList_right h

/-- If an insertion makes the mapper crash, nothing but the commit that failed has happened to the
registry, and nothing will: whatever is called afterwards, it answers as one that is frozen, with
the classes in it that were registered before. -/
theorem frozen_after (h : Registry.new mapper sizing = .ok r) (calls : List RegistryCall)
    (c : Class) :
    (((r.after calls).insert c).1 = .error .mapperCrashed ↔ (r.after calls).Crashes mapper c)
      ∧ ((r.after calls).Crashes mapper c → ∀ later,
        ((r.after calls).insert c).2.after later = (r.after calls).crash
          ∧ Frozen (r.trace calls).registered (((r.after calls).insert c).2.after later)) := by
  obtain ⟨hnew, -, -, hempty⟩ := sound_of_new h
  obtain ⟨hsound, hclasses⟩ := Sound.after calls hnew
  have hreach : Reachable mapper sizing (r.after calls) := Reachable.after calls (.new h)
  refine ⟨hreach.insert_crashed_iff hsound c, fun hc later => ?_⟩
  have hcrash : ((r.after calls).insert c).2.after later = (r.after calls).crash := by
    rw [hreach.insert_of_crashes hsound hc]
    exact after_frozen rfl later
  have hsound' : (r.after calls).crash.Sound :=
    ⟨hsound.table.history _, hsound.held, hsound.nodup⟩
  rw [hempty, List.nil_append] at hclasses
  rw [hcrash, ← hclasses]
  exact ⟨rfl, hsound'.frozen rfl⟩

/-- Pages of one slot, the third of which is one too many. -/
def brittle : MapperScript where
  pageSize := 8
  crashAfter := some 2

/-- The second class takes that page, and then the first one cannot be registered again. -/
theorem frozen_after_second :
    ∃ r, Registry.new brittle.mapper ⟨1, 4, 95⟩ = .ok r
      ∧ (r.after [.register (unfurnished "declinate")]).Crashes brittle.mapper
        (unfurnished "macallums")
      ∧ Frozen [unfurnished "declinate"]
        (((r.after [.register (unfurnished "declinate")]).insert (unfurnished "macallums")).2.after
          [.register (unfurnished "declinate")]) := by
  obtain ⟨r, hnew, hcrash, hpast⟩ : ∃ r, Registry.new brittle.mapper ⟨1, 4, 95⟩ = .ok r
      ∧ ((r.after [.register (unfurnished "declinate")]).insert (unfurnished "macallums")).1
        = .error .mapperCrashed
      ∧ (r.trace [.register (unfurnished "declinate")]).registered = [unfurnished "declinate"] :=
    ⟨_, rfl, by decide +kernel, by decide +kernel⟩
  obtain ⟨hiff, hfrozen⟩ :=
    frozen_after hnew [.register (unfurnished "declinate")] (unfurnished "macallums")
  have hc := hiff.1 hcrash
  exact ⟨r, hnew, hc, hpast ▸ (hfrozen hc [.register (unfurnished "declinate")]).2⟩

end Frozen

end Registry

end ClassLoading
