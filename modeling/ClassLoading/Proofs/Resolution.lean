import Mathlib.Data.List.Forall2
import ClassLoading.Proofs.Batches
import ClassLoading.Proofs.Encodings
import ClassLoading.Proofs.Freezing

/-!
# Resolving types

As long as its mapper does not crash, a loader has the classes of the attempts that succeeded, each
under the number that was answered, and loses none of them (`Loader.get?_enrollAll`). So a type is
resolved tag by tag to what has been registered, and while the loader goes on, an answer changes in
one way only: a name that was unresolved is found once a class of that name is registered
(`Loader.resolve_run`).
-/

namespace ClassLoading

/-- What a tag stands for in a pool, where classes have been registered under some numbers. -/
structure Resolved.Right (registered : ClassId → Class → Prop) (pool : Pool) (tag : UInt16)
    (answer : Resolved) : Prop where
  found : ∀ id, answer = .found id ↔
    ∃ c, registered id c ∧ pool.entries[tag.toNat]? = some (.text c.name)
  unresolved : ∀ name, answer = .unresolved name ↔
    pool.entries[tag.toNat]? = some (.text name) ∧ ∀ id c, registered id c → c.name ≠ name
  notAName : ∀ tag', answer = .notAName tag' ↔
    tag' = tag ∧ ∀ name, pool.entries[tag.toNat]? ≠ some (.text name)

/-- What becomes of an answer from one state of a loader to a later one, when some classes have been
registered in between. -/
structure Resolved.Becomes (r r' : Registry) (between : ClassId → Class → Prop)
    (answer answer' : Resolved) : Prop where
  found : ∀ id, answer = .found id →
    answer' = .found id ∧ ∃ c, r.get? id = some c ∧ r'.get? id = some c
  unresolved : ∀ name, answer = .unresolved name →
    (∀ id, answer' = .found id ↔ ∃ c, between id c ∧ c.name = name)
      ∧ (answer' = .unresolved name ↔ ∀ id c, between id c → c.name ≠ name)
  notAName : ∀ tag, answer = .notAName tag → answer' = .notAName tag

namespace Class

/-- The type is that of a field of the class, or that of a method's arguments. -/
def Mentions (c : Class) (type : TypeRef) : Prop :=
  (∃ field ∈ c.fields, field.type = type) ∨ ∃ method ∈ c.methods, method.args = type

theorem tag_lt_of_counted {pool : Pool} {bytes : List UInt8} {type : TypeRef} {tags : List UInt16}
    (h : Form.Counted (TagForm pool) bytes tags) (htype : type.Lists tags) :
    ∀ tag ∈ type.tags, tag.toNat < pool.size := by
  intro tag htag
  rw [htype.tags_eq] at htag
  obtain ⟨_, _, -, -, hlisted⟩ := h
  obtain ⟨_, -, hlt⟩ := hlisted.exists_form tag htag
  exact hlt

/-- Where a class file mentions a type, all its tags lie in the pool of the class. -/
theorem Mentions.tag_lt {c : Class} {type : TypeRef} (h : c.Mentions type) {bytes : List UInt8}
    (hform : ClassForm bytes c) : ∀ tag ∈ type.tags, tag.toNat < c.pool.size := by
  obtain ⟨_, _, _, _, -, -, -, -, ⟨_, _, -, -, hfields⟩, ⟨_, _, -, -, hmethods⟩⟩ := hform
  rcases h with ⟨field, hmem, rfl⟩ | ⟨method, hmem, rfl⟩
  · obtain ⟨_, _, _, tags, -, -, -, htags, -, htype⟩ :=
      hfields.exists_form field (Array.mem_toList_iff.2 hmem)
    exact tag_lt_of_counted htags htype
  · obtain ⟨_, _, _, tags, _, -, -, -, htags, hargs, -⟩ :=
      hmethods.exists_form method (Array.mem_toList_iff.2 hmem)
    exact tag_lt_of_counted htags hargs

end Class

namespace Registry

variable {r : Registry}

/-- A registry in order that has not been frozen. -/
structure Running (r : Registry) : Prop where
  sound : r.Sound
  frozen : r.frozen = false

theorem Running.find?_eq_some_iff (h : r.Running) {name : String} {id : ClassId} :
    r.find? name = some id ↔ ∃ c, r.get? id = some c ∧ c.name = name :=
  h.sound.find?_eq_some_iff h.frozen

theorem Grown.get?_eq_some_iff (h : r.Sound) {c d : Class} {r' : Registry} (hr' : r.Grown c r')
    {id : ClassId} :
    r'.get? id = some d ↔ r.get? id = some d ∨ c = d ∧ UInt32.ofNat r.size = id := by
  have hsize := h.size_le
  have hnew : UInt32.ofNat r.size = id ↔ id.toNat = r.classes.size := by
    rw [← UInt32.toNat_inj, UInt32.toNat_ofNat_of_lt' (by show r.classes.size < 2 ^ 32; omega),
      size, eq_comm]
  unfold get?
  rw [hr'.classes, Array.getElem?_push, hnew]
  split_ifs with hid
  · rw [hid, Array.getElem?_eq_none le_rfl]
    simp
  · simp [hid]

/-- Unless the mapper crashes, an insertion adds its class under the number that it answers, or
none. -/
theorem Running.insert (h : r.Running) {c : Class}
    (hcrash : (r.insert c).1 ≠ .error .mapperCrashed) :
    (r.insert c).2.Running ∧ ∀ id d, (r.insert c).2.get? id = some d ↔
      r.get? id = some d ∨ c = d ∧ (r.insert c).1 = .ok id := by
  rcases h.sound.insert_cases c with ⟨fault, hfail, hsound, hclasses, hfrozen⟩ |
    ⟨-, r', hinsert, hr'⟩
  · rw [hfail] at hcrash ⊢
    refine ⟨⟨hsound, (hfrozen fun heq => hcrash (by rw [heq])).trans h.frozen⟩, fun id d => ?_⟩
    unfold get?
    rw [hclasses]
    simp
  · rw [hinsert]
    refine ⟨⟨hr'.sound, hr'.frozen.trans h.frozen⟩, fun id d => ?_⟩
    rw [hr'.get?_eq_some_iff h.sound, Except.ok.injEq]

end Registry

namespace Loader

variable {l : Loader}

/-- A class was registered in a run of calls, under that number. -/
def Registered (l : Loader) (calls : List LoaderCall) (id : ClassId) (c : Class) : Prop :=
  ∃ a ∈ l.attempts (l.offers calls), a.offer = .ok c ∧ a.answer = .ok id

section Runs

theorem Running.enroll (h : l.registry.Running) {offer : Except Fault Class}
    (hcrash : (l.enroll offer).1 ≠ .error .mapperCrashed) :
    (l.enroll offer).2.registry.Running ∧ ∀ id c, (l.enroll offer).2.registry.get? id = some c ↔
      l.registry.get? id = some c ∨ offer = .ok c ∧ (l.enroll offer).1 = .ok id := by
  cases offer with
  | error fault => exact ⟨h, fun id c => by simp [Loader.enroll]⟩
  | ok d =>
    obtain ⟨hrunning, hget⟩ := Registry.Running.insert h hcrash
    refine ⟨hrunning, fun id c => ?_⟩
    rw [Except.ok.injEq]
    exact hget id c

/-- Unless the mapper crashes, what has been there stays and each attempt that succeeds adds its
class. -/
theorem get?_enrollAll : ∀ (offers : List (Except Fault Class)) {l : Loader}, l.registry.Running →
    .error .mapperCrashed ∉ (l.enrollAll offers).1 →
    (l.enrollAll offers).2.registry.Running
      ∧ ∀ id c, (l.enrollAll offers).2.registry.get? id = some c ↔ l.registry.get? id = some c
        ∨ ∃ a ∈ l.attempts offers, a.offer = .ok c ∧ a.answer = .ok id
  | [], _, h, _ => ⟨h, by simp [enrollAll, attempts]⟩
  | offer :: rest, l, h, hcrash => by
    rw [enrollAll_cons, List.mem_cons, not_or] at hcrash
    obtain ⟨hrunning, hget⟩ := Running.enroll h (Ne.symm hcrash.1)
    obtain ⟨hrunning', hget'⟩ := get?_enrollAll rest hrunning hcrash.2
    refine ⟨hrunning', fun id c => ?_⟩
    rw [enrollAll_cons, hget', hget, attempts]
    simp [or_assoc]

theorem running_of_new {mapper : Mapper} {config : LoaderConfig}
    (h : Loader.new mapper config = .ok l) :
    l.registry.Running ∧ ∀ id, l.registry.get? id = none := by
  obtain ⟨hsound, -, hf, hempty⟩ := Registry.sound_of_new (registry_of_new h)
  refine ⟨⟨hsound, hf⟩, fun id => ?_⟩
  unfold Registry.get?
  simp [hempty]

theorem get?_run (h : l.registry.Running) {calls : List LoaderCall}
    (hcrash : .error .mapperCrashed ∉ (l.run calls).1) :
    (l.run calls).2.registry.Running ∧ ∀ id c, (l.run calls).2.registry.get? id = some c ↔
      l.registry.get? id = some c ∨ l.Registered calls id c := by
  rw [run_eq_enrollAll] at hcrash ⊢
  exact get?_enrollAll _ h hcrash

end Runs

section Answers

theorem resolveTag_right (h : l.registry.Running) (pool : Pool) (tag : UInt16) :
    (l.resolveTag pool tag).Right (fun id c => l.registry.get? id = some c) pool tag := by
  unfold resolveTag
  rcases htext : pool.text? tag.toNat with _ | name
  · have hnone : ∀ name, pool.entries[tag.toNat]? ≠ some (.text name) := by
      intro name hget
      rw [Pool.text?_eq_some_iff.2 hget] at htext
      cases htext
    constructor <;> simp [hnone, eq_comm]
  · have hget := Pool.text?_eq_some_iff.1 htext
    rcases hfind : l.registry.find? name with _ | id <;> simp only [hfind]
    · have hmissing : ∀ id c, l.registry.get? id = some c → c.name ≠ name := by
        intro id c hc hname
        rw [h.find?_eq_some_iff.2 ⟨c, hc, hname⟩] at hfind
        cases hfind
      refine ⟨fun id => ?_, fun name' => ?_, by simp [hget]⟩
      · simp only [hget, reduceCtorEq, Option.some.injEq, Constant.text.injEq, false_iff]
        rintro ⟨c, hc, rfl⟩
        exact hmissing id c hc rfl
      · simp only [hget, Resolved.unresolved.injEq, Option.some.injEq, Constant.text.injEq]
        constructor
        · rintro rfl
          exact ⟨rfl, hmissing⟩
        · exact And.left
    · obtain ⟨c, hc, rfl⟩ := h.find?_eq_some_iff.1 hfind
      refine ⟨fun id' => ?_, fun name' => ?_, by simp [hget]⟩
      · simp only [hget, Resolved.found.injEq, Option.some.injEq, Constant.text.injEq]
        constructor
        · rintro rfl
          exact ⟨c, hc, rfl⟩
        · rintro ⟨c', hc', hname⟩
          exact h.sound.id_unique hc hc' hname
      · simp only [hget, reduceCtorEq, Option.some.injEq, Constant.text.injEq, false_iff]
        rintro ⟨rfl, hmissing⟩
        exact hmissing id c hc rfl

theorem resolveTag_becomes {l' : Loader} (h : l.registry.Running) (h' : l'.registry.Running)
    {between : ClassId → Class → Prop} (hget : ∀ id c, l'.registry.get? id = some c ↔
      l.registry.get? id = some c ∨ between id c) (pool : Pool) (tag : UInt16) :
    (l.resolveTag pool tag).Becomes l.registry l'.registry between (l'.resolveTag pool tag) := by
  have hnow := resolveTag_right h pool tag
  have hlater := resolveTag_right h' pool tag
  refine ⟨fun id hfound => ?_, fun name hopen => ⟨fun id => ?_, ?_⟩, fun tag' hnone => ?_⟩
  · obtain ⟨c, hc, htext⟩ := (hnow.found id).1 hfound
    have hc' := (hget id c).2 (.inl hc)
    exact ⟨(hlater.found id).2 ⟨c, hc', htext⟩, c, hc, hc'⟩
  · obtain ⟨htext, hmissing⟩ := (hnow.unresolved name).1 hopen
    rw [hlater.found, htext]
    constructor
    · rintro ⟨c, hc, hname⟩
      rw [Option.some.injEq, Constant.text.injEq] at hname
      exact ⟨c, ((hget id c).1 hc).resolve_left fun hold => hmissing id c hold hname.symm,
        hname.symm⟩
    · rintro ⟨c, hc, rfl⟩
      exact ⟨c, (hget id c).2 (.inr hc), rfl⟩
  · obtain ⟨htext, hmissing⟩ := (hnow.unresolved name).1 hopen
    rw [hlater.unresolved]
    constructor
    · rintro ⟨-, hnone⟩ id c hc
      exact hnone id c ((hget id c).2 (.inr hc))
    · intro hnone
      exact ⟨htext, fun id c hc => ((hget id c).1 hc).elim (hmissing id c) (hnone id c)⟩
  · exact (hlater.notAName tag').2 ((hnow.notAName tag').1 hnone)

variable {mapper : Mapper} {config : LoaderConfig}

/-- In a run without a crash, a type is resolved in the order of its tags, each to the class of that
name that was registered in the run, if there is one. While the run goes on, a class that was found
is found again, and a name that was unresolved becomes the class that is registered under it in
between. The tags of a class that was decoded all lie in its pool. -/
theorem resolve_run (h : Loader.new mapper config = .ok l) {calls more : List LoaderCall}
    (hcalls : .error .mapperCrashed ∉ (l.run calls).1)
    (hmore : .error .mapperCrashed ∉ ((l.run calls).2.run more).1) (type : TypeRef) (pool : Pool) :
    (∀ id c, (l.run calls).2.registry.get? id = some c ↔ l.Registered calls id c)
      ∧ List.Forall₂ (Resolved.Right (l.Registered calls) pool) type.tags
        ((l.run calls).2.resolve type pool)
      ∧ List.Forall₂ (Resolved.Becomes (l.run calls).2.registry
          ((l.run calls).2.run more).2.registry ((l.run calls).2.Registered more))
        ((l.run calls).2.resolve type pool) (((l.run calls).2.run more).2.resolve type pool)
      ∧ ∀ bytes limits, ∀ c, Class.decode bytes limits = .ok c → c.Mentions type →
        ∀ tag, .notAName tag ∈ (l.run calls).2.resolve type c.pool → tag.toNat < c.pool.size := by
  obtain ⟨hnew, hempty⟩ := running_of_new h
  obtain ⟨hrunning, hget⟩ := get?_run hnew hcalls
  obtain ⟨hrunning', hget'⟩ := get?_run hrunning hmore
  simp only [hempty, reduceCtorEq, false_or] at hget
  refine ⟨hget, ?_, ?_, fun bytes limits c hdecode hmentions tag htag => ?_⟩
  · have hregistered : (fun id c => (l.run calls).2.registry.get? id = some c)
        = l.Registered calls := by
      funext id c
      exact propext (hget id c)
    rw [resolve, List.forall₂_map_right_iff, List.forall₂_same, ← hregistered]
    exact fun tag _ => resolveTag_right hrunning pool tag
  · rw [resolve, resolve, List.forall₂_map_left_iff, List.forall₂_map_right_iff, List.forall₂_same]
    exact fun tag _ => resolveTag_becomes hrunning hrunning' hget' pool tag
  · obtain ⟨tag', htag', heq⟩ := List.mem_map.1 htag
    obtain ⟨rfl, -⟩ := ((resolveTag_right hrunning c.pool tag').notAName tag).1 heq
    exact hmentions.tag_lt (Class.decode_iff.1 hdecode).1 _ htag'

/-- A class `A` with one field, whose type has the tags of the name `B` and of a number. -/
def halfNamed : List UInt8 :=
  [0x24, 0x47, 0x4C, 0x52, 1, 1, 3, 3, 1, 0, 0, 0, 0x41, 3, 1, 0, 0, 0, 0x42,
    0, 5, 0, 0, 0, 0, 0, 0, 0, 1, 1, 0, 0, 2, 1, 0, 2, 0, 0]

/-- The name is resolved once its class has been loaded, and the number never. -/
theorem resolve_run_late :
    ∃ l c, Loader.new Mapper.system ⟨{}, ⟨1, 4, 95⟩⟩ = .ok l ∧ Class.decode halfNamed {} = .ok c
      ∧ (l.run [.load halfNamed]).2.resolve (.chain [1, 2]) c.pool = [.unresolved "B", .notAName 2]
      ∧ ((l.run [.load halfNamed]).2.run [.load (bare 0x42)]).2.resolve (.chain [1, 2]) c.pool
        = [.found 1, .notAName 2]
      ∧ (∃ d, (l.run [.load halfNamed]).2.Registered [.load (bare 0x42)] 1 d ∧ d.name = "B")
      ∧ (2 : UInt16).toNat < c.pool.size := by
  obtain ⟨l, c, hnew, hdecode, hmentions, hcalls, hmore, hnow, hlater⟩ :
      ∃ l c, Loader.new Mapper.system ⟨{}, ⟨1, 4, 95⟩⟩ = .ok l ∧ Class.decode halfNamed {} = .ok c
        ∧ (∃ field ∈ c.fields, field.type = .chain [1, 2])
        ∧ .error .mapperCrashed ∉ (l.run [.load halfNamed]).1
        ∧ .error .mapperCrashed ∉ ((l.run [.load halfNamed]).2.run [.load (bare 0x42)]).1
        ∧ (l.run [.load halfNamed]).2.resolve (.chain [1, 2]) c.pool
          = [.unresolved "B", .notAName 2]
        ∧ ((l.run [.load halfNamed]).2.run [.load (bare 0x42)]).2.resolve (.chain [1, 2]) c.pool
          = [.found 1, .notAName 2] :=
    ⟨_, _, rfl, rfl, by decide +kernel, by decide +kernel, by decide +kernel, by decide +kernel,
      by decide +kernel⟩
  obtain ⟨-, -, hbecomes, htags⟩ := resolve_run hnew hcalls hmore (.chain [1, 2]) c.pool
  rw [hnow, hlater, List.forall₂_cons] at hbecomes
  have hnumber := htags halfNamed {} c hdecode (.inl hmentions) 2 (by rw [hnow]; decide)
  exact ⟨l, c, hnew, hdecode, hnow, hlater, ((hbecomes.1.unresolved "B" rfl).1 1).1 rfl, hnumber⟩

end Answers

end Loader

end ClassLoading
