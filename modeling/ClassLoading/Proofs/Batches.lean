import ClassLoading.Proofs.Insertions

/-!
# Files in turn

All that a loader registers is offered to its registry one class after the other, whichever call it
comes from (`Loader.run_eq_enrollAll`): a load leaves the limits as they are, so nothing depends on
whether the files behind it have been decoded before or are decoded later.

So the files of a batch come out as they would one by one, and of all classes of one name that a
loader ever meets, the first to find room is registered, and no other (`Loader.loadAll_in_turn`).
-/

namespace ClassLoading

/-- What can be asked of a loader so that it registers classes: to load files, or to take a class
into its registry. -/
inductive LoaderCall where
  | load (bytes : List UInt8)
  | loadFile (bytes? : Option (List UInt8))
  | loadAll (files : List (List UInt8))
  | register (c : Class)

/-- What a call has to offer to the registry, in order. -/
def LoaderCall.offers (limits : Limits) : LoaderCall → List (Except Fault Class)
  | .load bytes => [Class.decode bytes limits]
  | .loadFile none => [.error .unreadableFile]
  | .loadFile (some bytes) => [Class.decode bytes limits]
  | .loadAll files => files.map (Class.decode · limits)
  | .register c => [.ok c]

/-- Something offered to a registry, the registry as it was, and the answer. -/
structure Attempt where
  offer : Except Fault Class
  registry : Registry
  answer : Except Fault ClassId

namespace Registry

variable {r : Registry}

/-- Whether the table has room for one more entry, or can make it. -/
def HasRoom (r : Registry) : Prop :=
  r.table.makeRoom.1 = .ok ()

theorem Ready.insert_cases (h : r.Ready) (c : Class) :
    ((∃ fault, (r.insert c).1 = .error fault) ∧ (r.insert c).2.classes = r.classes)
      ∨ ∃ id, (r.insert c).1 = .ok id ∧ id.toNat = r.size
        ∧ (r.insert c).2.classes = r.classes.push c := by
  rcases h.sound.insert_cases c with ⟨fault, hfail, -, hclasses, -⟩ | ⟨-, r', hinsert, hr'⟩
  · exact .inl ⟨⟨fault, hfail⟩, hclasses⟩
  · have hsize := h.sound.size_le
    rw [hinsert]
    refine .inr ⟨_, rfl, UInt32.toNat_ofNat_of_lt' ?_, hr'.classes⟩
    show r.classes.size < 2 ^ 32
    omega

/-- A class is registered if there is room for it and its name is not taken. -/
theorem Ready.insert_ok_iff (h : r.Ready) (c : Class) :
    (∃ id, (r.insert c).1 = .ok id) ↔ r.HasRoom ∧ ¬ r.Registers c.name := by
  by_cases hdup : r.Registers c.name
  · rw [Registry.insert_duplicate h.frozen (h.sound.isSome_lookup?_iff.2 hdup)]
    simp [hdup]
  have hlookup := h.sound.isSome_lookup?_iff.not.2 hdup
  have hnames : ∀ d ∈ r.classes.toList, d.name ≠ c.name := fun d hd hname => hdup ⟨d, hd, hname⟩
  rcases Table.makeRoom_cases h.sound.table with ⟨hmake, hroom⟩ | ⟨t, hmake, ht, hroom⟩ |
    ⟨fault, history, hmake, -, hcrash⟩
  · obtain ⟨r', hstore, -⟩ := exists_store h.sound hroom hnames
    rw [insert_of_makeRoom_ok h.frozen hlookup hmake]
    simp [HasRoom, hmake, hdup, hstore]
  · obtain ⟨r', hstore, -⟩ := exists_store (h.sound.of_table ht.sound ht.held) hroom hnames
    rw [insert_of_makeRoom_ok h.frozen hlookup hmake]
    simp [HasRoom, hmake, hdup, hstore]
  · rw [insert_of_makeRoom_error h.frozen hlookup hmake (hcrash h.steady)]
    simp [HasRoom, hmake]

theorem Ready.registers_insert (h : r.Ready) (c : Class) (name : String) :
    (r.insert c).2.Registers name ↔ r.Registers name ∨ r.HasRoom ∧ c.name = name := by
  have hok := h.insert_ok_iff c
  unfold Registers at hok ⊢
  rcases h.insert_cases c with ⟨⟨fault, hfail⟩, hclasses⟩ | ⟨id, hanswer, -, hclasses⟩ <;>
    rw [hclasses]
  · refine ⟨.inl, ?_⟩
    rintro (hold | ⟨hroom, rfl⟩)
    · exact hold
    · by_contra hnew
      obtain ⟨id, hid⟩ := hok.2 ⟨hroom, hnew⟩
      rw [hfail] at hid
      cases hid
  · obtain ⟨hroom, -⟩ := hok.1 ⟨id, hanswer⟩
    simp [hroom, or_and_right, exists_or]

end Registry

namespace Attempt

variable (a : Attempt) (name : String)

def Names : Prop :=
  ∃ c, a.offer = .ok c ∧ c.name = name

/-- Whether a class of that name was there to be registered, and found room. -/
def Contends : Prop :=
  a.Names name ∧ a.registry.HasRoom

def Succeeds : Prop :=
  ∃ id, a.answer = .ok id

variable {a} {name}

theorem Names.unique {name' : String} (h : a.Names name) (h' : a.Names name') : name = name' := by
  obtain ⟨c, hc, rfl⟩ := h
  obtain ⟨c', hc', rfl⟩ := h'
  rw [hc, Except.ok.injEq] at hc'
  rw [hc']

end Attempt

namespace Loader

variable {l : Loader}

/-- Loads files, each once the one before it is done with. -/
def loadEach (l : Loader) : List (List UInt8) → List (Except Fault ClassId) × Loader
  | [] => ([], l)
  | bytes :: rest =>
    ((l.load bytes).1 :: ((l.load bytes).2.loadEach rest).1, ((l.load bytes).2.loadEach rest).2)

def call (l : Loader) : LoaderCall → List (Except Fault ClassId) × Loader
  | .load bytes => ([(l.load bytes).1], (l.load bytes).2)
  | .loadFile bytes? => ([(l.loadFile bytes?).1], (l.loadFile bytes?).2)
  | .loadAll files => l.loadAll files
  | .register c => ([(l.register c).1], (l.register c).2)

/-- All answers of some calls, one after the other, and the loader after them. -/
def run (l : Loader) : List LoaderCall → List (Except Fault ClassId) × Loader
  | [] => ([], l)
  | c :: rest => ((l.call c).1 ++ ((l.call c).2.run rest).1, ((l.call c).2.run rest).2)

def offers (l : Loader) (calls : List LoaderCall) : List (Except Fault Class) :=
  calls.flatMap (LoaderCall.offers l.config.limits)

/-- What becomes of some offers, one after the other. -/
def attempts (l : Loader) : List (Except Fault Class) → List Attempt
  | [] => []
  | offer :: rest => ⟨offer, l.registry, (l.enroll offer).1⟩ :: (l.enroll offer).2.attempts rest

section Order

theorem enroll_config (l : Loader) (offer : Except Fault Class) :
    (l.enroll offer).2.config = l.config := by
  cases offer <;> rfl

theorem enrollAll_cons (offer : Except Fault Class) (rest : List (Except Fault Class))
    (l : Loader) : l.enrollAll (offer :: rest) = ((l.enroll offer).1 ::
      ((l.enroll offer).2.enrollAll rest).1, ((l.enroll offer).2.enrollAll rest).2) := rfl

theorem enrollAll_config : ∀ (offers : List (Except Fault Class)) (l : Loader),
    (l.enrollAll offers).2.config = l.config
  | [], _ => rfl
  | offer :: rest, l => (enrollAll_config rest _).trans (l.enroll_config offer)

theorem enrollAll_append : ∀ (offers offers' : List (Except Fault Class)) (l : Loader),
    l.enrollAll (offers ++ offers') = ((l.enrollAll offers).1 ++ ((l.enrollAll offers).2.enrollAll
      offers').1, ((l.enrollAll offers).2.enrollAll offers').2)
  | [], _, _ => rfl
  | offer :: rest, offers', l => by
    rw [List.cons_append, enrollAll_cons, enrollAll_append rest offers', enrollAll_cons,
      List.cons_append]

/-- Decoding all files first is decoding each when its turn comes. -/
theorem loadAll_eq_loadEach : ∀ (files : List (List UInt8)) (l : Loader),
    l.loadAll files = l.loadEach files
  | [], _ => rfl
  | bytes :: rest, l => by
    -- The limits are all that decoding asks of a loader, and no load changes them.
    have hdecode : rest.map l.decode = rest.map (l.load bytes).2.decode := by
      unfold decode load
      rw [enroll_config]
    have hrest := loadAll_eq_loadEach rest (l.load bytes).2
    unfold loadAll at hrest ⊢
    rw [List.map_cons, loadEach, ← hrest, ← hdecode]
    rfl

theorem call_eq_enrollAll (l : Loader) (c : LoaderCall) :
    l.call c = l.enrollAll (c.offers l.config.limits) := by
  cases c with
  | load bytes => rfl
  | loadFile bytes? => cases bytes? <;> rfl
  | loadAll files => rfl
  | register c => rfl

theorem run_eq_enrollAll : ∀ (calls : List LoaderCall) (l : Loader),
    l.run calls = l.enrollAll (l.offers calls)
  | [], _ => rfl
  | c :: rest, l => by
    have hoffers : l.offers (c :: rest) = c.offers l.config.limits ++ (l.call c).2.offers rest := by
      rw [offers, List.flatMap_cons, offers, call_eq_enrollAll, enrollAll_config]
    rw [run, run_eq_enrollAll rest, hoffers, enrollAll_append, call_eq_enrollAll]

theorem enrollAll_fst : ∀ (offers : List (Except Fault Class)) (l : Loader),
    (l.enrollAll offers).1 = (l.attempts offers).map Attempt.answer
  | [], _ => rfl
  | offer :: rest, l => by
    rw [attempts, List.map_cons, ← enrollAll_fst rest]
    rfl

end Order

section Ids

/-- The ids of what was registered, in order. -/
def ids (results : List (Except Fault ClassId)) : List ClassId :=
  results.filterMap Except.toOption

theorem Ready.enroll (h : l.registry.Ready) (offer : Except Fault Class) :
    (l.enroll offer).2.registry.Ready := by
  cases offer with
  | error fault => exact h
  | ok c => exact (Registry.call_right h (.register c)).2.1

theorem enroll_ids (h : l.registry.Ready) (offer : Except Fault Class) :
    (∃ fault, (l.enroll offer).1 = .error fault
        ∧ (l.enroll offer).2.registry.size = l.registry.size)
      ∨ ∃ id, (l.enroll offer).1 = .ok id ∧ id.toNat = l.registry.size
        ∧ (l.enroll offer).2.registry.size = l.registry.size + 1 := by
  cases offer with
  | error fault => exact .inl ⟨fault, rfl, rfl⟩
  | ok c =>
    rcases h.insert_cases c with ⟨⟨fault, hfail⟩, hclasses⟩ | ⟨id, hanswer, hid, hclasses⟩
    · exact .inl ⟨fault, hfail, congrArg Array.size hclasses⟩
    · exact .inr ⟨id, hanswer, hid, (congrArg Array.size hclasses).trans (Array.size_push _)⟩

/-- Ids are given one after the other, from the number of classes so far. -/
theorem enrollAll_ids : ∀ (offers : List (Except Fault Class)) {l : Loader}, l.registry.Ready →
    (ids (l.enrollAll offers).1).map UInt32.toNat
        = List.range' l.registry.size (ids (l.enrollAll offers).1).length
  | [], _, _ => rfl
  | offer :: rest, l, h => by
    have hrest := enrollAll_ids rest (Ready.enroll h offer)
    rw [enrollAll_cons]
    rcases enroll_ids h offer with ⟨fault, hanswer, hsize⟩ | ⟨id, hanswer, hid, hsize⟩ <;>
      rw [hsize] at hrest <;> rw [hanswer]
    · exact hrest
    · show id.toNat :: (ids _).map UInt32.toNat = List.range' l.registry.size ((ids _).length + 1)
      rw [hid, hrest, List.range'_succ]

end Ids

section Names

theorem enroll_succeeds_iff (h : l.registry.Ready) (offer : Except Fault Class) :
    (Attempt.mk offer l.registry (l.enroll offer).1).Succeeds ↔
      ∃ name, (Attempt.mk offer l.registry (l.enroll offer).1).Contends name
        ∧ ¬ l.registry.Registers name := by
  unfold Attempt.Succeeds Attempt.Contends Attempt.Names
  cases offer with
  | error fault => simp [enroll]
  | ok c => simpa [enroll, register, and_assoc] using h.insert_ok_iff c

theorem registers_enroll (h : l.registry.Ready) (offer : Except Fault Class) (name : String) :
    (l.enroll offer).2.registry.Registers name ↔ l.registry.Registers name
      ∨ (Attempt.mk offer l.registry (l.enroll offer).1).Contends name := by
  unfold Attempt.Contends Attempt.Names
  cases offer with
  | error fault => simp [enroll]
  | ok c => simpa [enroll, register, and_comm] using h.registers_insert c name

/-- When its turn comes, a name is taken if it was from the start or if someone has contended for
it, and otherwise who contends for it succeeds. -/
theorem attempts_split : ∀ (offers : List (Except Fault Class)) {l : Loader}, l.registry.Ready →
    ∀ {before : List Attempt} {step : Attempt} {after : List Attempt},
      l.attempts offers = before ++ step :: after →
      (step.Succeeds ↔ ∃ name, step.Contends name ∧ ¬ step.registry.Registers name)
        ∧ ∀ name, step.registry.Registers name ↔ l.registry.Registers name
          ∨ ∃ a ∈ before, a.Contends name
  | [], _, _, before, _, _, hsplit => by simp [attempts] at hsplit
  | offer :: rest, l, h, before, step, after, hsplit => by
    rw [attempts] at hsplit
    rcases before with _ | ⟨first, before⟩
    · rw [List.nil_append, List.cons.injEq] at hsplit
      obtain ⟨rfl, -⟩ := hsplit
      exact ⟨enroll_succeeds_iff h offer, by simp⟩
    · -- The first attempt passes from what follows the start to what comes before the step.
      rw [List.cons_append, List.cons.injEq] at hsplit
      obtain ⟨rfl, hsplit⟩ := hsplit
      obtain ⟨hstep, hnames⟩ := attempts_split rest (Ready.enroll h offer) hsplit
      refine ⟨hstep, fun name => ?_⟩
      rw [hnames name, registers_enroll h offer]
      simp [or_assoc]

end Names

section Life

variable {mapper : Mapper} {config : LoaderConfig}

theorem registry_of_new (h : Loader.new mapper config = .ok l) :
    Registry.new mapper config.sizing = .ok l.registry := by
  unfold new at h
  rcases hr : Registry.new mapper config.sizing with refusal | r <;> rw [hr] at h <;> cases h
  rfl

theorem ready_of_new (h : Loader.new mapper config = .ok l) (hm : mapper.Steady) :
    l.registry.Ready ∧ l.registry.classes = #[] :=
  Registry.ready_of_new (registry_of_new h) hm

theorem Ready.enrollAll : ∀ (offers : List (Except Fault Class)) {l : Loader}, l.registry.Ready →
    (l.enrollAll offers).2.registry.Ready
  | [], _, h => h
  | offer :: rest, _, h => Ready.enrollAll rest (Ready.enroll h offer)

theorem attempts_first (h : l.registry.Ready) (hempty : l.registry.classes = #[])
    {offers : List (Except Fault Class)} {before : List Attempt} {step : Attempt}
    {after : List Attempt} (hsplit : l.attempts offers = before ++ step :: after) :
    step.Succeeds ↔ ∃ name, step.Contends name ∧ ∀ a ∈ before, ¬ a.Contends name := by
  obtain ⟨hstep, hnames⟩ := attempts_split offers h hsplit
  have hnone : ∀ name, ¬ l.registry.Registers name := by
    rintro name ⟨d, hd, -⟩
    simp [hempty] at hd
  simp [hstep, hnames, hnone]

theorem attempts_once (h : l.registry.Ready) (hempty : l.registry.classes = #[])
    {offers : List (Except Fault Class)} {before : List Attempt} {step : Attempt}
    {after : List Attempt} (hsplit : l.attempts offers = before ++ step :: after) {name : String}
    (hname : step.Names name) (hok : step.Succeeds) :
    ∀ a ∈ before, a.Names name → ¬ a.Succeeds := by
  intro a ha haname haok
  obtain ⟨name', hcontends, hfirst⟩ := (attempts_first h hempty hsplit).1 hok
  obtain ⟨front, back, rfl⟩ := List.append_of_mem ha
  rw [List.append_assoc, List.cons_append] at hsplit
  obtain ⟨name'', hcontends', -⟩ := (attempts_first h hempty hsplit).1 haok
  have hsame := hname.unique hcontends.1
  have hsame' := haname.unique hcontends'.1
  exact hfirst a ha (hsame ▸ hsame' ▸ hcontends')

/-- Whatever a loader has been asked for so far, a batch of files comes out as the files would one
by one, with ids that follow one another; and of all that was ever offered to it, the first class of
a name to find room is registered, and no other one of that name. -/
theorem loadAll_in_turn (h : Loader.new mapper config = .ok l) (hm : mapper.Steady)
    (calls : List LoaderCall) :
    (∀ files, (l.run calls).2.loadAll files = (l.run calls).2.loadEach files
        ∧ (ids ((l.run calls).2.loadAll files).1).map UInt32.toNat
          = List.range' (l.run calls).2.registry.size
            (ids ((l.run calls).2.loadAll files).1).length)
      ∧ (l.run calls).1 = (l.attempts (l.offers calls)).map Attempt.answer
      ∧ ∀ before step after, l.attempts (l.offers calls) = before ++ step :: after →
        (step.Succeeds ↔ ∃ name, step.Contends name ∧ ∀ a ∈ before, ¬ a.Contends name)
          ∧ ∀ name, step.Names name → step.Succeeds → ∀ a ∈ before, a.Names name →
            ¬ a.Succeeds := by
  obtain ⟨hready, hempty⟩ := ready_of_new h hm
  have hrun : (l.run calls).2.registry.Ready := by
    rw [run_eq_enrollAll]
    exact Ready.enrollAll _ hready
  refine ⟨fun files => ⟨loadAll_eq_loadEach files _, enrollAll_ids _ hrun⟩, ?_, ?_⟩
  · rw [run_eq_enrollAll, enrollAll_fst]
  · intro before step after hsplit
    exact ⟨attempts_first hready hempty hsplit, fun name => attempts_once hready hempty hsplit⟩

/-- A class file with nothing but a name of one byte. -/
def bare (name : UInt8) : List UInt8 :=
  [0x24, 0x47, 0x4C, 0x52, 1, 1, 1, 3, 1, 0, 0, 0, name, 0, 0]

/-- Behind a class: no class, one that finds no room, and the first one again. -/
theorem loadAll_in_turn_scarce :
    ∃ l, Loader.new Registry.tight.mapper ⟨{}, ⟨1, 4, 95⟩⟩ = .ok l ∧ Registry.tight.mapper.Steady
      ∧ (l.run [.load (bare 0x41)]).1 = [.ok 0]
      ∧ ((l.run [.load (bare 0x41)]).2.loadEach [[], bare 0x42, bare 0x41]).1
        = [.error (.truncated 0 4 0), .error (.commitFailed 16 16 "no commits left"),
          .error (.duplicateClass "A")] := by
  have hm := Registry.tight.steady rfl
  obtain ⟨l, hnew, hrun, hbatch⟩ : ∃ l, Loader.new Registry.tight.mapper ⟨{}, ⟨1, 4, 95⟩⟩ = .ok l
      ∧ (l.run [.load (bare 0x41)]).1 = [.ok 0]
      ∧ ((l.run [.load (bare 0x41)]).2.loadAll [[], bare 0x42, bare 0x41]).1
        = [.error (.truncated 0 4 0), .error (.commitFailed 16 16 "no commits left"),
          .error (.duplicateClass "A")] :=
    ⟨_, rfl, by decide +kernel, by decide +kernel⟩
  have hturn := ((loadAll_in_turn hnew hm [.load (bare 0x41)]).1 [[], bare 0x42, bare 0x41]).1
  exact ⟨l, hnew, hm, hrun, hturn ▸ hbatch⟩

end Life

end Loader

end ClassLoading
