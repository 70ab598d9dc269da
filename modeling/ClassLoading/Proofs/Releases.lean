import ClassLoading.Proofs.ArenaRuns
import ClassLoading.Proofs.Batches
import ClassLoading.Proofs.Commits
import ClassLoading.Proofs.Freezing

/-!
# Ranges handed back

The life of an arena, a table, a registry or a loader goes from the attempt to make it, through
whatever is asked of it, until it is released. A mapper is asked for one range at most in it, and
what it hands out is handed back once (`lives_settled`), also where the range turns out to be of no
use or the first pages are not granted.

The exception is a range that is shorter than it was asked for: `Arena.reserve` refuses it before
there is an arena to answer for it, and so nobody hands it back (`Arena.life_short`).
-/

namespace ClassLoading

namespace History

/-- The sizes asked for and the ranges handed out for them, in order. -/
def grants (h : History) : List (Nat × Extent) :=
  h.reverse.filterMap fun
    | .reserved size (some extent) => some (size, extent)
    | _ => none

/-- The ranges handed out that are as long as they were asked for. -/
def usable (h : History) : List Extent :=
  (h.grants.filter fun (size, extent) => size ≤ extent.length).map Prod.snd

/-- At the end of a life: one range has been asked for at most, each range that was long enough has
been handed back once, and these are all of the ranges just where none was too short. -/
structure Settled (h : History) : Prop where
  single : h.reservations.length ≤ 1
  releases : h.releases = h.usable
  balanced : h.releases = h.grants.map Prod.snd ↔
    ∀ size extent, (size, extent) ∈ h.grants → size ≤ extent.length

/-- Nothing has been reserved or released in between. -/
structure SameRanges (past h : History) : Prop where
  reservations : h.reservations = past.reservations
  grants : h.grants = past.grants
  releases : h.releases = past.releases

variable {past h : History}

theorem SameRanges.refl (h : History) : h.SameRanges h :=
  ⟨rfl, rfl, rfl⟩

theorem SameRanges.trans {h' : History} (hh : past.SameRanges h) (hh' : h.SameRanges h') :
    past.SameRanges h' :=
  ⟨hh'.reservations.trans hh.reservations, hh'.grants.trans hh.grants,
    hh'.releases.trans hh.releases⟩

theorem sameRanges_committed (past : History) (offset size : Nat) (granted : Bool) :
    past.SameRanges (.committed offset size granted :: past) :=
  ⟨reservations_cons _ _ _ _, by simp [grants], by simp [releases]⟩

theorem settled_of (hsingle : h.reservations.length ≤ 1) (hreleases : h.releases = h.usable) :
    h.Settled := by
  refine ⟨hsingle, hreleases, ?_⟩
  rw [hreleases]
  constructor
  · -- A filter that keeps the length has kept everything.
    intro hall size extent hmem
    have hlength := congrArg List.length hall
    rw [usable, List.length_map, List.length_map, List.length_filter_eq_length_iff] at hlength
    simpa using hlength _ hmem
  · intro hall
    rw [usable, List.filter_eq_self.2]
    rintro ⟨size, extent⟩ hmem
    simpa using hall size extent hmem

theorem settled_nil : Settled [] :=
  settled_of (Nat.zero_le 1) rfl

end History

section Life

variable {α : Type}

/-- All that has passed with the mapper once everything is over: where something was made, after it
has been used and released. -/
def lifetime (made : Except Refusal α) (ending : α → History) : History :=
  match made with
  | .error refusal => refusal.history
  | .ok x => ending x

theorem lifetime_settled {made : Except Refusal α} {ending : α → History}
    (hrefused : ∀ refusal, made = .error refusal → refusal.history.Settled)
    (hmade : ∀ x, made = .ok x → (ending x).Settled) : (lifetime made ending).Settled := by
  rcases made with refusal | x
  · exact hrefused _ rfl
  · exact hmade _ rfl

def Arena.life (mapper : Mapper) (size : Nat) (calls : List ArenaCall) : History :=
  lifetime (Arena.reserve mapper size) fun a => (a.after calls).release

def Table.life (mapper : Mapper) (sizing : Sizing) (calls : List TableCall) : History :=
  lifetime (Table.new mapper sizing) fun t => (t.after calls).arena.release

def Registry.life (mapper : Mapper) (sizing : Sizing) (calls : List RegistryCall) : History :=
  lifetime (Registry.new mapper sizing) fun r => (r.after calls).release

def Loader.life (mapper : Mapper) (config : LoaderConfig) (calls : List LoaderCall) : History :=
  lifetime (Loader.new mapper config) fun l => (l.run calls).2.registry.release

end Life

namespace Arena

variable {a : Arena}

/-- An arena that has its range, and so far nothing has been handed back. -/
structure Holds (a : Arena) : Prop where
  granted : ∃ size, a.history.reservations = [size] ∧ a.history.grants = [(size, a.range.toExtent)]
    ∧ size ≤ a.reserved
  releases : a.history.releases = []

theorem Holds.of_sameRanges (h : a.Holds) {a' : Arena}
    (hextent : a'.range.toExtent = a.range.toExtent)
    (hhistory : a.history.SameRanges a'.history) : a'.Holds := by
  have hreserved : a'.reserved = a.reserved := congrArg Extent.length hextent
  constructor
  · rw [hhistory.reservations, hhistory.grants, hextent, hreserved]
    exact h.granted
  · rw [hhistory.releases]
    exact h.releases

theorem Holds.release (h : a.Holds) : a.release.Settled := by
  obtain ⟨⟨size, hreservations, hgrants, hle⟩, hreleases⟩ := h
  have hle' : size ≤ a.range.length := hle
  have hgrants' : a.release.grants = a.history.grants := by
    simp [Arena.release, Mapper.release, History.grants]
  refine History.settled_of ?_ ?_
  · have : a.release.reservations = a.history.reservations := by
      simp [Arena.release, Mapper.release, History.reservations]
    rw [this, hreservations]
    exact le_rfl
  · have : a.release.releases = a.history.releases ++ [a.range.toExtent] := by
      simp [Arena.release, Mapper.release, History.releases]
    rw [this, hreleases, History.usable, hgrants', hgrants]
    simp [hle']

/-- Of the three ways to fail, one has a range that nobody hands back: it is too short. -/
theorem settled_of_reserve {mapper : Mapper} {size : Nat} {refusal : Refusal}
    (h : reserve mapper size = .error refusal) : refusal.history.Settled := by
  rcases reserve_cases mapper size with ⟨_, _, hreserve⟩ |
    ⟨_, -, -, ⟨_, _, hreserve⟩ | ⟨extent, hshort, hreserve⟩ | ⟨_, -, hreserve⟩⟩ <;>
      rw [hreserve] at h <;> cases h
  · exact History.settled_nil
  · exact History.settled_of le_rfl rfl
  · refine History.settled_of le_rfl ?_
    simp [History.releases, History.usable, History.grants, hshort]

theorem holds_of_reserve {mapper : Mapper} {size : Nat} (h : reserve mapper size = .ok a) :
    a.Holds := by
  obtain ⟨rounded, extent, -, -, hlong, rfl⟩ := exists_of_reserve h
  exact ⟨⟨rounded, rfl, rfl, hlong⟩, rfl⟩

theorem grow_history (a : Arena) (n : Nat) : a.history.SameRanges (a.grow n).2.history := by
  rcases a.grow_steps n with ⟨-, hgrow⟩ | ⟨-, -, hgrow⟩ | ⟨-, -, -, hgrow⟩ |
    ⟨-, -, reason, -, hgrow⟩ | ⟨-, -, -, hgrow⟩ <;> rw [hgrow]
  · exact .refl _
  · exact .refl _
  · exact History.sameRanges_committed _ _ _ _
  · exact History.sameRanges_committed _ _ _ _
  · exact History.sameRanges_committed _ _ _ _

theorem Holds.grow (h : a.Holds) (n : Nat) : (a.grow n).2.Holds :=
  h.of_sameRanges (a.call_keeps (.grow n)).2 (a.grow_history n)

theorem call_history (a : Arena) (c : ArenaCall) : a.history.SameRanges (a.call c).2.history := by
  cases c with
  | grow n => exact a.grow_history n
  | write offset bytes =>
    show a.history.SameRanges ((a.write? offset bytes).getD a).history
    rcases hwrite : a.write? offset bytes with _ | a'
    · exact .refl _
    · obtain ⟨-, rfl⟩ := write?_eq_some_iff.1 hwrite
      exact .refl _
  | read offset n => exact .refl _

theorem Holds.after : ∀ (calls : List ArenaCall) {a : Arena}, a.Holds → (a.after calls).Holds
  | [], _, h => h
  | c :: rest, a, h => Holds.after rest (h.of_sameRanges (a.call_keeps c).2 (a.call_history c))

end Arena

namespace Table

variable {t : Table} {mapper : Mapper} {sizing : Sizing}

theorem settled_of_new {refusal : Refusal} (h : Table.new mapper sizing = .error refusal) :
    refusal.history.Settled := by
  rcases refusal_cases h with ⟨fault, -, rfl⟩ | ⟨-, hreserve | ⟨arena, hreserve, hof⟩⟩
  · exact History.settled_nil
  · exact Arena.settled_of_reserve hreserve
  have hholds := Arena.holds_of_reserve hreserve
  rcases hof with rfl | ⟨fault, arena', hgrow, rfl⟩
  · exact hholds.release
  · have hgrown := hholds.grow (sizing.initialSlots * slotSize)
    rw [hgrow] at hgrown
    exact hgrown.release

theorem holds_of_new (h : Table.new mapper sizing = .ok t) : t.arena.Holds := by
  obtain ⟨-, arena, arena', span, hreserve, hgrow, rfl⟩ := exists_of_new h
  have hgrown := (Arena.holds_of_reserve hreserve).grow (sizing.initialSlots * slotSize)
  rw [hgrow] at hgrown
  exact hgrown

theorem commitDouble_history (t : Table) :
    t.arena.history.SameRanges t.commitDouble.2.arena.history := by
  unfold commitDouble
  simp only
  split_ifs
  · exact .refl _
  · have hgrow := t.arena.grow_history (2 * t.slots * slotSize - t.arena.committed)
    rcases h : t.arena.grow _ with ⟨fault | span, arena⟩ <;> rw [h] at hgrow <;> exact hgrow

theorem call_history (t : Table) (c : TableCall) :
    t.arena.history.SameRanges (t.call c).2.arena.history := by
  cases c with
  | makeRoom =>
    show t.arena.history.SameRanges t.makeRoom.2.arena.history
    rw [makeRoom_snd]
    split_ifs
    · rw [t.grow_arena.1]
      exact t.commitDouble_history
    · exact .refl _
  | insert hash id =>
    show t.arena.history.SameRanges (t.insert hash id).2.arena.history
    rw [(t.insert_arena hash id).1]
    exact .refl _

theorem history_after : ∀ (calls : List TableCall) (t : Table),
    t.arena.history.SameRanges (t.after calls).arena.history
  | [], _ => .refl _
  | c :: rest, t => (t.call_history c).trans (history_after rest _)

theorem holds_after (h : Table.new mapper sizing = .ok t) (calls : List TableCall) :
    (t.after calls).arena.Holds :=
  (holds_of_new h).of_sameRanges (keeps_after calls t).extent (history_after calls t)

end Table

namespace Registry

variable {r : Registry} {mapper : Mapper} {sizing : Sizing}

theorem settled_of_new {refusal : Refusal} (h : Registry.new mapper sizing = .error refusal) :
    refusal.history.Settled := by
  unfold new at h
  rcases ht : Table.new mapper sizing with refusal' | t <;> rw [ht] at h <;> cases h
  exact Table.settled_of_new ht

theorem Reachable.release (h : Reachable mapper sizing r) : r.release.Settled := by
  obtain ⟨t, calls, hnew, htable⟩ := h.exists_after
  unfold Registry.release
  rw [htable]
  exact (Table.holds_after hnew calls).release

end Registry

namespace Loader

variable {mapper : Mapper} {config : LoaderConfig}

theorem settled_of_new {refusal : Refusal} (h : Loader.new mapper config = .error refusal) :
    refusal.history.Settled := by
  unfold new at h
  rcases hr : Registry.new mapper config.sizing with refusal' | r <;> rw [hr] at h <;> cases h
  exact Registry.settled_of_new hr

/-- A loader makes of its registry what calls on the registry would. -/
theorem reachable_enrollAll {sizing : Sizing} : ∀ (offers : List (Except Fault Class)) {l : Loader},
    Registry.Reachable mapper sizing l.registry →
      Registry.Reachable mapper sizing (l.enrollAll offers).2.registry
  | [], _, h => h
  | .error _ :: rest, _, h => reachable_enrollAll rest h
  | .ok c :: rest, _, h => reachable_enrollAll rest (h.call (.register c))

end Loader

/-- Whatever a mapper does in the life of an arena, a table, a registry or a loader, each range that
it hands out is handed back once in the end, unless it is shorter than it was asked for. -/
theorem lives_settled (mapper : Mapper) :
    (∀ size calls, (Arena.life mapper size calls).Settled)
      ∧ (∀ sizing calls, (Table.life mapper sizing calls).Settled)
      ∧ (∀ sizing calls, (Registry.life mapper sizing calls).Settled)
      ∧ ∀ config calls, (Loader.life mapper config calls).Settled := by
  refine ⟨fun size calls => ?_, fun sizing calls => ?_, fun sizing calls => ?_,
    fun config calls => ?_⟩
  · exact lifetime_settled (fun _ => Arena.settled_of_reserve)
      fun a h => (Arena.Holds.after calls (Arena.holds_of_reserve h)).release
  · exact lifetime_settled (fun _ => Table.settled_of_new)
      fun t h => (Table.holds_after h calls).release
  · exact lifetime_settled (fun _ => Registry.settled_of_new)
      fun r h => (Registry.Reachable.after calls (.new h)).release
  · refine lifetime_settled (fun _ => Loader.settled_of_new) fun l h => ?_
    rw [Loader.run_eq_enrollAll]
    exact (Loader.reachable_enrollAll _ (.new (Loader.registry_of_new h))).release

/-- Ranges that are one byte too short. -/
def stingy : MapperScript where
  pageSize := 16
  reserve := .short

/-- A range that is one byte too short is handed out and never handed back. -/
theorem Arena.life_short :
    (Arena.life stingy.mapper 100 [.grow 1]).grants.map Prod.snd = [⟨4096, 111⟩]
      ∧ (Arena.life stingy.mapper 100 [.grow 1]).releases = [] := by
  decide +kernel

end ClassLoading
