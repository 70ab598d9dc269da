import ClassLoading.Memory.Script
import ClassLoading.Proofs.Growth

/-!
# Arenas in use

Whatever is done with an arena, its committed bytes are whole pages inside the reservation, and all
bytes behind them are zero (`Arena.Tidy`). Growth adds zero bytes at the end and leaves the others
as they are (`Arena.Becomes`); whether it does is for the size that is asked for to decide, and for
the mapper where that size fits (`Arena.Answers`).

A growth that fails leaves no more than a mark in the history. So whatever comes later comes out as
if it had not been tried, as long as the mapper gives the same answers (`Arena.grows_after`).
-/

namespace ClassLoading

/-- What can be done with an arena. Bytes are written and read only where they are committed. -/
inductive ArenaCall where
  | grow (n : Nat)
  | write (offset : Nat) (bytes : List UInt8)
  | read (offset n : Nat)

inductive ArenaAnswer where
  | grown (result : Except Fault Span)
  | wrote (done : Bool)
  | read (bytes? : Option (List UInt8))
  deriving DecidableEq

namespace Arena

def call (a : Arena) : ArenaCall → ArenaAnswer × Arena
  | .grow n => (.grown (a.grow n).1, (a.grow n).2)
  | .write offset bytes => (.wrote (a.write? offset bytes).isSome, (a.write? offset bytes).getD a)
  | .read offset n => (.read (a.read? offset n), a)

/-- The arena after some calls. -/
def after (a : Arena) : List ArenaCall → Arena
  | [] => a
  | c :: rest => (a.call c).2.after rest

/-- How each of some calls is answered, one after the other. -/
def trace (a : Arena) : List ArenaCall → List ArenaAnswer
  | [] => []
  | c :: rest => (a.call c).1 :: (a.call c).2.trace rest

variable {a : Arena} {n : Nat}

section Growth

/-- Where the committed bytes end after growing. -/
def grownEnd (a : Arena) (n : Nat) : Nat :=
  a.committed + wholePages a.mapper.pageSize n

/-- Whether an arena can grow that far: the pages are inside its reservation, and no size on the way
is larger than a size can be. -/
structure Fits (a : Arena) (n : Nat) : Prop where
  rounds : n + (a.mapper.pageSize - 1) ≤ sizeLimit
  stop_le : a.grownEnd n ≤ sizeLimit
  reserved : a.grownEnd n ≤ a.reserved

theorem grownEnd?_eq_some_iff {stop : Nat} :
    a.grownEnd? n = some stop ↔ a.Fits n ∧ stop = a.grownEnd n := by
  unfold grownEnd?
  by_cases hround : n + (a.mapper.pageSize - 1) ≤ sizeLimit
  · rw [roundToPage_eq hround]
    simp only [Option.ite_none_right_eq_some, Option.some.injEq]
    constructor
    · rintro ⟨⟨hlimit, hreserved⟩, rfl⟩
      exact ⟨⟨hround, hlimit, hreserved⟩, rfl⟩
    · rintro ⟨hfits, rfl⟩
      exact ⟨⟨hfits.stop_le, hfits.reserved⟩, rfl⟩
  · rw [roundToPage, if_neg hround]
    simp only [reduceCtorEq, false_iff]
    exact fun h => hround h.1.rounds

theorem Fits.grownEnd? (h : a.Fits n) : a.grownEnd? n = some (a.grownEnd n) :=
  grownEnd?_eq_some_iff.2 ⟨h, rfl⟩

theorem grownEnd?_eq_none (h : ¬ a.Fits n) : a.grownEnd? n = none := by
  rw [Option.eq_none_iff_forall_not_mem]
  exact fun stop hstop => h (grownEnd?_eq_some_iff.1 hstop).1

/-- What the mapper answers to a growth by so many bytes, if it is asked. -/
def verdict (a : Arena) (n : Nat) : CommitAnswer :=
  a.answer (a.grownEnd n)

/-- Growing asks for nothing, fails for want of room, or asks the mapper for the pages that follow
the committed ones and goes by what it answers. -/
theorem grow_steps (a : Arena) (n : Nat) :
    (n = 0 ∧ a.grow n = (.ok ⟨a.committed, a.committed⟩, a))
      ∨ (n ≠ 0 ∧ ¬ a.Fits n ∧ a.grow n =
        (.error (.reservationExhausted (min (a.committed + n) sizeLimit) a.reserved), a))
      ∨ (n ≠ 0 ∧ a.Fits n ∧ a.verdict n = .granted
        ∧ a.grow n = (.ok ⟨a.committed, a.grownEnd n⟩, a.granted (a.grownEnd n)))
      ∨ (n ≠ 0 ∧ a.Fits n ∧ ∃ reason, a.verdict n = .refused reason ∧ a.grow n =
        (.error (.commitFailed (a.grownEnd n - a.committed) a.committed reason),
          a.denied (a.grownEnd n)))
      ∨ (n ≠ 0 ∧ a.Fits n ∧ a.verdict n = .crashed
        ∧ a.grow n = (.error .mapperCrashed, a.denied (a.grownEnd n))) := by
  by_cases hn : n = 0
  · subst hn
    exact .inl ⟨rfl, a.grow_zero⟩
  by_cases hfits : a.Fits n
  · have hgrow := a.grow_of_grownEnd n hn hfits.grownEnd?
    rcases hanswer : a.answer (a.grownEnd n) with _ | reason | _ <;> rw [hanswer] at hgrow
    · exact .inr (.inr (.inl ⟨hn, hfits, hanswer, hgrow⟩))
    · exact .inr (.inr (.inr (.inl ⟨hn, hfits, reason, hanswer, hgrow⟩)))
    · exact .inr (.inr (.inr (.inr ⟨hn, hfits, hanswer, hgrow⟩)))
  · exact .inr (.inl ⟨hn, hfits, a.grow_exhausted n hn (grownEnd?_eq_none hfits)⟩)

/-- A growth that fails leaves no more than a mark in the history. -/
theorem grow_failed {fault : Fault} (h : (a.grow n).1 = .error fault) :
    (a.grow n).2 = { a with history := (a.grow n).2.history } := by
  rcases a.grow_cases n with ⟨span, a', hgrow, -⟩ | ⟨fault', history, hgrow, -⟩ <;>
    rw [hgrow] at h ⊢
  cases h

theorem grow_range (a : Arena) (n : Nat) : (a.grow n).2.range = a.range := by
  rcases a.grow_cases n with ⟨span, a', hgrow, -, hrange⟩ | ⟨fault, history, hgrow, -⟩ <;>
    rw [hgrow]
  exact hrange

theorem grow_mapper (a : Arena) (n : Nat) : (a.grow n).2.mapper = a.mapper := by
  rcases a.grow_cases n with ⟨span, a', hgrow, hmap, -⟩ | ⟨fault, history, hgrow, -⟩ <;> rw [hgrow]
  exact hmap

end Growth

section Invariant

/-- Whole pages are committed, inside the reservation, and all bytes behind them are zero. -/
structure Tidy (a : Arena) : Prop where
  page_pos : 0 < a.mapper.pageSize
  page_le : a.mapper.pageSize - 1 ≤ sizeLimit
  whole : a.mapper.pageSize ∣ a.committed
  committed_le : a.committed ≤ a.reserved
  limit : a.committed ≤ sizeLimit
  blank : ∀ k, a.committed ≤ k → a.range.bytes.get k = 0

theorem tidy_of_reserve {mapper : Mapper} {size : Nat} (h : reserve mapper size = .ok a) :
    a.Tidy := by
  obtain ⟨hpage, hlimit, -⟩ := room_of_reserve h
  obtain ⟨rfl, hblank, hzero⟩ := fresh_of_reserve h
  refine ⟨hpage, by omega, ?_, by omega, by omega, fun k _ => ?_⟩
  · rw [hzero]
    exact Nat.dvd_zero _
  · rw [hblank, Store.get_blank]

theorem Tidy.history (h : a.Tidy) (history : History) : { a with history := history }.Tidy :=
  ⟨h.page_pos, h.page_le, h.whole, h.committed_le, h.limit, h.blank⟩

theorem Tidy.granted (h : a.Tidy) (hfits : a.Fits n) : (a.granted (a.grownEnd n)).Tidy := by
  refine ⟨h.page_pos, h.page_le, ?_, hfits.reserved, hfits.stop_le, fun k hk => ?_⟩
  · exact Nat.dvd_add h.whole (dvd_wholePages _ n)
  · exact h.blank k ((Nat.le_add_right _ _).trans hk)

theorem Tidy.grow (h : a.Tidy) (n : Nat) : (a.grow n).2.Tidy := by
  rcases a.grow_steps n with ⟨-, hgrow⟩ | ⟨-, -, hgrow⟩ | ⟨-, hfits, -, hgrow⟩ |
    ⟨-, -, reason, -, hgrow⟩ | ⟨-, -, -, hgrow⟩ <;> rw [hgrow]
  · exact h
  · exact h
  · exact h.granted hfits
  · exact h.history _
  · exact h.history _

theorem write?_eq_some_iff {offset : Nat} {bytes : List UInt8} {a' : Arena} :
    a.write? offset bytes = some a' ↔ offset + bytes.length ≤ a.committed
      ∧ a.setBytes (a.range.bytes.write offset bytes) = a' := by
  unfold write?
  rw [Option.ite_none_right_eq_some, Option.some.injEq]

theorem Tidy.write (h : a.Tidy) (offset : Nat) (bytes : List UInt8) :
    ((a.write? offset bytes).getD a).Tidy := by
  rcases hwrite : a.write? offset bytes with _ | a'
  · exact h
  obtain ⟨hwithin, rfl⟩ := write?_eq_some_iff.1 hwrite
  refine ⟨h.page_pos, h.page_le, h.whole, h.committed_le, h.limit, fun k hk => ?_⟩
  have hbehind : ¬ (offset ≤ k ∧ k < offset + bytes.length) := by
    have : a.committed ≤ k := hk
    omega
  exact (Store.get_write _ _ _ _).trans ((if_neg hbehind).trans (h.blank k hk))

theorem Tidy.call (h : a.Tidy) (c : ArenaCall) : (a.call c).2.Tidy := by
  cases c with
  | grow n => exact h.grow n
  | write offset bytes => exact h.write offset bytes
  | read offset n => exact h

theorem Tidy.after : ∀ (calls : List ArenaCall) {a : Arena}, a.Tidy → (a.after calls).Tidy
  | [], _, h => h
  | c :: rest, _, h => Tidy.after rest (h.call c)

theorem call_keeps (a : Arena) (c : ArenaCall) :
    (a.call c).2.mapper = a.mapper ∧ (a.call c).2.range.toExtent = a.range.toExtent := by
  cases c with
  | grow n => exact ⟨a.grow_mapper n, congrArg PageRange.toExtent (a.grow_range n)⟩
  | write offset bytes =>
    simp only [call]
    rcases hwrite : a.write? offset bytes with _ | a'
    · exact ⟨rfl, rfl⟩
    · obtain ⟨-, rfl⟩ := write?_eq_some_iff.1 hwrite
      exact ⟨rfl, rfl⟩
  | read offset n => exact ⟨rfl, rfl⟩

theorem after_keeps : ∀ (calls : List ArenaCall) (a : Arena),
    (a.after calls).mapper = a.mapper ∧ (a.after calls).range.toExtent = a.range.toExtent
  | [], _ => ⟨rfl, rfl⟩
  | c :: rest, a => by
    obtain ⟨hmapper, hextent⟩ := a.call_keeps c
    obtain ⟨hmapper', hextent'⟩ := after_keeps rest (a.call c).2
    exact ⟨hmapper'.trans hmapper, hextent'.trans hextent⟩

end Invariant

section Outcome

/-- How a growth is answered: one of four answers, each in its own case. -/
structure Answers (a : Arena) (n : Nat) (result : Except Fault Span) : Prop where
  granted : ∀ span, result = .ok span ↔
    (n = 0 ∨ a.Fits n ∧ a.verdict n = .granted) ∧ span = ⟨a.committed, a.grownEnd n⟩
  exhausted : ∀ requested reserved, result = .error (.reservationExhausted requested reserved) ↔
    ¬ a.Fits n ∧ requested = min (a.committed + n) sizeLimit ∧ reserved = a.reserved
  refused : ∀ size offset reason, result = .error (.commitFailed size offset reason) ↔
    size = wholePages a.mapper.pageSize n ∧ offset = a.committed
      ∧ n ≠ 0 ∧ a.Fits n ∧ a.verdict n = .refused reason
  crashed : result = .error .mapperCrashed ↔ n ≠ 0 ∧ a.Fits n ∧ a.verdict n = .crashed
  only : ∀ fault, result = .error fault → fault = .mapperCrashed
    ∨ (∃ requested reserved, fault = .reservationExhausted requested reserved)
    ∨ ∃ size offset reason, fault = .commitFailed size offset reason

/-- What a growth makes of an arena, and what it asks the mapper for. -/
structure Becomes (a : Arena) (n : Nat) (result : Except Fault Span) (a' : Arena) : Prop where
  unasked : n = 0 ∨ ¬ a.Fits n → a' = a
  asked : n ≠ 0 → a.Fits n → ∃ granted, (granted = true ↔ a.verdict n = .granted) ∧ a'.history
    = .committed a.committed (wholePages a.mapper.pageSize n) granted :: a.history
  added : ∀ span, result = .ok span → a'.committed = span.stop
    ∧ a'.read? span.start (span.stop - span.start)
      = some (List.replicate (span.stop - span.start) 0)
  kept : ∀ offset m, offset + m ≤ a.committed → a'.read? offset m = a.read? offset m
  failed : ∀ fault, result = .error fault → a'.committed = a.committed ∧ a'.range = a.range

theorem grownEnd_sub (a : Arena) (n : Nat) :
    a.grownEnd n - a.committed = wholePages a.mapper.pageSize n :=
  Nat.add_sub_cancel_left _ _

theorem Tidy.grownEnd_zero (h : a.Tidy) : a.grownEnd 0 = a.committed := by
  rw [grownEnd, wholePages_zero h.page_pos, Nat.add_zero]

theorem Tidy.fits_zero (h : a.Tidy) : a.Fits 0 := by
  refine ⟨?_, ?_, ?_⟩
  · rw [Nat.zero_add]
    exact h.page_le
  · rw [h.grownEnd_zero]
    exact h.limit
  · rw [h.grownEnd_zero]
    exact h.committed_le

theorem Tidy.grow_committed (h : a.Tidy) {span : Span} (hok : (a.grow n).1 = .ok span) :
    span = ⟨a.committed, a.grownEnd n⟩ ∧ (a.grow n).2.committed = a.grownEnd n := by
  rcases a.grow_steps n with ⟨rfl, hgrow⟩ | ⟨-, -, hgrow⟩ | ⟨-, -, -, hgrow⟩ |
    ⟨-, -, reason, -, hgrow⟩ | ⟨-, -, -, hgrow⟩ <;> rw [hgrow] at hok ⊢ <;> cases hok
  · rw [h.grownEnd_zero]
    exact ⟨rfl, rfl⟩
  · exact ⟨rfl, rfl⟩

theorem Tidy.read?_blank (h : a.Tidy) {a' : Arena} (hrange : a'.range = a.range) {start m : Nat}
    (hstart : a.committed ≤ start) (hstop : start + m ≤ a'.committed) :
    a'.read? start m = some (List.replicate m 0) := by
  unfold read?
  rw [if_pos hstop, hrange, Option.some.injEq, List.eq_replicate_iff]
  refine ⟨Store.length_read _ _ _, fun b hb => ?_⟩
  obtain ⟨k, -, rfl⟩ := List.mem_map.1 hb
  exact h.blank _ (hstart.trans (Nat.le_add_right _ _))

theorem read?_kept {a' : Arena} (hrange : a'.range = a.range) (hle : a.committed ≤ a'.committed)
    {offset m : Nat} (h : offset + m ≤ a.committed) : a'.read? offset m = a.read? offset m := by
  unfold read?
  rw [if_pos h, if_pos (h.trans hle), hrange]

theorem committed_le_grow (a : Arena) (n : Nat) : a.committed ≤ (a.grow n).2.committed := by
  rcases a.grow_steps n with ⟨-, hgrow⟩ | ⟨-, -, hgrow⟩ | ⟨-, -, -, hgrow⟩ |
    ⟨-, -, reason, -, hgrow⟩ | ⟨-, -, -, hgrow⟩ <;> rw [hgrow]
  · exact Nat.le_add_right _ _
  · exact le_rfl
  · exact le_rfl

theorem Tidy.answers (h : a.Tidy) (n : Nat) : a.Answers n (a.grow n).1 := by
  have hsub := a.grownEnd_sub n
  rcases a.grow_steps n with ⟨rfl, hgrow⟩ | ⟨hn, hfits, hgrow⟩ | ⟨hn, hfits, hverdict, hgrow⟩ |
    ⟨hn, hfits, reason, hverdict, hgrow⟩ | ⟨hn, hfits, hverdict, hgrow⟩ <;> rw [hgrow]
  · constructor <;> simp [h.grownEnd_zero, h.fits_zero, eq_comm]
  · constructor <;> simp [hn, hfits, eq_comm]
  · constructor <;> simp [hn, hfits, hverdict, eq_comm]
  · constructor <;> simp [hn, hfits, hverdict, hsub, eq_comm]
  · constructor <;> simp [hn, hfits, hverdict]

theorem Tidy.becomes (h : a.Tidy) (n : Nat) : a.Becomes n (a.grow n).1 (a.grow n).2 := by
  have hrange := a.grow_range n
  refine ⟨fun hnone => ?_, fun hn hfits => ?_, fun span hok => ?_,
    fun offset m => read?_kept hrange (a.committed_le_grow n),
    fun fault hfault => ⟨by rw [grow_failed hfault], hrange⟩⟩
  · rcases a.grow_steps n with ⟨-, hgrow⟩ | ⟨-, -, hgrow⟩ | ⟨hn, hfits, -⟩ | ⟨hn, hfits, -⟩ |
      ⟨hn, hfits, -⟩
    · rw [hgrow]
    · rw [hgrow]
    all_goals exact absurd hnone (by simp [hn, hfits])
  · rw [← a.grownEnd_sub n]
    rcases a.grow_steps n with ⟨rfl, -⟩ | ⟨-, hnone, -⟩ | ⟨-, -, hverdict, hgrow⟩ |
      ⟨-, -, reason, hverdict, hgrow⟩ | ⟨-, -, hverdict, hgrow⟩
    · exact absurd rfl hn
    · exact absurd hfits hnone
    · exact ⟨true, by simp [hverdict], by rw [hgrow]; rfl⟩
    · exact ⟨false, by simp [hverdict], by rw [hgrow]; rfl⟩
    · exact ⟨false, by simp [hverdict], by rw [hgrow]; rfl⟩
  · obtain ⟨rfl, hcommitted⟩ := h.grow_committed hok
    refine ⟨hcommitted, h.read?_blank hrange le_rfl ?_⟩
    rw [hcommitted]
    exact (Nat.add_sub_cancel' (Nat.le_add_right _ _)).le

end Outcome

section Failures

/-- The same arena, with another history perhaps. -/
structure Alike (a b : Arena) : Prop where
  mapper : b.mapper = a.mapper
  range : b.range = a.range
  committed : b.committed = a.committed

/-- What the mapper answers in a call, if it is asked. -/
def commitAnswer? (a : Arena) : ArenaCall → Option CommitAnswer
  | .grow n => if n = 0 then none else (a.grownEnd? n).map a.answer
  | .write _ _ => none
  | .read _ _ => none

/-- What the mapper answers in some calls, one after the other. -/
def commitAnswers (a : Arena) : List ArenaCall → List CommitAnswer
  | [] => []
  | c :: rest => (a.commitAnswer? c).toList ++ (a.call c).2.commitAnswers rest

variable {b : Arena}

theorem alike_of_failed {fault : Fault} (h : (a.grow n).1 = .error fault) :
    a.Alike (a.grow n).2 := by
  rw [grow_failed h]
  exact ⟨rfl, rfl, rfl⟩

theorem Alike.grownEnd? (h : a.Alike b) (n : Nat) : b.grownEnd? n = a.grownEnd? n := by
  unfold Arena.grownEnd? reserved
  rw [h.mapper, h.range, h.committed]

/-- Whether the mapper is asked does not depend on the history. -/
theorem Alike.length_commitAnswer? (h : a.Alike b) (c : ArenaCall) :
    (b.commitAnswer? c).toList.length = (a.commitAnswer? c).toList.length := by
  cases c with
  | grow n =>
    simp only [commitAnswer?, h.grownEnd? n]
    split_ifs
    · rfl
    · cases a.grownEnd? n <;> rfl
  | write offset bytes => rfl
  | read offset n => rfl

theorem Alike.grow (h : a.Alike b) {n : Nat}
    (hanswer : b.commitAnswer? (.grow n) = a.commitAnswer? (.grow n)) :
    (b.grow n).1 = (a.grow n).1 ∧ (a.grow n).2.Alike (b.grow n).2 := by
  have hreserved : b.reserved = a.reserved := congrArg (fun range => range.length) h.range
  by_cases hn : n = 0
  · subst hn
    rw [a.grow_zero, b.grow_zero, h.committed]
    exact ⟨rfl, h⟩
  simp only [commitAnswer?, if_neg hn, h.grownEnd? n] at hanswer
  rcases hend : a.grownEnd? n with _ | stop
  · rw [a.grow_exhausted n hn hend, b.grow_exhausted n hn ((h.grownEnd? n).trans hend), h.committed,
      hreserved]
    exact ⟨rfl, h⟩
  · rw [hend, Option.map_some, Option.map_some, Option.some.injEq] at hanswer
    rw [a.grow_of_grownEnd n hn hend, b.grow_of_grownEnd n hn ((h.grownEnd? n).trans hend), hanswer,
      h.committed]
    rcases a.answer stop with _ | reason | _
    · exact ⟨rfl, h.mapper, h.range, rfl⟩
    · exact ⟨rfl, h.mapper, h.range, h.committed⟩
    · exact ⟨rfl, h.mapper, h.range, h.committed⟩

theorem Alike.call (h : a.Alike b) {c : ArenaCall}
    (hanswer : b.commitAnswer? c = a.commitAnswer? c) :
    (b.call c).1 = (a.call c).1 ∧ (a.call c).2.Alike (b.call c).2 := by
  cases c with
  | grow n =>
    obtain ⟨hresult, halike⟩ := h.grow hanswer
    exact ⟨congrArg ArenaAnswer.grown hresult, halike⟩
  | write offset bytes =>
    simp only [Arena.call, write?, h.committed]
    split_ifs
    · exact ⟨rfl, h.mapper, by simp only [Option.getD_some, setBytes, h.range], h.committed⟩
    · exact ⟨rfl, h⟩
  | read offset n =>
    simp only [Arena.call, read?, h.committed, h.range]
    exact ⟨trivial, h⟩

/-- As long as the mapper answers alike, arenas that differ in their histories alone go on alike. -/
theorem Alike.run : ∀ (calls : List ArenaCall) {a b : Arena}, a.Alike b →
    b.commitAnswers calls = a.commitAnswers calls →
    b.trace calls = a.trace calls ∧ (a.after calls).Alike (b.after calls)
  | [], _, _, h, _ => ⟨rfl, h⟩
  | c :: rest, a, b, h, hanswers => by
    -- Both ask the mapper in the same calls, so the answers can be told apart call by call.
    obtain ⟨hanswer, hrest⟩ := List.append_inj hanswers (h.length_commitAnswer? c)
    have hsame : b.commitAnswer? c = a.commitAnswer? c := by
      rw [← Option.head?_toList (o := b.commitAnswer? c), hanswer, Option.head?_toList]
    obtain ⟨hcall, halike⟩ := h.call hsame
    obtain ⟨htrace, hafter⟩ := Alike.run rest halike hrest
    exact ⟨by rw [trace, trace, hcall, htrace], hafter⟩

end Failures

/-- After any calls, granted or refused, an arena has committed whole pages inside its reservation;
growing comes out as the bytes asked for and the mapper's answer say; and a growth that fails makes
no difference to what comes later, if it makes none to the mapper's answers. -/
theorem grows_after {mapper : Mapper} {size : Nat} (h : reserve mapper size = .ok a)
    (calls : List ArenaCall) :
    mapper.pageSize ∣ (a.after calls).committed
      ∧ (a.after calls).committed ≤ (a.after calls).reserved
      ∧ (a.after calls).reserved = a.reserved
      ∧ (a.after calls).grow 0
        = (.ok ⟨(a.after calls).committed, (a.after calls).committed⟩, a.after calls)
      ∧ ∀ n, (a.after calls).Answers n ((a.after calls).grow n).1
        ∧ (a.after calls).Becomes n ((a.after calls).grow n).1 ((a.after calls).grow n).2
        ∧ ∀ fault, ((a.after calls).grow n).1 = .error fault → ∀ later,
          ((a.after calls).grow n).2.commitAnswers later = (a.after calls).commitAnswers later →
          ((a.after calls).grow n).2.trace later = (a.after calls).trace later
            ∧ ((a.after calls).after later).Alike (((a.after calls).grow n).2.after later) := by
  obtain ⟨hmapper, hextent⟩ := after_keeps calls a
  have htidy := Tidy.after calls (tidy_of_reserve h)
  have hwhole := htidy.whole
  rw [hmapper, (fresh_of_reserve h).1] at hwhole
  refine ⟨hwhole, htidy.committed_le, congrArg Extent.length hextent, grow_zero _, fun n =>
    ⟨htidy.answers n, htidy.becomes n, fun fault hfault later hanswers => ?_⟩⟩
  exact Alike.run later (alike_of_failed hfault) hanswers

/-- Behind one page that has been written to, two more are refused; then the byte is still there,
and so it is for an arena that has not asked for them. -/
theorem grows_after_refused :
    ∃ a, reserve Table.scant.mapper 64 = .ok a
      ∧ ((a.after [.grow 5, .write 3 [7]]).grow 20).1
        = .error (.commitFailed 32 16 "no commits left")
      ∧ ((a.after [.grow 5, .write 3 [7]]).grow 20).2.trace [.read 0 4, .grow 1]
        = (a.after [.grow 5, .write 3 [7]]).trace [.read 0 4, .grow 1]
      ∧ (a.after [.grow 5, .write 3 [7]]).trace [.read 0 4, .grow 1]
        = [.read (some [0, 0, 0, 7]), .grown (.error (.commitFailed 16 16 "no commits left"))] := by
  obtain ⟨a, hreserve, hrefused, hanswers, htrace⟩ :
      ∃ a, reserve Table.scant.mapper 64 = .ok a
        ∧ ((a.after [.grow 5, .write 3 [7]]).grow 20).1
          = .error (.commitFailed 32 16 "no commits left")
        ∧ ((a.after [.grow 5, .write 3 [7]]).grow 20).2.commitAnswers [.read 0 4, .grow 1]
          = (a.after [.grow 5, .write 3 [7]]).commitAnswers [.read 0 4, .grow 1]
        ∧ (a.after [.grow 5, .write 3 [7]]).trace [.read 0 4, .grow 1]
          = [.read (some [0, 0, 0, 7]), .grown (.error (.commitFailed 16 16 "no commits left"))] :=
    ⟨_, rfl, by decide +kernel, by decide +kernel, by decide +kernel⟩
  obtain ⟨-, -, -, -, hgrows⟩ := grows_after hreserve [.grow 5, .write 3 [7]]
  exact ⟨a, hreserve, hrefused, ((hgrows 20).2.2 _ hrefused _ hanswers).1, htrace⟩

end Arena

end ClassLoading
