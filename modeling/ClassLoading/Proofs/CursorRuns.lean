import ClassLoading.Proofs.CheckedArithmetic
import ClassLoading.Proofs.Prefixes
import ClassLoading.Proofs.Streams

/-!
# Cursors in use

A cursor that begins at the start of a buffer stays inside it, whatever is read and whatever fails.
A read of a fixed width takes just these bytes or leaves the cursor where it stands; one of a number of
variable length may stop in the middle (`CursorCall.Moves`). No position leaves the range of sizes
and no byte past the end is looked at (`Cursor.bounded_after`).
-/

namespace ClassLoading

/-- A read of a value or of a number of bytes. -/
inductive CursorCall where
  | value (shape : StreamValue.Shape)
  | bytes (count : Nat)

inductive CursorAnswer where
  | value (value : StreamValue)
  | bytes (bytes : List UInt8)

/-- The bytes that spell an answer. -/
def CursorAnswer.spelled : CursorAnswer → List UInt8
  | value v => v.encode
  | bytes taken => taken

namespace CursorCall

def run : CursorCall → Reader CursorAnswer
  | value shape => .value <$> StreamValue.read shape
  | bytes count => .bytes <$> Reader.take count

/-- How many bytes a call takes, unless that depends on what they are. -/
def width? : CursorCall → Option Nat
  | value (.scalar type) => some type.width
  | value .varint => none
  | bytes count => some count

/-- What may come of a call at a position of a buffer. -/
inductive Moves (buffer : List UInt8) (pos : Nat) :
    CursorCall → EStateM.Result Fault Cursor CursorAnswer → Prop
  | taken {call : CursorCall} {width : Nat} {answer : CursorAnswer} : call.width? = some width →
    pos + width ≤ buffer.length → answer.spelled = (buffer.drop pos).take width →
    Moves buffer pos call (.ok answer (Cursor.atOffset buffer (pos + width)))
  | short {call : CursorCall} {width : Nat} : call.width? = some width →
    buffer.length - pos < width →
    Moves buffer pos call
      (.error (.truncated pos width (buffer.length - pos)) (Cursor.atOffset buffer pos))
  | number {value : UInt32} {width : Nat} : 1 ≤ width → width ≤ 5 → pos + width ≤ buffer.length →
    Moves buffer pos (.value .varint)
      (.ok (.value (.varint value)) (Cursor.atOffset buffer (pos + width)))
  | malformed {fault : Fault} : fault = .varintOverflow pos ∨ fault = .varintTooLong pos →
    pos + 5 ≤ buffer.length →
    Moves buffer pos (.value .varint) (.error fault (Cursor.atOffset buffer (pos + 5)))
  | ended : buffer.length < pos + 5 →
    Moves buffer pos (.value .varint)
      (.error (.truncated buffer.length 1 0) (Cursor.atOffset buffer buffer.length))

end CursorCall

namespace Cursor

/-- Where a read leaves the cursor. -/
def stop {α : Type} : EStateM.Result Fault Cursor α → Cursor
  | .ok _ c => c
  | .error _ c => c

/-- The cursor after some calls, of which any may fail. -/
def after (c : Cursor) : List CursorCall → Cursor
  | [] => c
  | call :: calls => (stop (call.run c)).after calls

end Cursor

section Moves

open Form Reader

variable {α β : Type} {buffer taken rest : List UInt8} {pos width : Nat}

/-- A cursor that has taken some bytes stands behind them. -/
theorem Cursor.eq_atOffset (hpos : pos ≤ buffer.length) (h : buffer.drop pos = taken ++ rest)
    (hlen : taken.length = width) :
    (⟨pos + width, rest⟩ : Cursor) = atOffset buffer (pos + width)
      ∧ pos + width ≤ buffer.length := by
  have hrest := congrArg List.length h
  rw [List.length_drop, List.length_append] at hrest
  refine ⟨?_, by omega⟩
  rw [atOffset, ← List.drop_drop, h, ← hlen, List.drop_left]

/-- The same for bytes of which the last one is known. -/
theorem Cursor.eq_atOffset_of_last {init : List UInt8} {last : UInt8} (hpos : pos ≤ buffer.length)
    (h : buffer.drop pos = init ++ last :: rest) (hlen : init.length + 1 = width) :
    (⟨pos + width, rest⟩ : Cursor) = atOffset buffer (pos + width)
      ∧ pos + width ≤ buffer.length :=
  eq_atOffset hpos (h.trans (List.append_cons init last rest)) (by simpa using hlen)

namespace CursorCall

/-- A read of a fixed width is one of bytes, and these spell what it answers. -/
theorem exists_of_width? {call : CursorCall} (h : call.width? = some width) :
    ∃ answer : List UInt8 → CursorAnswer, call.run = answer <$> Reader.take width
      ∧ ∀ taken, taken.length = width → (answer taken).spelled = taken := by
  rcases call with (type | _) | count
  · obtain rfl : type.width = width := Option.some.inj h
    refine ⟨fun taken => .value (.scalar type (BitVec.ofNat _ (LittleEndian.decode taken))), ?_, ?_⟩
    · simp [run, StreamValue.read, Scalar.read, number]
    · intro taken hlen
      show type.encode _ = taken
      rw [type.encode_ofNat (hlen ▸ LittleEndian.decode_lt taken), ← hlen,
        LittleEndian.encode_decode]
  · cases h
  · obtain rfl : count = width := Option.some.inj h
    exact ⟨.bytes, rfl, fun _ _ => rfl⟩

theorem moves_of_width? {call : CursorCall} (h : call.width? = some width)
    (hpos : pos ≤ buffer.length) :
    Moves buffer pos call (call.run (Cursor.atOffset buffer pos)) := by
  obtain ⟨answer, hrun, hspelled⟩ := exists_of_width? h
  have hrest : (buffer.drop pos).length = buffer.length - pos := List.length_drop
  rw [hrun, Cursor.atOffset]
  by_cases hwidth : width ≤ buffer.length - pos
  · rw [map_ok (take_eq_ok (hrest.symm ▸ hwidth)), List.drop_drop]
    exact .taken h (by omega) (hspelled _ (List.length_take_of_le (hrest.symm ▸ hwidth)))
  · rw [map_error (take_eq_error (by omega)), hrest]
    exact .short h (by omega)

theorem moves_varint (hpos : pos ≤ buffer.length) :
    Moves buffer pos (.value .varint) (run (.value .varint) (Cursor.atOffset buffer pos)) := by
  have hrun : run (.value .varint) = (fun v => .value (.varint v)) <$> Varint.read := by
    simp [run, StreamValue.read]
  rw [hrun, Cursor.atOffset]
  rcases hread : Varint.read ⟨pos, buffer.drop pos⟩ with ⟨v, stop, rest⟩ | ⟨fault, c⟩
  · obtain ⟨_, hinput, hstop, init, last, rfl, -, -, hinit, -, -⟩ :=
      (Varint.read_encodes _ _ _ _).1 hread
    obtain rfl : stop = pos + (init.length + 1) := hstop.trans (by simp)
    obtain ⟨hcursor, hle⟩ := Cursor.eq_atOffset_of_last hpos (by simpa using hinput) rfl
    rw [map_ok hread, hcursor]
    exact .number (by omega) (by omega) hle
  · have hrefused := Varint.read_eq_error_iff.1 hread
    rw [map_error hread]
    generalize hinput : buffer.drop pos = input at hrefused
    cases hrefused with
    | overflow _ hinit _ =>
      obtain ⟨hcursor, hle⟩ := Cursor.eq_atOffset_of_last hpos hinput (congrArg (· + 1) hinit)
      exact hcursor ▸ .malformed (.inl rfl) hle
    | tooLong _ hinit _ _ =>
      obtain ⟨hcursor, hle⟩ := Cursor.eq_atOffset_of_last hpos hinput (congrArg (· + 1) hinit)
      exact hcursor ▸ .malformed (.inr rfl) hle
    | truncated _ hshort =>
      have hrest : buffer.length - pos = input.length := by rw [← hinput, List.length_drop]
      have hend : pos + input.length = buffer.length := by omega
      obtain ⟨hcursor, -⟩ := Cursor.eq_atOffset hpos (hinput.trans (List.append_nil _).symm) rfl
      rw [hcursor, hend]
      exact .ended (by omega)

/-- The kinds of calls, and what comes of each. -/
theorem moves (call : CursorCall) (hpos : pos ≤ buffer.length) :
    Moves buffer pos call (call.run (Cursor.atOffset buffer pos)) := by
  rcases hwidth : call.width? with _ | width
  · rcases call with (type | _) | count
    · cases hwidth
    · exact moves_varint hpos
    · cases hwidth
  · exact moves_of_width? hwidth hpos

/-- A call leaves the cursor in the buffer, at its position or further on. -/
theorem Moves.exists_stop {call : CursorCall} {result : EStateM.Result Fault Cursor CursorAnswer}
    (h : Moves buffer pos call result) (hpos : pos ≤ buffer.length) :
    ∃ next, Cursor.stop result = Cursor.atOffset buffer next ∧ pos ≤ next
      ∧ next ≤ buffer.length := by
  cases h with
  | taken _ hle _ => exact ⟨_, rfl, by omega, hle⟩
  | short _ _ => exact ⟨_, rfl, le_rfl, hpos⟩
  | number _ _ hle => exact ⟨_, rfl, by omega, hle⟩
  | malformed _ hle => exact ⟨_, rfl, by omega, hle⟩
  | ended _ => exact ⟨_, rfl, hpos, le_rfl⟩

end CursorCall

theorem Cursor.exists_after : ∀ (calls : List CursorCall) {pos : Nat}, pos ≤ buffer.length →
    ∃ next, (Cursor.atOffset buffer pos).after calls = Cursor.atOffset buffer next ∧ pos ≤ next
      ∧ next ≤ buffer.length
  | [], pos, hpos => ⟨pos, rfl, le_rfl, hpos⟩
  | call :: calls, pos, hpos => by
    obtain ⟨next, hstop, hle, hnext⟩ := (call.moves hpos).exists_stop hpos
    obtain ⟨last, hafter, hle', hlast⟩ := exists_after calls hnext
    exact ⟨last, by rw [after, hstop, hafter], hle.trans hle', hlast⟩

end Moves

namespace Cursor

/-- The value or the fault, and the position where the read ended. -/
def outcome {α : Type} : EStateM.Result Fault Cursor α → Except Fault α × Nat
  | .ok a c => (.ok a, c.pos)
  | .error fault c => (.error fault, c.pos)

/-- The next `width` bytes; their end is a position, too. -/
def checkedTake (buffer : List UInt8) (pos width : Nat) :
    Option (Except Fault (List UInt8) × Nat) :=
  if buffer.length - pos < width then
    some (.error (.truncated pos width (buffer.length - pos)), pos)
  else do
    let stop ← checkedSize (pos + width)
    let taken ← checkedSlice buffer pos stop
    return (.ok taken, stop)

/-- Adds the groups of a number to `value`, each shifted seven bits further. A number that is not
over after `most` groups has no result. -/
def checkedGroups (buffer : List UInt8) (start : Nat) :
    (most shift : Nat) → (value : UInt32) → (pos : Nat) → Option (Except Fault UInt32 × Nat)
  | 0, _, _, _ => none
  | most + 1, shift, value, pos => do
    match ← checkedTake buffer pos 1 with
    | (.error fault, pos) => return (.error fault, pos)
    | (.ok taken, pos) =>
      let b ← taken.head?
      let group := (b &&& 0x7F).toUInt32
      if shift = 28 ∧ 0x0F < group.toNat then return (.error (.varintOverflow start), pos)
      else
        let part ← checkedShift group shift
        if b &&& 0x80 = 0 then return (.ok (value ||| part), pos)
        else if 28 < shift + 7 then return (.error (.varintTooLong start), pos)
        else checkedGroups buffer start most (shift + 7) (value ||| part) pos

def checkedCall (buffer : List UInt8) (pos : Nat) :
    CursorCall → Option (Except Fault CursorAnswer × Nat)
  | .value (.scalar type) => do
    let (taken, stop) ← checkedTake buffer pos type.width
    let answer (bytes : List UInt8) : CursorAnswer :=
      .value (.scalar type (BitVec.ofNat _ (LittleEndian.decode bytes)))
    return (taken.map answer, stop)
  | .value .varint => do
    let (value, stop) ← checkedGroups buffer pos 5 0 0 pos
    return (value.map fun v => .value (.varint v), stop)
  | .bytes count => do
    let (taken, stop) ← checkedTake buffer pos count
    return (taken.map .bytes, stop)

end Cursor

section Checked

open Reader

variable {α β : Type} {buffer : List UInt8} {pos : Nat}

theorem toNat_group (b : UInt8) : (b &&& 0x7F).toUInt32.toNat = b.toNat % 128 := by
  rw [UInt8.toNat_toUInt32, UInt8.toNat_and]
  exact Nat.and_two_pow_sub_one_eq_mod b.toNat 7

theorem and_mark_eq_zero_iff (b : UInt8) : b &&& 0x80 = 0 ↔ b.toNat < 128 := by
  have hbits : ∀ n < 256, n &&& 128 = 0 ↔ n < 128 := by decide +kernel
  rw [← UInt8.toNat_inj, UInt8.toNat_and]
  exact hbits _ b.toNat_lt

/-- Bits above those of a value are added to it. -/
theorem toNat_or {value part : UInt32} {group shift : Nat} (hvalue : value.toNat < 2 ^ shift)
    (hpart : part.toNat = group * 2 ^ shift) :
    (value ||| part).toNat = value.toNat + group * 2 ^ shift := by
  rw [UInt32.toNat_or, hpart, ← Nat.shiftLeft_eq, Nat.or_comm,
    ← Nat.shiftLeft_add_eq_or_of_lt hvalue, Nat.add_comm]

namespace Cursor

theorem outcome_map (r : Reader α) (f : α → β) (c : Cursor) :
    outcome ((f <$> r) c) = ((outcome (r c)).1.map f, (outcome (r c)).2) := by
  rcases h : r c with ⟨a, c'⟩ | ⟨fault, c'⟩
  · rw [map_ok h]
    rfl
  · rw [map_error h]
    rfl

theorem checkedTake_eq (hsize : buffer.length ≤ sizeLimit) (hpos : pos ≤ buffer.length)
    (width : Nat) :
    checkedTake buffer pos width = some (outcome (Reader.take width (atOffset buffer pos))) := by
  have hrest : (buffer.drop pos).length = buffer.length - pos := List.length_drop
  unfold checkedTake
  split_ifs with hshort
  · rw [atOffset, take_eq_error (by omega), hrest]
    rfl
  · rw [atOffset, take_eq_ok (by omega), checkedSize_eq (show pos + width ≤ sizeLimit by omega)]
    simp [checkedSlice_eq (show pos + width ≤ buffer.length by omega), outcome]

/-- No bit of a group is shifted out of the word. -/
theorem group_lt {group shift : Nat} (hgroup : group < 128) (hshift : shift ≤ 21 ∨ shift = 28)
    (hfits : ¬ (shift = 28 ∧ 0x0F < group)) : group * 2 ^ shift < 2 ^ 32 := by
  rcases hshift with hshift | rfl
  · have hpow : 2 ^ shift ≤ 2 ^ 21 := Nat.pow_le_pow_right (by omega) hshift
    calc group * 2 ^ shift ≤ 127 * 2 ^ 21 := Nat.mul_le_mul (by omega) hpow
      _ < 2 ^ 32 := by norm_num
  · omega

/-- One step of the loop, where there is another byte. -/
theorem checkedGroups_cons (hsize : buffer.length ≤ sizeLimit) (hpos : pos ≤ buffer.length)
    {b : UInt8} {rest : List UInt8} (hrest : buffer.drop pos = b :: rest) {value : UInt32}
    {shift : Nat} (hshift : shift ≤ 21 ∨ shift = 28) (hvalue : value.toNat < 2 ^ shift)
    (start most : Nat) :
    checkedGroups buffer start (most + 1) shift value pos
      = if shift = 28 ∧ 0x0F < b.toNat % 128 then some (.error (.varintOverflow start), pos + 1)
        else if b.toNat < 128 then
          some (.ok (UInt32.ofNat (value.toNat + b.toNat % 128 * 2 ^ shift)), pos + 1)
        else if 28 < shift + 7 then some (.error (.varintTooLong start), pos + 1)
        else checkedGroups buffer start most (shift + 7)
          (UInt32.ofNat (value.toNat + b.toNat % 128 * 2 ^ shift)) (pos + 1) := by
  have htake : Reader.take 1 (atOffset buffer pos) = .ok [b] ⟨pos + 1, rest⟩ := by
    rw [atOffset, hrest]
    rfl
  rw [checkedGroups, checkedTake_eq hsize hpos, htake]
  simp only [outcome, Option.bind_eq_bind, Option.bind_some, List.head?_cons, toNat_group,
    Option.pure_def, and_mark_eq_zero_iff]
  by_cases hover : shift = 28 ∧ 0x0F < b.toNat % 128
  · rw [if_pos hover, if_pos hover]
  · have hfits : (b &&& 0x7F).toUInt32.toNat * 2 ^ shift < 2 ^ 32 := by
      rw [toNat_group]
      exact group_lt (Nat.mod_lt _ (by omega)) hshift hover
    obtain ⟨part, hpart, hval⟩ := exists_checkedShift (by omega) hfits
    rw [toNat_group] at hval
    have hsum : UInt32.ofNat (value.toNat + b.toNat % 128 * 2 ^ shift) = value ||| part := by
      rw [← toNat_or hvalue hval, UInt32.ofNat_toNat]
    rw [if_neg hover, if_neg hover, hpart, hsum]
    split_ifs <;> rfl

theorem sum_lt {value group shift : Nat} (hvalue : value < 2 ^ shift) (hgroup : group < 128) :
    value + group * 2 ^ shift < 2 ^ (shift + 7) :=
  calc value + group * 2 ^ shift < 2 ^ shift + 127 * 2 ^ shift :=
        Nat.add_lt_add_of_lt_of_le hvalue (Nat.mul_le_mul_right _ (by omega))
    _ = 2 ^ (shift + 7) := by ring

/-- With one group fewer to come, the next one is shifted seven bits further. -/
theorem checkedGroups_eq (hsize : buffer.length ≤ sizeLimit) (start : Nat) {most pos : Nat}
    {value : UInt32} (hmost : most ≤ 4) (hpos : pos ≤ buffer.length)
    (hvalue : value.toNat < 2 ^ (7 * (4 - most))) :
    checkedGroups buffer start (most + 1) (7 * (4 - most)) value pos
      = some (outcome (Varint.readGroups start (most + 1) (2 ^ (7 * (4 - most))) value.toNat
        (atOffset buffer pos))) := by
  rcases hrest : buffer.drop pos with _ | ⟨b, rest⟩
  · have htake : Reader.take 1 (atOffset buffer pos) = .error (.truncated pos 1 0) ⟨pos, []⟩ := by
      rw [atOffset, hrest]
      rfl
    rw [checkedGroups, checkedTake_eq hsize hpos, htake, atOffset, hrest]
    rfl
  · obtain ⟨hnext, hpos'⟩ := eq_atOffset_of_last hpos (hrest.trans (List.nil_append _).symm) rfl
    have hshift : 7 * (4 - most) ≤ 21 ∨ 7 * (4 - most) = 28 := by omega
    have hfit : most ≠ 0 ∨ b.toNat % 128 < 16 ↔ ¬ (7 * (4 - most) = 28 ∧ 0x0F < b.toNat % 128) := by
      omega
    rw [checkedGroups_cons hsize hpos hrest hshift hvalue, atOffset, hrest, Varint.readGroups_cons]
    simp only [hfit]
    split_ifs with hover hlast hlong
    · rfl
    · rfl
    · -- Only the fifth group is shifted so far.
      obtain rfl : most = 0 := by omega
      rfl
    · obtain ⟨most, rfl⟩ := Nat.exists_eq_succ_of_ne_zero (show most ≠ 0 by omega)
      have hstep : 7 * (4 - most.succ) + 7 = 7 * (4 - most) := by omega
      have hsum := sum_lt hvalue (Nat.mod_lt b.toNat (show 128 > 0 by omega))
      have hweight : 2 ^ (7 * (4 - most.succ)) * 128 = 2 ^ (7 * (4 - most)) := by
        rw [← hstep, Nat.pow_add]
      have hword : 2 ^ (7 * (4 - most)) ≤ 2 ^ 28 := Nat.pow_le_pow_right (by omega) (by omega)
      rw [hstep] at hsum
      have hval : (UInt32.ofNat (value.toNat + b.toNat % 128 * 2 ^ (7 * (4 - most.succ)))).toNat
          = value.toNat + b.toNat % 128 * 2 ^ (7 * (4 - most.succ)) :=
        UInt32.toNat_ofNat_of_lt' (hsum.trans_le (hword.trans (by decide)))
      have ih := checkedGroups_eq hsize start (by omega) hpos' (hval.trans_lt hsum)
      rw [hval, ← hnext] at ih
      rw [hstep, hweight]
      exact ih
termination_by most

/-- A call stays in the range of sizes and in its buffer, and does what it does without checks. -/
theorem checkedCall_eq (hsize : buffer.length ≤ sizeLimit) (hpos : pos ≤ buffer.length)
    (call : CursorCall) :
    checkedCall buffer pos call = some (outcome (call.run (atOffset buffer pos))) := by
  rcases call with (type | _) | count
  · simp only [checkedCall, checkedTake_eq hsize hpos, CursorCall.run, StreamValue.read,
      Scalar.read, number, Functor.map_map]
    rw [outcome_map]
    rfl
  · have hgroups : checkedGroups buffer pos 5 0 0 pos
        = some (outcome (Varint.read (atOffset buffer pos))) :=
      checkedGroups_eq hsize pos le_rfl hpos (by decide)
    simp only [checkedCall, hgroups, CursorCall.run, StreamValue.read, Functor.map_map]
    rw [outcome_map]
    rfl
  · simp only [checkedCall, checkedTake_eq hsize hpos, CursorCall.run]
    rw [outcome_map]
    rfl

/-- What holds of a cursor in a buffer, whatever is called next. -/
structure Bounded (buffer : List UInt8) (c : Cursor) : Prop where
  pos_le : c.pos ≤ buffer.length
  remaining : c.remaining = buffer.length - c.pos
  more_iff : c.atEnd = false ↔ c.pos < buffer.length
  moves (call : CursorCall) : call.Moves buffer c.pos (call.run c)
  forward (call : CursorCall) : c.pos ≤ (stop (call.run c)).pos
  checked (call : CursorCall) : buffer.length ≤ sizeLimit →
    checkedCall buffer c.pos call = some (outcome (call.run c))

theorem bounded_atOffset (hpos : pos ≤ buffer.length) : Bounded buffer (atOffset buffer pos) where
  pos_le := hpos
  remaining := List.length_drop
  more_iff := by simp [atEnd, atOffset]
  moves call := call.moves hpos
  forward call := by
    obtain ⟨next, hstop, hle, -⟩ := (call.moves hpos).exists_stop hpos
    rw [hstop]
    exact hle
  checked call hsize := checkedCall_eq hsize hpos call

/-- Calls that follow one another keep the cursor in its buffer, also where they fail. -/
theorem bounded_after (buffer : List UInt8) (calls : List CursorCall) :
    Bounded buffer ((Cursor.start buffer).after calls) := by
  obtain ⟨pos, hafter, -, hpos⟩ := exists_after calls (Nat.zero_le buffer.length)
  have hstart : Cursor.start buffer = atOffset buffer 0 := rfl
  rw [hstart, hafter]
  exact bounded_atOffset hpos

/-- A count that is too large takes nothing, and a number that is too large five bytes. -/
example : (Cursor.start [0xFF, 0xFF, 0xFF, 0xFF, 0x1F, 0x07]).after
    [.bytes (2 ^ 64 - 1), .value .varint] = ⟨5, [0x07]⟩ := rfl

end Cursor

end Checked

end ClassLoading
