import Mathlib.Data.Nat.Digits.Lemmas
import ClassLoading.Proofs.Encodings

/-!
# Variable-length numbers, byte by byte

All bytes of a number but the last are marked by their high bit, and the low seven bits are its
digits in base 128 (`Varint.Encodes`). Reading takes such bytes and no others: a fifth byte with
more than four bits, five marked bytes and an end behind fewer of them each have a fault of their own
(`Varint.Refused`), and no other input is refused (`Varint.read_exact`). Of all forms of a number the
written one is the shortest.
-/

namespace ClassLoading.Varint

open Form Reader

/-- The high bit is set in every byte. -/
def Marked (bytes : List UInt8) : Prop :=
  ∀ b ∈ bytes, 128 ≤ b.toNat

/-- The number whose digits in base 128 are the low seven bits of the bytes. -/
def total (bytes : List UInt8) : Nat :=
  Nat.ofDigits 128 (bytes.map fun b => b.toNat % 128)

/-- One to five bytes, of which all but the last are marked and a fifth one holds four bits. -/
def Encodes : Form UInt32 := fun bytes v =>
  ∃ init last, bytes = init ++ [last] ∧ Marked init ∧ last.toNat < 128 ∧ init.length ≤ 4
    ∧ (init.length = 4 → last.toNat ≤ 0x0F) ∧ v.toNat = total bytes

/-- What is said of an input that begins with no number, and where reading stops. -/
inductive Refused (pos : Nat) : List UInt8 → Fault → Cursor → Prop
  | overflow {init rest : List UInt8} {last : UInt8} : Marked init → init.length = 4 →
    0x0F < last.toNat % 128 →
    Refused pos (init ++ last :: rest) (.varintOverflow pos) ⟨pos + 5, rest⟩
  | tooLong {init rest : List UInt8} {last : UInt8} : Marked init → init.length = 4 →
    128 ≤ last.toNat → last.toNat % 128 ≤ 0x0F →
    Refused pos (init ++ last :: rest) (.varintTooLong pos) ⟨pos + 5, rest⟩
  | truncated {input : List UInt8} : Marked input → input.length < 5 →
    Refused pos input (.truncated (pos + input.length) 1 0) ⟨pos + input.length, []⟩

section Digits

theorem total_cons (b : UInt8) (bytes : List UInt8) :
    total (b :: bytes) = b.toNat % 128 + 128 * total bytes := by
  simp [total, Nat.ofDigits_cons]

theorem total_append (bytes bytes' : List UInt8) :
    total (bytes ++ bytes') = total bytes + 128 ^ bytes.length * total bytes' := by
  simp [total, Nat.ofDigits_append]

theorem total_lt (bytes : List UInt8) : total bytes < 128 ^ bytes.length := by
  induction bytes with
  | nil => simp [total]
  | cons b bytes ih =>
    rw [total_cons, List.length_cons, Nat.pow_succ]
    omega

theorem leb128_iff {bytes : List UInt8} {n : Nat} :
    Leb128 bytes n ↔ ∃ init last, bytes = init ++ [last] ∧ Marked init ∧ last.toNat < 128
      ∧ n = total bytes := by
  constructor
  · intro h
    induction h with
    | @last b hb =>
      refine ⟨[], b, rfl, by simp [Marked], hb, ?_⟩
      simp [total, Nat.mod_eq_of_lt hb]
    | @more b bytes n hb _ ih =>
      obtain ⟨init, last, rfl, hinit, hlast, rfl⟩ := ih
      refine ⟨b :: init, last, rfl, ?_, hlast, ?_⟩
      · simpa [Marked, hb] using hinit
      · have := b.toNat_lt
        rw [total_cons]
        omega
  · rintro ⟨init, last, rfl, hinit, hlast, rfl⟩
    induction init with
    | nil =>
      have hone := Leb128.last hlast
      rwa [List.nil_append, total_cons, Nat.mod_eq_of_lt hlast]
    | cons b init ih =>
      have hb : 128 ≤ b.toNat := hinit b (by simp)
      have hmore := Leb128.more hb (ih fun b' hb' => hinit b' (by simp [hb']))
      have := b.toNat_lt
      rwa [List.cons_append, total_cons, show b.toNat % 128 = b.toNat - 128 by omega]

/-- Up to five digits keep within 32 bits just where the fifth one does. -/
theorem total_lt_iff {init : List UInt8} {last : UInt8} (hlen : init.length ≤ 4)
    (hlast : last.toNat < 128) :
    total (init ++ [last]) < 2 ^ 32 ↔ (init.length = 4 → last.toNat ≤ 0x0F) := by
  have hinit := total_lt init
  have hone : total [last] = last.toNat := by
    rw [total_cons, Nat.mod_eq_of_lt hlast]
    rfl
  rw [total_append, hone]
  rcases Nat.lt_or_eq_of_le hlen with hshort | hfull
  · have hpow : 128 ^ init.length ≤ 128 ^ 3 := Nat.pow_le_pow_right (by omega) (by omega)
    have hmul : 128 ^ init.length * last.toNat ≤ 128 ^ 3 * 127 := Nat.mul_le_mul hpow (by omega)
    exact iff_of_true (by omega) (by omega)
  · rw [hfull] at hinit ⊢
    omega

theorem count_iff_encodes {bytes : List UInt8} {v : UInt32} :
    Count bytes v.toNat ↔ Encodes bytes v := by
  unfold Count Encodes
  rw [leb128_iff]
  constructor
  · rintro ⟨⟨init, last, rfl, hinit, hlast, hv⟩, hlen, hlt⟩
    have hlen' : init.length ≤ 4 := by simpa [Nat.lt_succ_iff] using hlen
    exact ⟨init, last, rfl, hinit, hlast, hlen', (total_lt_iff hlen' hlast).1 (hv ▸ hlt), hv⟩
  · rintro ⟨init, last, rfl, hinit, hlast, hlen, hfifth, hv⟩
    exact ⟨⟨init, last, rfl, hinit, hlast, hv⟩, by simpa [Nat.lt_succ_iff] using hlen, v.toNat_lt⟩

end Digits

section Refusals

variable {pos : Nat} {init rest input : List UInt8} {last : UInt8}

theorem readGroups_cons (start most weight value pos : Nat) (b : UInt8) (rest : List UInt8) :
    readGroups start (most + 1) weight value ⟨pos, b :: rest⟩
      = if most ≠ 0 ∨ b.toNat % 128 < 16 then
          if b.toNat < 128 then
            .ok (UInt32.ofNat (value + b.toNat % 128 * weight)) ⟨pos + 1, rest⟩
          else readGroups start most (weight * 128) (value + b.toNat % 128 * weight) ⟨pos + 1, rest⟩
        else .error (.varintOverflow start) ⟨pos + 1, rest⟩ := by
  rw [readGroups, bind_ok (by rfl)]
  by_cases hfit : most ≠ 0 ∨ b.toNat % 128 < 16
  · rw [if_pos hfit, show (most != 0 || decide (b.toNat % 128 < 16)) = true by simpa using hfit]
    split_ifs <;> rfl
  · rw [if_neg hfit, show (most != 0 || decide (b.toNat % 128 < 16)) = false by simpa using hfit]
    rfl

/-- Marked bytes are taken one after the other, as long as another one may follow. -/
theorem readGroups_marked (start k : Nat) :
    ∀ {init : List UInt8} (_ : Marked init) (weight value pos : Nat) (rest : List UInt8),
      ∃ weight' value', readGroups start (init.length + (k + 1)) weight value ⟨pos, init ++ rest⟩
        = readGroups start (k + 1) weight' value' ⟨pos + init.length, rest⟩
  | [], _, weight, value, pos, rest => by
    refine ⟨weight, value, ?_⟩
    rw [List.length_nil, Nat.zero_add]
    rfl
  | b :: init, hinit, weight, value, pos, rest => by
    have hb : 128 ≤ b.toNat := hinit b (by simp)
    have hinit' : Marked init := fun b' hb' => hinit b' (List.mem_cons_of_mem b hb')
    obtain ⟨weight', value', hrest⟩ := readGroups_marked start k hinit' (weight * 128)
      (value + b.toNat % 128 * weight) (pos + 1) rest
    refine ⟨weight', value', ?_⟩
    rw [List.length_cons, Nat.add_right_comm, List.cons_append, readGroups_cons,
      if_pos (.inl (by omega)), if_neg (by omega), hrest, Nat.add_assoc, Nat.add_comm 1]

theorem read_marked (pos : Nat) (hinit : Marked init) (hlen : init.length ≤ 4) (rest : List UInt8) :
    ∃ weight value, read ⟨pos, init ++ rest⟩
      = readGroups pos (4 - init.length + 1) weight value ⟨pos + init.length, rest⟩ := by
  obtain ⟨weight, value, h⟩ := readGroups_marked pos (4 - init.length) hinit 1 0 pos rest
  refine ⟨weight, value, ?_⟩
  rw [← h, show init.length + (4 - init.length + 1) = 5 by omega]
  rfl

theorem Refused.read {fault : Fault} {c : Cursor} (h : Refused pos input fault c) :
    read ⟨pos, input⟩ = .error fault c := by
  cases h with
  | @overflow init rest last hinit hlen hlast =>
    obtain ⟨weight, value, h⟩ := read_marked pos hinit hlen.le (last :: rest)
    rw [h, hlen, readGroups_cons, if_neg (by omega)]
  | @tooLong init rest last hinit hlen hmark hlast =>
    obtain ⟨weight, value, h⟩ := read_marked pos hinit hlen.le (last :: rest)
    rw [h, hlen, readGroups_cons, if_pos (.inr (by omega)), if_neg (by omega)]
    rfl
  | truncated hinput hlen =>
    obtain ⟨weight, value, h⟩ := read_marked pos hinput (by omega) []
    rw [List.append_nil] at h
    rw [h]
    rfl

/-- The first byte that is not marked ends a number, if it comes in time. -/
theorem exists_last : ∀ (most : Nat) (input : List UInt8),
    (Marked input ∧ input.length ≤ most)
      ∨ ∃ init last rest, input = init ++ last :: rest ∧ Marked init ∧ init.length ≤ most
          ∧ (last.toNat < 128 ∨ init.length = most)
  | most, [] => .inl ⟨by simp [Marked], Nat.zero_le _⟩
  | 0, b :: rest => .inr ⟨[], b, rest, rfl, by simp [Marked], le_rfl, .inr rfl⟩
  | most + 1, b :: rest => by
    by_cases hb : b.toNat < 128
    · exact .inr ⟨[], b, rest, rfl, by simp [Marked], Nat.zero_le _, .inl hb⟩
    · rcases exists_last most rest with ⟨hrest, hlen⟩ | ⟨init, last, rest', rfl, hinit, hlen, hend⟩
      · exact .inl ⟨by simpa [Marked, Nat.not_lt.1 hb] using hrest, by simpa using hlen⟩
      · exact .inr ⟨b :: init, last, rest', rfl, by simpa [Marked, Nat.not_lt.1 hb] using hinit,
          by simpa using hlen, by simpa using hend⟩

theorem encodes_or_refused (pos : Nat) (input : List UInt8) :
    (∃ bytes rest v, input = bytes ++ rest ∧ Encodes bytes v)
      ∨ ∃ fault c, Refused pos input fault c := by
  rcases exists_last 4 input with ⟨hinput, hlen⟩ | ⟨init, last, rest, rfl, hinit, hlen, hend⟩
  · exact .inr ⟨_, _, .truncated hinput (by omega)⟩
  · by_cases hfit : init.length = 4 ∧ 0x0F < last.toNat % 128
    · exact .inr ⟨_, _, .overflow hinit hfit.1 hfit.2⟩
    · by_cases hlast : last.toNat < 128
      · have hfifth : init.length = 4 → last.toNat ≤ 0x0F := by omega
        refine .inl ⟨init ++ [last], rest, UInt32.ofNat (total (init ++ [last])), by simp, init,
          last, rfl, hinit, hlast, hlen, hfifth, ?_⟩
        exact UInt32.toNat_ofNat_of_lt' ((total_lt_iff hlen hlast).2 hfifth)
      · exact .inr ⟨_, _, .tooLong hinit (by omega) (by omega) (by omega)⟩

end Refusals

theorem read_encodes : read.Reads Encodes :=
  varint_reads.congr fun _ _ => count_iff_encodes

theorem read_eq_error_iff {pos : Nat} {input : List UInt8} {fault : Fault} {c : Cursor} :
    read ⟨pos, input⟩ = .error fault c ↔ Refused pos input fault c := by
  refine ⟨fun h => ?_, Refused.read⟩
  rcases encodes_or_refused pos input with ⟨bytes, rest, v, rfl, hbytes⟩ | ⟨fault', c', hrefused⟩
  · rw [read_encodes.at hbytes] at h
    cases h
  · rw [hrefused.read, EStateM.Result.error.injEq] at h
    obtain ⟨rfl, rfl⟩ := h
    exact hrefused

section Shortest

theorem leb128_unique {bytes bytes' : List UInt8} {n n' : Nat} (h : Leb128 bytes n)
    (h' : Leb128 bytes' n') (hn : n = n') (hlen : bytes.length = bytes'.length) :
    bytes = bytes' := by
  induction h generalizing bytes' n' with
  | @last b hb =>
    rcases h' with @⟨b', hb'⟩ | @⟨b', bytes', n', hb', hrest⟩
    · rw [UInt8.toNat_inj.1 hn]
    · exact absurd (List.length_eq_zero_iff.1 (by simpa using hlen.symm)) hrest.ne_nil
  | @more b bytes n hb hrest ih =>
    rcases h' with @⟨b', hb'⟩ | @⟨b', bytes', n', hb', hrest'⟩
    · exact absurd (List.length_eq_zero_iff.1 (by simpa using hlen)) hrest.ne_nil
    · have hlow := b.toNat_lt
      have hlow' := b'.toNat_lt
      rw [ih hrest' (by omega) (by simpa using hlen),
        UInt8.toNat_inj.1 (show b.toNat = b'.toNat by omega)]

theorem le_of_length_groups : ∀ most n : Nat, 1 < (groups most n).length →
    128 ^ ((groups most n).length - 1) ≤ n
  | 0, n, h => by simp [groups] at h
  | most + 1, n, h => by
    rw [groups] at h ⊢
    split_ifs at h ⊢ with hsmall
    · simp at h
    · rw [List.length_cons, Nat.add_sub_cancel]
      rcases Nat.lt_or_ge 1 (groups most (n / 128)).length with hlong | hshort
      · have ih := le_of_length_groups most (n / 128) hlong
        rw [← Nat.sub_add_cancel hlong.le, Nat.pow_succ]
        omega
      · exact (Nat.pow_le_pow_right (by decide) hshort).trans (by omega)

theorem encode_encodes (v : UInt32) : Encodes (encode v) v := by
  have hcount := encode_count v.toNat_lt
  rw [UInt32.ofNat_toNat] at hcount
  exact count_iff_encodes.1 hcount

/-- No form of a number is as short as the written one. -/
theorem encode_shortest {bytes : List UInt8} {v : UInt32} (h : Encodes bytes v)
    (hne : bytes ≠ encode v) : (encode v).length < bytes.length := by
  obtain ⟨hleb, -, -⟩ := count_iff_encodes.2 h
  obtain ⟨hleb', -, -⟩ := count_iff_encodes.2 (encode_encodes v)
  have hdiffer : bytes.length ≠ (encode v).length := fun hlen =>
    hne (leb128_unique hleb hleb' rfl hlen)
  have hlt : v.toNat < 128 ^ bytes.length := by
    obtain ⟨init, last, rfl, -, -, heq⟩ := leb128_iff.1 hleb
    exact heq ▸ total_lt _
  have hpos : 0 < bytes.length := List.length_pos_iff.2 hleb.ne_nil
  rcases Nat.lt_or_ge 1 (encode v).length with hlong | hshort
  · have hle : 128 ^ ((encode v).length - 1) ≤ v.toNat := le_of_length_groups 5 v.toNat hlong
    have := (Nat.pow_lt_pow_iff_right (by decide)).1 (hle.trans_lt hlt)
    omega
  · omega

end Shortest

/-- Reading takes the forms of a number and refuses what begins with none, telling why; a number
written is read back, whatever follows it, and every other form of it is longer. -/
theorem read_exact :
    read.Reads Encodes
    ∧ (∀ pos input fault c, read ⟨pos, input⟩ = .error fault c ↔ Refused pos input fault c)
    ∧ (∀ v pos rest,
      read ⟨pos, encode v ++ rest⟩ = .ok v ⟨pos + (encode v).length, rest⟩)
    ∧ ∀ v bytes, Encodes bytes v → bytes ≠ encode v → (encode v).length < bytes.length :=
  ⟨read_encodes, fun _ _ _ _ => read_eq_error_iff, fun v pos rest =>
    read_encodes.at (encode_encodes v) pos rest, fun _ _ => encode_shortest⟩

/-- The number one in two bytes with another byte behind them, and a fifth byte of five bits. -/
theorem read_exact_padded :
    Encodes [0x81, 0x00] 1 ∧ [0x81, 0x00] ≠ encode 1 ∧ (encode 1).length < 2
    ∧ read ⟨7, [0x81, 0x00, 0x2A]⟩ = .ok 1 ⟨9, [0x2A]⟩
    ∧ read ⟨7, [0xFF, 0xFF, 0xFF, 0xFF, 0x1F]⟩ = .error (.varintOverflow 7) ⟨12, []⟩ := by
  have hpadded : Encodes [0x81, 0x00] 1 :=
    ⟨[0x81], 0x00, rfl, by simp [Marked], by decide, by decide, by decide, by decide⟩
  have hne : [0x81, 0x00] ≠ encode 1 := by decide
  refine ⟨hpadded, hne, read_exact.2.2.2 1 _ hpadded hne, ?_, ?_⟩
  · exact (read_exact.1 7 _ 1 ⟨9, [0x2A]⟩).2 ⟨_, rfl, rfl, hpadded⟩
  · exact (read_exact.2.1 7 _ _ _).2
      (@Refused.overflow 7 [0xFF, 0xFF, 0xFF, 0xFF] [] 0x1F (by simp [Marked]) rfl (by decide))

end ClassLoading.Varint
