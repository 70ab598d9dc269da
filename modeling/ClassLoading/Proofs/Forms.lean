import Mathlib.Data.Nat.Digits.Lemmas
import Mathlib.Tactic.Ring
import Mathlib.Tactic.SplitIfs
import ClassLoading.Class.Decoding

/-!
# Forms of bytes

A form says which byte strings stand for which values. A reader reads a form if it takes just those
byte strings, whatever follows them (`Reader.Reads`); so the readers of a form agree on where a value
ends (`Reader.Reads.unique`). Readers one after the other read the one form behind the other, and
counted readers a count and as many items.

A number of fixed width is its digits in base 256, lowest first (`number_reads`). A count is a
number in base 128 in up to five bytes; longer forms than needed are among them (`varint_reads`).
-/

namespace ClassLoading

/-- Which byte strings stand for which values. -/
abbrev Form (α : Type) :=
  List UInt8 → α → Prop

namespace Form

variable {α : Type}

/-- Items one behind the other. -/
inductive Listed (item : Form α) : Form (List α)
  | nil : Listed item [] []
  | cons {x y : List UInt8} {a : α} {items : List α} :
    item x a → Listed item y items → Listed item (x ++ y) (a :: items)

/-- A number as its digits in base 256, the lowest first. -/
def Number (width : Nat) : Form Nat := fun bytes n =>
  bytes.length = width ∧ Nat.ofDigits 256 (bytes.map UInt8.toNat) = n

/-- Bytes behind a number of four bytes that says how many they are. -/
def Sized : Form (List UInt8) := fun bytes a =>
  ∃ length, bytes = length ++ a ∧ Number 4 length a.length

/-- Digits in base 128, the lowest first; all bytes but the last are marked by their high bit. -/
inductive Leb128 : Form Nat
  | last {b : UInt8} : b.toNat < 128 → Leb128 [b] b.toNat
  | more {b : UInt8} {bytes : List UInt8} {n : Nat} :
    128 ≤ b.toNat → Leb128 bytes n → Leb128 (b :: bytes) (b.toNat - 128 + 128 * n)

/-- A number of 32 bits in up to five bytes. -/
def Count : Form Nat := fun bytes n =>
  Leb128 bytes n ∧ bytes.length ≤ 5 ∧ n < 2 ^ 32

/-- A count and as many items. -/
def Counted (item : Form α) : Form (List α) := fun bytes items =>
  ∃ head body, bytes = head ++ body ∧ Count head items.length ∧ Listed item body items

theorem Leb128.ne_nil {bytes : List UInt8} {n : Nat} (h : Leb128 bytes n) : bytes ≠ [] := by
  cases h <;> simp

end Form

open Form

section Numbers

theorem LittleEndian.ofDigits_toNat : ∀ bytes : List UInt8,
    Nat.ofDigits 256 (bytes.map UInt8.toNat) = decode bytes
  | [] => rfl
  | b :: rest => by
    rw [List.map_cons, Nat.ofDigits_cons, ofDigits_toNat rest, decode]

theorem LittleEndian.encode_number {width n : Nat} (h : n < 1 <<< (8 * width)) :
    Number width (encode width n) n := by
  refine ⟨length_encode width n, ?_⟩
  rw [ofDigits_toNat, decode_encode, Nat.mod_eq_of_lt h]

theorem Form.Number.lt {width n : Nat} {bytes : List UInt8} (h : Number width bytes n) :
    n < 1 <<< (8 * width) := by
  obtain ⟨rfl, rfl⟩ := h
  rw [LittleEndian.ofDigits_toNat]
  exact LittleEndian.decode_lt bytes

theorem Form.Number.eq_encode {width n : Nat} {bytes : List UInt8} (h : Number width bytes n) :
    bytes = LittleEndian.encode width n := by
  obtain ⟨rfl, rfl⟩ := h
  rw [LittleEndian.ofDigits_toNat, LittleEndian.encode_decode]

end Numbers

namespace Reader

variable {α β : Type}

/-- A value is read just where bytes of its form lie ahead, and the reader stops behind them. -/
def Reads (r : Reader α) (F : Form α) : Prop :=
  ∀ (pos : Nat) (input : List UInt8) (a : α) (c : Cursor), r ⟨pos, input⟩ = .ok a c ↔
    ∃ bytes, input = bytes ++ c.rest ∧ c.pos = pos + bytes.length ∧ F bytes a

section Combinators

theorem bind_eq_ok_iff {r : Reader α} {f : α → Reader β} {c c' : Cursor} {b : β} :
    (r >>= f) c = .ok b c' ↔ ∃ a c₁, r c = .ok a c₁ ∧ f a c₁ = .ok b c' := by
  show EStateM.bind r f c = _ ↔ _
  unfold EStateM.bind
  rcases r c with ⟨a, c₁⟩ | ⟨fault, c₁⟩
  · constructor
    · intro h
      exact ⟨a, c₁, rfl, h⟩
    · rintro ⟨_, _, heq, h⟩
      cases heq
      exact h
  · simp

theorem bind_ok {r : Reader α} {f : α → Reader β} {c c₁ : Cursor} {a : α} (h : r c = .ok a c₁) :
    (r >>= f) c = f a c₁ := by
  show EStateM.bind r f c = _
  rw [EStateM.bind, h]

theorem bind_error {r : Reader α} {f : α → Reader β} {c c₁ : Cursor} {fault : Fault}
    (h : r c = .error fault c₁) : (r >>= f) c = .error fault c₁ := by
  show EStateM.bind r f c = _
  rw [EStateM.bind, h]

theorem map_ok {r : Reader α} {c c₁ : Cursor} {a : α} (h : r c = .ok a c₁) (f : α → β) :
    (f <$> r) c = .ok (f a) c₁ := by
  show EStateM.map f r c = _
  rw [EStateM.map, h]

theorem map_error {r : Reader α} {c c₁ : Cursor} {fault : Fault} (h : r c = .error fault c₁)
    (f : α → β) : (f <$> r) c = .error fault c₁ := by
  show EStateM.map f r c = _
  rw [EStateM.map, h]

theorem Reads.congr {r : Reader α} {F G : Form α} (h : r.Reads F)
    (heq : ∀ bytes a, F bytes a ↔ G bytes a) : r.Reads G := by
  intro pos input a c
  rw [h]
  simp only [heq]

theorem Reads.at {r : Reader α} {F : Form α} (h : r.Reads F) {bytes : List UInt8} {a : α}
    (hF : F bytes a) (pos : Nat) (rest : List UInt8) :
    r ⟨pos, bytes ++ rest⟩ = .ok a ⟨pos + bytes.length, rest⟩ :=
  (h _ _ _ _).2 ⟨bytes, rfl, rfl, hF⟩

/-- What is read ends where it ends, whatever follows. -/
theorem Reads.unique {r : Reader α} {F : Form α} (h : r.Reads F) {x y s t : List UInt8} {a b : α}
    (hx : F x a) (hy : F y b) (heq : x ++ s = y ++ t) : x = y ∧ a = b ∧ s = t := by
  have hxs := h.at hx 0 s
  rw [heq, h.at hy 0 t] at hxs
  simp only [EStateM.Result.ok.injEq, Cursor.mk.injEq] at hxs
  obtain ⟨rfl, -, rfl⟩ := hxs
  exact ⟨List.append_cancel_right heq, rfl, rfl⟩

theorem pure_reads (a : α) : (pure a : Reader α).Reads fun bytes b => bytes = [] ∧ b = a := by
  intro pos input b c
  show EStateM.Result.ok a (⟨pos, input⟩ : Cursor) = .ok b c ↔ _
  rcases c with ⟨pos', rest⟩
  simp only [EStateM.Result.ok.injEq, Cursor.mk.injEq]
  constructor
  · rintro ⟨rfl, rfl, rfl⟩
    exact ⟨[], rfl, rfl, rfl, rfl⟩
  · rintro ⟨bytes, hin, hpos, rfl, rfl⟩
    exact ⟨rfl, hpos.symm, hin⟩

theorem throw_reads (fault : Fault) : (throw fault : Reader α).Reads fun _ _ => False := by
  intro pos input a c
  show EStateM.Result.error fault (⟨pos, input⟩ : Cursor) = .ok a c ↔ _
  simp

theorem Reads.bind {r : Reader α} {f : α → Reader β} {F : Form α} {G : α → Form β}
    (hr : r.Reads F) (hf : ∀ a, (f a).Reads (G a)) :
    (r >>= f).Reads fun bytes b => ∃ a x y, bytes = x ++ y ∧ F x a ∧ G a y b := by
  intro pos input b c
  rw [bind_eq_ok_iff]
  constructor
  · rintro ⟨a, c₁, h₁, h₂⟩
    obtain ⟨x, rfl, hpos, hF⟩ := (hr _ _ _ _).1 h₁
    obtain ⟨y, hrest, hpos', hG⟩ := (hf a _ _ _ _).1 h₂
    refine ⟨x ++ y, by rw [hrest, List.append_assoc], ?_, a, x, y, rfl, hF, hG⟩
    rw [hpos', hpos, List.length_append, Nat.add_assoc]
  · rintro ⟨_, rfl, hpos, a, x, y, rfl, hF, hG⟩
    refine ⟨a, ⟨pos + x.length, y ++ c.rest⟩, ?_, (hf a _ _ _ _).2 ⟨y, rfl, ?_, hG⟩⟩
    · rw [List.append_assoc]
      exact hr.at hF pos _
    · rw [hpos, List.length_append, Nat.add_assoc]

theorem Reads.map {r : Reader α} {F : Form α} (g : α → β) (h : r.Reads F) :
    (g <$> r).Reads fun bytes b => ∃ a, F bytes a ∧ b = g a := by
  rw [← bind_pure_comp]
  refine (h.bind fun a => pure_reads (g a)).congr fun bytes b => ?_
  constructor
  · rintro ⟨a, x, y, rfl, hF, rfl, rfl⟩
    exact ⟨a, by rwa [List.append_nil], rfl⟩
  · rintro ⟨a, hF, rfl⟩
    exact ⟨a, bytes, [], (List.append_nil _).symm, hF, rfl, rfl⟩

theorem Reads.position {f : Nat → Reader α} {F : Form α} (h : ∀ n, (f n).Reads F) :
    (Reader.position >>= f).Reads F :=
  fun pos input a c => h pos pos input a c

theorem check_reads (e : Except Fault α) :
    (check e).Reads fun bytes a => bytes = [] ∧ e = .ok a := by
  rcases e with fault | a
  · exact (throw_reads fault).congr fun bytes a => by simp
  · exact (pure_reads a).congr fun bytes b => by simp [eq_comm]

theorem Reads.require {f : Unit → Reader α} {F : Form α} {condition : Bool} {fault : Fault}
    (h : condition = true → (f ()).Reads F) :
    (Reader.require condition fault >>= f).Reads fun bytes a => condition = true ∧ F bytes a := by
  cases condition
  · exact (throw_reads fault).congr fun bytes a => by simp
  · exact (h rfl).congr fun bytes a => by simp

end Combinators

section Bytes

theorem take_reads (n : Nat) : (take n).Reads fun bytes a => a = bytes ∧ bytes.length = n := by
  intro pos input a c
  rcases c with ⟨pos', rest⟩
  unfold take
  simp only
  constructor
  · intro h
    split_ifs at h with hlen
    simp only [EStateM.Result.ok.injEq, Cursor.mk.injEq] at h
    obtain ⟨rfl, rfl, rfl⟩ := h
    exact ⟨input.take n, (List.take_append_drop n input).symm, by rw [hlen], rfl, hlen⟩
  · rintro ⟨bytes, rfl, hpos, rfl, rfl⟩
    rw [if_pos (by simp), List.take_left, List.drop_left]
    simp [hpos]

theorem byte_reads : byte.Reads fun bytes b => bytes = [b] := by
  intro pos input b c
  rcases c with ⟨pos', rest⟩
  rcases input with _ | ⟨b', input⟩
  · simp [byte]
  · simp only [byte, EStateM.Result.ok.injEq, Cursor.mk.injEq]
    constructor
    · rintro ⟨rfl, rfl, rfl⟩
      exact ⟨[b'], rfl, rfl, rfl⟩
    · rintro ⟨_, hin, hpos, rfl⟩
      simp only [List.singleton_append, List.cons.injEq] at hin
      exact ⟨hin.1, hpos.symm, hin.2⟩

theorem number_reads (width : Nat) : (number width).Reads (Number width) := by
  refine ((take_reads width).map LittleEndian.decode).congr fun bytes n => ?_
  rw [Number, LittleEndian.ofDigits_toNat]
  constructor
  · rintro ⟨_, ⟨rfl, hlen⟩, rfl⟩
    exact ⟨hlen, rfl⟩
  · rintro ⟨hlen, rfl⟩
    exact ⟨bytes, ⟨rfl, hlen⟩, rfl⟩

theorem index_reads : index.Reads fun bytes i => Number 2 bytes i.toNat := by
  refine ((number_reads 2).map UInt16.ofNat).congr fun bytes i => ?_
  constructor
  · rintro ⟨n, hn, rfl⟩
    rwa [UInt16.toNat_ofNat_of_lt' hn.lt]
  · intro hi
    exact ⟨i.toNat, hi, UInt16.ofNat_toNat.symm⟩

theorem sized_reads : sized.Reads Sized := by
  refine ((number_reads 4).bind fun n => take_reads n).congr fun bytes a => ?_
  constructor
  · rintro ⟨_, length, _, rfl, hlength, rfl, rfl⟩
    exact ⟨length, rfl, hlength⟩
  · rintro ⟨length, rfl, hlength⟩
    exact ⟨a.length, length, a, rfl, hlength, rfl, rfl⟩

end Bytes

section Lists

variable {item : Nat → Reader α} {F : Form α}

theorem repeatFrom_reads (hitem : ∀ i, (item i).Reads F) :
    ∀ (n : Nat) (done : Array α), (repeatFrom item done n).Reads fun bytes items =>
      ∃ l, items = done ++ l.toArray ∧ l.length = n ∧ Listed F bytes l
  | 0, done => by
    refine (pure_reads done).congr fun bytes items => ?_
    constructor
    · rintro ⟨rfl, rfl⟩
      exact ⟨[], by simp, rfl, .nil⟩
    · rintro ⟨l, rfl, hlen, hl⟩
      rw [List.length_eq_zero_iff] at hlen
      subst hlen
      cases hl
      exact ⟨rfl, by simp⟩
  | n + 1, done => by
    refine ((hitem _).bind fun a => repeatFrom_reads hitem n (done.push a)).congr
      fun bytes items => ?_
    constructor
    · rintro ⟨a, x, y, rfl, hx, l, rfl, hlen, hl⟩
      exact ⟨a :: l, by simp, by rw [List.length_cons, hlen], .cons hx hl⟩
    · rintro ⟨l, rfl, hlen, hl⟩
      rcases hl with _ | @⟨x, y, a, l, hx, hl⟩
      · simp at hlen
      · exact ⟨a, x, y, rfl, hx, l, by simp, by simpa using hlen, hl⟩

theorem repeated_reads (n : Nat) (hitem : ∀ i, (item i).Reads F) :
    (repeated n item).Reads fun bytes items =>
      items.size = n ∧ Listed F bytes items.toList := by
  refine (repeatFrom_reads hitem n #[]).congr fun bytes items => ?_
  constructor
  · rintro ⟨l, rfl, hlen, hl⟩
    simp [hlen, hl]
  · rintro ⟨hlen, hl⟩
    exact ⟨items.toList, by simp, hlen, hl⟩

end Lists

section Counts

theorem lt_room_last {most g : Nat} (hg : g < 128) : g < 16 * 128 ^ most ↔ ¬ most = 0 ∨ g < 16 := by
  rcases most with _ | m
  · simp
  · have : 0 < 128 ^ m := Nat.pow_pos (by decide)
    rw [Nat.pow_succ]
    omega

theorem lt_room_more {most g n : Nat} (hg : g < 128) (h : most ≠ 0) :
    g + 128 * n < 16 * 128 ^ most ↔ n < 16 * 128 ^ (most - 1) := by
  obtain ⟨m, rfl⟩ := Nat.exists_eq_succ_of_ne_zero h
  rw [Nat.succ_sub_one, Nat.pow_succ]
  omega

/-- The digits still allowed leave room for what `most` bytes can hold of 32 bits. -/
theorem readGroups_reads (start : Nat) :
    ∀ most weight value : Nat, (Varint.readGroups start most weight value).Reads fun bytes v =>
      ∃ n, Leb128 bytes n ∧ bytes.length ≤ most ∧ n < 16 * 128 ^ (most - 1)
        ∧ v = UInt32.ofNat (value + n * weight)
  | 0, weight, value => by
    refine (throw_reads _).congr fun bytes v => ?_
    simp only [false_iff, not_exists, not_and]
    intro n h hlen
    exact absurd (List.length_eq_zero_iff.1 (Nat.le_zero.1 hlen)) h.ne_nil
  | most + 1, weight, value => by
    have hrest : ∀ b : UInt8,
        (if b.toNat < 128 then pure (UInt32.ofNat (value + b.toNat % 128 * weight))
          else Varint.readGroups start most (weight * 128) (value + b.toNat % 128 * weight) :
          Reader UInt32).Reads fun y v =>
            if b.toNat < 128 then y = [] ∧ v = UInt32.ofNat (value + b.toNat % 128 * weight)
            else ∃ n, Leb128 y n ∧ y.length ≤ most ∧ n < 16 * 128 ^ (most - 1)
              ∧ v = UInt32.ofNat (value + b.toNat % 128 * weight + n * (weight * 128)) := by
      intro b
      split_ifs
      · exact pure_reads _
      · exact readGroups_reads start most _ _
    unfold Varint.readGroups
    refine (byte_reads.bind fun b => Reads.require fun _ => hrest b).congr fun bytes v => ?_
    simp only [Nat.add_sub_cancel, Bool.or_eq_true, bne_iff_ne, ne_eq, decide_eq_true_eq]
    constructor
    · rintro ⟨b, _, y, rfl, rfl, hlast, hy⟩
      split_ifs at hy with hsmall
      · obtain ⟨rfl, rfl⟩ := hy
        rw [Nat.mod_eq_of_lt hsmall] at hlast ⊢
        exact ⟨b.toNat, .last hsmall, by simp, (lt_room_last hsmall).2 hlast, rfl⟩
      · obtain ⟨n, hn, hlen, hlt, rfl⟩ := hy
        have hb := b.toNat_lt
        have hmost : most ≠ 0 := fun h => hn.ne_nil (List.length_eq_zero_iff.1 (by omega))
        refine ⟨_, .more (by omega) hn, by simpa using hlen,
          (lt_room_more (by omega) hmost).2 hlt, ?_⟩
        rw [show b.toNat % 128 = b.toNat - 128 by omega]
        congr 1
        ring
    · rintro ⟨n, hn, hlen, hlt, rfl⟩
      rcases hn with @⟨b, hsmall⟩ | @⟨b, y, n, hbig, hn⟩
      · refine ⟨b, [b], [], rfl, rfl, ?_, ?_⟩ <;> rw [Nat.mod_eq_of_lt hsmall]
        · exact (lt_room_last hsmall).1 hlt
        · rw [if_pos hsmall]
          exact ⟨rfl, rfl⟩
      · have hb := b.toNat_lt
        have hlen' : y.length ≤ most := by simpa using hlen
        have hmost : most ≠ 0 := fun h => hn.ne_nil (List.length_eq_zero_iff.1 (by omega))
        refine ⟨b, [b], y, rfl, rfl, .inl hmost, ?_⟩
        rw [if_neg (by omega), show b.toNat % 128 = b.toNat - 128 by omega]
        refine ⟨n, hn, hlen', (lt_room_more (by omega) hmost).1 hlt, ?_⟩
        congr 1
        ring

/-- A number of variable length is a count, and nothing else is. -/
theorem varint_reads : Varint.read.Reads fun bytes v => Count bytes v.toNat := by
  refine (Reads.position fun start => readGroups_reads start 5 1 0).congr fun bytes v => ?_
  constructor
  · rintro ⟨n, hn, hlen, hlt, rfl⟩
    have hval : (UInt32.ofNat (0 + n * 1)).toNat = n := by
      rw [Nat.zero_add, Nat.mul_one]
      exact UInt32.toNat_ofNat_of_lt' hlt
    rw [hval]
    exact ⟨hn, hlen, hlt⟩
  · rintro ⟨hn, hlen, hlt⟩
    refine ⟨v.toNat, hn, hlen, hlt, ?_⟩
    rw [Nat.zero_add, Nat.mul_one, UInt32.ofNat_toNat]

theorem count_reads : count.Reads Count := by
  refine (varint_reads.map UInt32.toNat).congr fun bytes n => ?_
  constructor
  · rintro ⟨v, hv, rfl⟩
    exact hv
  · intro h
    have hval : (UInt32.ofNat n).toNat = n := UInt32.toNat_ofNat_of_lt' h.2.2
    exact ⟨UInt32.ofNat n, by rwa [hval], hval.symm⟩

theorem counted_reads {item : Nat → Reader α} {F : Form α} (max : Nat)
    (tooMany : Nat → Nat → Fault) (hitem : ∀ i, (item i).Reads F) :
    (counted max tooMany item).Reads fun bytes items =>
      items.size ≤ max ∧ Counted F bytes items.toList := by
  refine (count_reads.bind fun n => Reads.require fun _ =>
    repeated_reads n hitem).congr fun bytes items => ?_
  constructor
  · rintro ⟨n, x, y, rfl, hx, hmax, rfl, hy⟩
    exact ⟨by simpa using hmax, x, y, rfl, hx, hy⟩
  · rintro ⟨hmax, x, y, rfl, hx, hy⟩
    exact ⟨items.size, x, y, rfl, hx, by simpa using hmax, rfl, hy⟩

end Counts

end Reader

end ClassLoading
