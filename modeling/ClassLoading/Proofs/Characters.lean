import Mathlib.Tactic.SplitIfs
import ClassLoading.Text.Utf8

/-!
# Reading characters back

Decoding undoes encoding, character by character (`decodeFrom_encodeChar`), and accepts nothing
else: what it accepts is the encoding of what it answers (`decode_eq_ok_iff`).
-/

namespace ClassLoading.Utf8

section Lead

variable {b : Nat}

theorem lead_of_one (h : b < 0x80) : lead b = .whole := by
  unfold lead
  rw [if_pos h]

theorem lead_of_two (h : 0xC2 ≤ b) (h' : b < 0xE0) : lead b = .opens 1 (b - 0xC0) 0x80 0xBF := by
  unfold lead
  rw [if_neg (by omega), if_neg (by omega), if_pos h']

theorem lead_of_three (h : 0xE0 ≤ b) (h' : b < 0xF0) :
    lead b = .opens 2 (b - 0xE0) (if b = 0xE0 then 0xA0 else 0x80)
      (if b = 0xED then 0x9F else 0xBF) := by
  unfold lead
  rw [if_neg (by omega), if_neg (by omega), if_neg (by omega), if_pos h']

theorem lead_of_four (h : 0xF0 ≤ b) (h' : b < 0xF5) :
    lead b = .opens 3 (b - 0xF0) (if b = 0xF0 then 0x90 else 0x80)
      (if b = 0xF4 then 0x8F else 0xBF) := by
  unfold lead
  rw [if_neg (by omega), if_neg (by omega), if_neg (by omega), if_neg (by omega), if_pos h']

theorem lead_cases (b : Nat) :
    b < 0x80 ∨ (0xC2 ≤ b ∧ b < 0xE0) ∨ (0xE0 ≤ b ∧ b < 0xF0) ∨ (0xF0 ≤ b ∧ b < 0xF5)
      ∨ lead b = .invalid := by
  unfold lead
  split_ifs
  · exact .inl (by omega)
  · exact .inr (.inr (.inr (.inr rfl)))
  · exact .inr (.inl (by omega))
  · exact .inr (.inr (.inl (by omega)))
  · exact .inr (.inr (.inr (.inl (by omega))))
  · exact .inr (.inr (.inr (.inr rfl)))

end Lead

section Steps

variable {i : Nat} {p : Unfinished} {done : List Char} {b : UInt8} {rest : List UInt8}

theorem decodeFrom_whole (h : lead b.toNat = .whole) :
    decodeFrom i none done (b :: rest)
      = decodeFrom (i + 1) none (Char.ofNat b.toNat :: done) rest := by
  simp only [decodeFrom, h]

theorem decodeFrom_opens {owed value low high : Nat}
    (h : lead b.toNat = .opens owed value low high) :
    decodeFrom i none done (b :: rest)
      = decodeFrom (i + 1) (some ⟨i, 1, owed, value, low, high⟩) done rest := by
  simp only [decodeFrom, h]

theorem decodeFrom_owed (h : p.low ≤ b.toNat) (h' : b.toNat ≤ p.high) (ho : p.owed ≠ 1) :
    decodeFrom i (some p) done (b :: rest) = decodeFrom (i + 1)
      (some ⟨p.start, p.taken + 1, p.owed - 1, 64 * p.value + b.toNat % 64, 0x80, 0xBF⟩)
      done rest := by
  simp only [decodeFrom, if_pos (And.intro h h'), if_neg ho]

theorem decodeFrom_last (h : p.low ≤ b.toNat) (h' : b.toNat ≤ p.high) (ho : p.owed = 1) :
    decodeFrom i (some p) done (b :: rest)
      = decodeFrom (i + 1) none (Char.ofNat (64 * p.value + b.toNat % 64) :: done) rest := by
  simp only [decodeFrom, if_pos (And.intro h h'), if_pos ho]

theorem exists_of_decodeFrom_some {bytes : List UInt8} {chars : List Char}
    (h : decodeFrom i (some p) done bytes = .ok chars) :
    ∃ b rest, bytes = b :: rest ∧ p.low ≤ b.toNat ∧ b.toNat ≤ p.high := by
  rcases bytes with _ | ⟨b, rest⟩
  · simp [decodeFrom] at h
  · by_cases hb : p.low ≤ b.toNat ∧ b.toNat ≤ p.high
    · exact ⟨b, rest, rfl, hb⟩
    · simp [decodeFrom, if_neg hb] at h

end Steps

section Encode

theorem ofNat_toNat_eq {n : Nat} {c : Char} (h : n = c.val.toNat) : Char.ofNat n = c := by
  rw [h]
  exact Char.ofNat_toNat c

theorem decodeFrom_encodeChar (c : Char) (i : Nat) (done : List Char) (rest : List UInt8) :
    ∃ i', decodeFrom i none done (String.utf8EncodeChar c ++ rest)
      = decodeFrom i' none (c :: done) rest := by
  have hvalid : c.val.toNat < 0xD800 ∨ 0xDFFF < c.val.toNat ∧ c.val.toNat < 0x110000 := c.valid
  generalize hn : c.val.toNat = n at hvalid
  unfold String.utf8EncodeChar
  simp only [hn]
  split_ifs with h1 h2 h3
  · have hb := UInt8.toNat_ofNat_of_lt' (show n < 256 by omega)
    refine ⟨i + 1, ?_⟩
    rw [List.singleton_append, decodeFrom_whole (lead_of_one (by omega)), hb,
      ofNat_toNat_eq hn.symm]
  · have ha := UInt8.toNat_ofNat_of_lt' (show n / 64 % 0x20 + 0xc0 < 256 by omega)
    have hb := UInt8.toNat_ofNat_of_lt' (show n % 0x40 + 0x80 < 256 by omega)
    refine ⟨i + 2, ?_⟩
    simp only [List.cons_append, List.nil_append]
    rw [decodeFrom_opens (lead_of_two (by omega) (by omega)),
      decodeFrom_last (by simp only; omega) (by simp only; omega) rfl, ha, hb,
      ofNat_toNat_eq (c := c) (by simp only; omega)]
  · have ha := UInt8.toNat_ofNat_of_lt' (show n / 4096 % 0x10 + 0xe0 < 256 by omega)
    have hb := UInt8.toNat_ofNat_of_lt' (show n / 64 % 0x40 + 0x80 < 256 by omega)
    have hc := UInt8.toNat_ofNat_of_lt' (show n % 0x40 + 0x80 < 256 by omega)
    refine ⟨i + 3, ?_⟩
    simp only [List.cons_append, List.nil_append]
    rw [decodeFrom_opens (lead_of_three (by omega) (by omega)),
      decodeFrom_owed (by simp only; split_ifs <;> omega) (by simp only; split_ifs <;> omega)
        (by simp),
      decodeFrom_last (by simp only; omega) (by simp only; omega) rfl, ha, hb, hc,
      ofNat_toNat_eq (c := c) (by simp only; omega)]
  · have ha := UInt8.toNat_ofNat_of_lt' (show n / 262144 % 0x08 + 0xf0 < 256 by omega)
    have hb := UInt8.toNat_ofNat_of_lt' (show n / 4096 % 0x40 + 0x80 < 256 by omega)
    have hc := UInt8.toNat_ofNat_of_lt' (show n / 64 % 0x40 + 0x80 < 256 by omega)
    have hd := UInt8.toNat_ofNat_of_lt' (show n % 0x40 + 0x80 < 256 by omega)
    refine ⟨i + 4, ?_⟩
    simp only [List.cons_append, List.nil_append]
    rw [decodeFrom_opens (lead_of_four (by omega) (by omega)),
      decodeFrom_owed (by simp only; split_ifs <;> omega) (by simp only; split_ifs <;> omega)
        (by simp),
      decodeFrom_owed (by simp only; omega) (by simp only; omega) (by simp),
      decodeFrom_last (by simp only; omega) (by simp only; omega) rfl, ha, hb, hc, hd,
      ofNat_toNat_eq (c := c) (by simp only; omega)]

theorem decodeFrom_encode :
    ∀ (chars : List Char) (i : Nat) (done : List Char),
      decodeFrom i none done (encode chars) = .ok (done.reverse ++ chars)
  | [], i, done => by simp [encode, decodeFrom]
  | c :: chars, i, done => by
    obtain ⟨i', h⟩ := decodeFrom_encodeChar c i done (encode chars)
    rw [encode, List.flatMap_cons, ← encode, h, decodeFrom_encode chars i' (c :: done),
      List.reverse_cons, List.append_assoc, List.singleton_append]

end Encode

section Accept

theorem val_ofNat {n : Nat} (h : n < 0xD800 ∨ 0xDFFF < n ∧ n < 0x110000) :
    (Char.ofNat n).val.toNat = n := by
  unfold Char.ofNat
  rw [dif_pos h]
  exact UInt32.toNat_ofNatLT

theorem ofNat_eq {n : Nat} {b : UInt8} (h : n = b.toNat) : UInt8.ofNat n = b := by
  rw [h, UInt8.ofNat_toNat]

theorem encodeChar_one {a : UInt8} (ha : a.toNat < 0x80) :
    String.utf8EncodeChar (Char.ofNat a.toNat) = [a] := by
  unfold String.utf8EncodeChar
  simp only [val_ofNat (n := a.toNat) (by omega)]
  rw [if_pos (by omega), ofNat_eq rfl]

variable {a b c d : UInt8}

theorem encodeChar_two (ha : 0xC2 ≤ a.toNat ∧ a.toNat < 0xE0)
    (hb : 0x80 ≤ b.toNat ∧ b.toNat ≤ 0xBF) :
    String.utf8EncodeChar (Char.ofNat (64 * (a.toNat - 0xC0) + b.toNat % 64)) = [a, b] := by
  unfold String.utf8EncodeChar
  simp only [val_ofNat (n := 64 * (a.toNat - 0xC0) + b.toNat % 64) (by omega)]
  rw [if_neg (by omega), if_pos (by omega), ofNat_eq (b := a) (by omega),
    ofNat_eq (b := b) (by omega)]

theorem encodeChar_three (ha : 0xE0 ≤ a.toNat ∧ a.toNat < 0xF0)
    (hb : (if a.toNat = 0xE0 then 0xA0 else 0x80) ≤ b.toNat
      ∧ b.toNat ≤ if a.toNat = 0xED then 0x9F else 0xBF)
    (hc : 0x80 ≤ c.toNat ∧ c.toNat ≤ 0xBF) :
    String.utf8EncodeChar
      (Char.ofNat (64 * (64 * (a.toNat - 0xE0) + b.toNat % 64) + c.toNat % 64)) = [a, b, c] := by
  unfold String.utf8EncodeChar
  split_ifs at hb <;>
    simp only [val_ofNat (n := 64 * (64 * (a.toNat - 0xE0) + b.toNat % 64) + c.toNat % 64)
      (by omega)] <;>
    rw [if_neg (by omega), if_neg (by omega), if_pos (by omega), ofNat_eq (b := a) (by omega),
      ofNat_eq (b := b) (by omega), ofNat_eq (b := c) (by omega)]

theorem encodeChar_four (ha : 0xF0 ≤ a.toNat ∧ a.toNat < 0xF5)
    (hb : (if a.toNat = 0xF0 then 0x90 else 0x80) ≤ b.toNat
      ∧ b.toNat ≤ if a.toNat = 0xF4 then 0x8F else 0xBF)
    (hc : 0x80 ≤ c.toNat ∧ c.toNat ≤ 0xBF) (hd : 0x80 ≤ d.toNat ∧ d.toNat ≤ 0xBF) :
    String.utf8EncodeChar (Char.ofNat
      (64 * (64 * (64 * (a.toNat - 0xF0) + b.toNat % 64) + c.toNat % 64) + d.toNat % 64))
      = [a, b, c, d] := by
  unfold String.utf8EncodeChar
  split_ifs at hb <;>
    simp only [val_ofNat
      (n := 64 * (64 * (64 * (a.toNat - 0xF0) + b.toNat % 64) + c.toNat % 64) + d.toNat % 64)
      (by omega)] <;>
    rw [if_neg (by omega), if_neg (by omega), if_neg (by omega), ofNat_eq (b := a) (by omega),
      ofNat_eq (b := b) (by omega), ofNat_eq (b := c) (by omega), ofNat_eq (b := d) (by omega)]

theorem exists_char_of_decodeFrom {i : Nat} {done : List Char} {b : UInt8} {rest : List UInt8}
    {chars : List Char} (h : decodeFrom i none done (b :: rest) = .ok chars) :
    ∃ c i' rest', b :: rest = String.utf8EncodeChar c ++ rest'
      ∧ decodeFrom i' none (c :: done) rest' = .ok chars := by
  rcases lead_cases b.toNat with hb | ⟨hb, hb'⟩ | ⟨hb, hb'⟩ | ⟨hb, hb'⟩ | hb
  · rw [decodeFrom_whole (lead_of_one hb)] at h
    exact ⟨_, _, rest, by rw [encodeChar_one hb, List.singleton_append], h⟩
  · rw [decodeFrom_opens (lead_of_two hb hb')] at h
    obtain ⟨b₁, r₁, rfl, h₁⟩ := exists_of_decodeFrom_some h
    rw [decodeFrom_last h₁.1 h₁.2 rfl] at h
    exact ⟨_, _, r₁, by rw [encodeChar_two ⟨hb, hb'⟩ h₁]; rfl, h⟩
  · rw [decodeFrom_opens (lead_of_three hb hb')] at h
    obtain ⟨b₁, r₁, rfl, h₁⟩ := exists_of_decodeFrom_some h
    rw [decodeFrom_owed h₁.1 h₁.2 (by simp)] at h
    obtain ⟨b₂, r₂, rfl, h₂⟩ := exists_of_decodeFrom_some h
    rw [decodeFrom_last h₂.1 h₂.2 rfl] at h
    exact ⟨_, _, r₂, by rw [encodeChar_three ⟨hb, hb'⟩ h₁ h₂]; rfl, h⟩
  · rw [decodeFrom_opens (lead_of_four hb hb')] at h
    obtain ⟨b₁, r₁, rfl, h₁⟩ := exists_of_decodeFrom_some h
    rw [decodeFrom_owed h₁.1 h₁.2 (by simp)] at h
    obtain ⟨b₂, r₂, rfl, h₂⟩ := exists_of_decodeFrom_some h
    rw [decodeFrom_owed h₂.1 h₂.2 (by simp)] at h
    obtain ⟨b₃, r₃, rfl, h₃⟩ := exists_of_decodeFrom_some h
    rw [decodeFrom_last h₃.1 h₃.2 rfl] at h
    exact ⟨_, _, r₃, by rw [encodeChar_four ⟨hb, hb'⟩ h₁ h₂ h₃]; rfl, h⟩
  · simp [decodeFrom, hb] at h

theorem encode_of_decodeFrom (n : Nat) :
    ∀ {bytes : List UInt8} {i : Nat} {done chars : List Char}, bytes.length ≤ n →
      decodeFrom i none done bytes = .ok chars →
      ∃ tail, chars = done.reverse ++ tail ∧ bytes = encode tail := by
  induction n with
  | zero =>
    intro bytes i done chars hlen h
    rw [List.length_eq_zero_iff.1 (Nat.le_zero.1 hlen)] at h ⊢
    exact ⟨[], by simpa [decodeFrom] using h.symm, rfl⟩
  | succ n ih =>
    intro bytes i done chars hlen h
    rcases bytes with _ | ⟨b, rest⟩
    · exact ⟨[], by simpa [decodeFrom] using h.symm, rfl⟩
    · obtain ⟨c, i', rest', hsplit, h'⟩ := exists_char_of_decodeFrom h
      have hshort : rest'.length ≤ n := by
        have := congrArg List.length hsplit
        have := c.utf8Size_pos
        simp only [List.length_append, String.length_utf8EncodeChar] at *
        omega
      obtain ⟨tail, rfl, rfl⟩ := ih hshort h'
      refine ⟨c :: tail, by simp, ?_⟩
      rw [hsplit, encode, encode, List.flatMap_cons]

/-- A byte string is accepted just where it encodes the answer. -/
theorem decode_eq_ok_iff {bytes : List UInt8} {chars : List Char} :
    decode bytes = .ok chars ↔ bytes = encode chars := by
  constructor
  · intro h
    obtain ⟨tail, rfl, rfl⟩ := encode_of_decodeFrom bytes.length (Nat.le_refl _) h
    rfl
  · rintro rfl
    exact decodeFrom_encode chars 0 []

end Accept

end ClassLoading.Utf8
