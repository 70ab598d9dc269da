import ClassLoading.Bytes.LittleEndian

/-!
# Byte stores

A store holds a byte at every address; all but finitely many are zero. Eight bytes in a row make a
word, and the words are kept in a binary tree over the digits of their number, so a large range
costs no more than what is written to it. All that can be seen of a store is `word`, or `get` where
bytes are meant, and what every other operation does is said in terms of these two.
-/

namespace ClassLoading

inductive Store where
  | blank
  | node (first : UInt64) (odd even : Store)

namespace Store

/-- The word of a number. Word zero lies in the root, those of odd number in the left half and the
other even ones in the right half. -/
def word : Store → Nat → UInt64
  | blank, _ => 0
  | node first odd even, i =>
    if i = 0 then first
    else if i % 2 = 1 then odd.word (i / 2)
    else even.word (i / 2 - 1)

/-- The word at the root. -/
def first : Store → UInt64
  | blank => 0
  | node first _ _ => first

/-- The words of odd number. -/
def odds : Store → Store
  | blank => blank
  | node _ odd _ => odd

/-- The words of even number, without the first. -/
def evens : Store → Store
  | blank => blank
  | node _ _ even => even

/-- The store with another word in place of one. -/
def setWord (s : Store) (i : Nat) (w : UInt64) : Store :=
  if i = 0 then node w s.odds s.evens
  else if i % 2 = 1 then node s.first (s.odds.setWord (i / 2) w) s.evens
  else node s.first s.odds (s.evens.setWord (i / 2 - 1) w)
  termination_by i

@[simp] theorem word_blank (i : Nat) : blank.word i = 0 := by
  rw [word]

theorem word_eq (s : Store) (i : Nat) :
    s.word i = if i = 0 then s.first else if i % 2 = 1 then s.odds.word (i / 2)
      else s.evens.word (i / 2 - 1) := by
  cases s with
  | blank => simp [first, odds, evens]
  | node first odd even => rw [word, Store.first, odds, evens]

theorem word_setWord (s : Store) (i : Nat) (w : UInt64) (k : Nat) :
    (s.setWord i w).word k = if k = i then w else s.word k := by
  induction i using Nat.strongRecOn generalizing s k with
  | ind i ih =>
    rw [setWord, word_eq s k]
    by_cases hi : i = 0
    · by_cases hk : k = 0 <;> simp [word, hi, hk]
    · by_cases hodd : i % 2 = 1
      · rw [if_neg hi, if_pos hodd, word]
        by_cases hk : k = 0
        · simp [hk, Ne.symm hi]
        · by_cases hkodd : k % 2 = 1
          · have : k / 2 = i / 2 ↔ k = i := by omega
            simp [hk, hkodd, ih (i / 2) (by omega), this]
          · have : ¬ k = i := by omega
            simp [hk, hkodd, this]
      · rw [if_neg hi, if_neg hodd, word]
        by_cases hk : k = 0
        · simp [hk, Ne.symm hi]
        · by_cases hkodd : k % 2 = 1
          · have : ¬ k = i := by omega
            simp [hk, hkodd, this]
          · have : k / 2 - 1 = i / 2 - 1 ↔ k = i := by omega
            simp [hk, hkodd, ih (i / 2 - 1) (by omega), this]

/-- The bytes of a word, lowest address first. -/
def bytesOf (w : UInt64) : List UInt8 :=
  LittleEndian.encode 8 w.toNat

/-- The word of eight bytes. -/
def ofBytes (bytes : List UInt8) : UInt64 :=
  UInt64.ofNat (LittleEndian.decode bytes)

@[simp] theorem length_bytesOf (w : UInt64) : (bytesOf w).length = 8 :=
  LittleEndian.length_encode 8 _

theorem bytesOf_ofBytes {bytes : List UInt8} (h : bytes.length = 8) :
    bytesOf (ofBytes bytes) = bytes := by
  have hlt := LittleEndian.decode_lt bytes
  have heq := LittleEndian.encode_decode bytes
  rw [h] at hlt heq
  rw [bytesOf, ofBytes, UInt64.toNat_ofNat_of_lt' hlt, heq]

/-- The byte at an address. -/
def get (s : Store) (a : Nat) : UInt8 :=
  (bytesOf (s.word (a / 8))).getD (a % 8) 0

/-- The store with another byte at an address. -/
def set (s : Store) (a : Nat) (b : UInt8) : Store :=
  s.setWord (a / 8) (ofBytes ((bytesOf (s.word (a / 8))).set (a % 8) b))

theorem get_of_word_zero {s : Store} {a : Nat} (h : s.word (a / 8) = 0) : s.get a = 0 := by
  have hbytes : ∀ j < 8, (bytesOf 0).getD j 0 = 0 := by decide
  rw [get, h]
  exact hbytes _ (Nat.mod_lt a (by decide))

@[simp] theorem get_blank (a : Nat) : blank.get a = 0 :=
  get_of_word_zero (word_blank _)

theorem get_set (s : Store) (a : Nat) (b : UInt8) (k : Nat) :
    (s.set a b).get k = if k = a then b else s.get k := by
  rw [get, set, word_setWord]
  by_cases hword : k / 8 = a / 8
  · rw [if_pos hword, bytesOf_ofBytes (by simp), get, hword, List.getD_eq_getElem?_getD,
      List.getD_eq_getElem?_getD, List.getElem?_set]
    have hlt : a % 8 < 8 := by omega
    by_cases hk : k = a
    · simp [hk, hlt]
    · have : ¬ a % 8 = k % 8 := by omega
      simp [hk, this]
  · have : ¬ k = a := fun h => hword (h ▸ rfl)
    rw [if_neg hword, if_neg this, get]

/-- The bytes at `n` addresses from `a` on. -/
def read (s : Store) (a n : Nat) : List UInt8 :=
  (List.range n).map fun k => s.get (a + k)

/-- The store with the bytes from address `a` on replaced by others. -/
def write (s : Store) (a : Nat) : List UInt8 → Store
  | [] => s
  | b :: rest => (s.set a b).write (a + 1) rest

@[simp] theorem length_read (s : Store) (a n : Nat) : (s.read a n).length = n := by
  simp [read]

theorem get_write (s : Store) (a : Nat) (bytes : List UInt8) (k : Nat) :
    (s.write a bytes).get k =
      if a ≤ k ∧ k < a + bytes.length then bytes.getD (k - a) 0 else s.get k := by
  induction bytes generalizing s a with
  | nil => simp [write, show ¬ (a ≤ k ∧ k < a) by omega]
  | cons b rest ih =>
    rw [write, ih, get_set]
    by_cases hk : k = a
    · subst hk
      simp [show ¬ k + 1 ≤ k by omega]
    · by_cases hin : a + 1 ≤ k ∧ k < a + 1 + rest.length
      · have hout : a ≤ k ∧ k < a + (b :: rest).length := by
          rw [List.length_cons]
          omega
        have hstep : k - a = k - (a + 1) + 1 := by omega
        rw [if_pos hin, if_pos hout, hstep, List.getD_cons_succ]
      · have hout : ¬ (a ≤ k ∧ k < a + (b :: rest).length) := by
          rw [List.length_cons]
          omega
        rw [if_neg hin, if_neg hout, if_neg hk]

end Store

end ClassLoading
