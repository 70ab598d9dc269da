import Mathlib.Logic.ExistsUnique
import Mathlib.Logic.Function.Basic
import Mathlib.Tactic.SplitIfs
import ClassLoading.NameHash

/-!
# Name hashes as permutations

Mixing a byte into a hash can be undone: the prime has an inverse among the 32-bit numbers, and what
was mixed in is taken out by mixing it in again. So every byte string permutes the states, and strings
one behind the other act one after the other.

Therefore names with the same end share a hash just where what stands before it does, and names of
one length that differ in a single byte never share one (`hash_permutes`).
-/

namespace ClassLoading.NameHash

/-- The inverse of the prime. -/
def inverse : UInt32 := 0x359C449B

/-- The state before a byte was mixed in. -/
def unstep (state : UInt32) (b : UInt8) : UInt32 :=
  (state * inverse) ^^^ b.toUInt32

/-- The state before some bytes; the last one is taken out first. -/
def undo (state : UInt32) (bytes : List UInt8) : UInt32 :=
  bytes.foldr (fun b state => unstep state b) state

/-- As many bytes, of which exactly one is another. -/
def DifferOnce (x y : List UInt8) : Prop :=
  x.length = y.length ∧ ∃! i : Nat, x[i]? ≠ y[i]?

section Steps

variable (state : UInt32) (b : UInt8)

theorem prime_mul_inverse : prime * inverse = 1 :=
  rfl

theorem unstep_step : unstep (step state b) b = state := by
  rw [unstep, step, UInt32.mul_assoc, prime_mul_inverse, UInt32.mul_one, UInt32.xor_assoc,
    UInt32.xor_self, UInt32.xor_zero]

theorem step_unstep : step (unstep state b) b = state := by
  rw [unstep, step, UInt32.xor_assoc, UInt32.xor_self, UInt32.xor_zero, UInt32.mul_assoc,
    UInt32.mul_comm inverse, prime_mul_inverse, UInt32.mul_one]

/-- Different bytes lead to different states. -/
theorem step_inj {a b : UInt8} : step state a = step state b ↔ a = b := by
  refine ⟨fun h => ?_, fun h => h ▸ rfl⟩
  have hmixed := congrArg (· * inverse) h
  simpa [step, UInt32.mul_assoc, prime_mul_inverse, UInt8.toUInt32_inj] using hmixed

end Steps

section Strings

variable (state : UInt32)

theorem update_cons (b : UInt8) (bytes : List UInt8) :
    update state (b :: bytes) = update (step state b) bytes :=
  rfl

theorem update_append (x y : List UInt8) :
    update state (x ++ y) = update (update state x) y := by
  simp [update]

theorem update_flatten (parts : List (List UInt8)) :
    parts.foldl update state = update state parts.flatten :=
  List.foldl_flatten.symm

theorem undo_update : ∀ (bytes : List UInt8) (state : UInt32), undo (update state bytes) bytes = state
  | [], _ => rfl
  | b :: bytes, state => by
    have ih := undo_update bytes (step state b)
    simp only [undo, update_cons, List.foldr_cons] at ih ⊢
    rw [ih, unstep_step]

theorem update_undo : ∀ (bytes : List UInt8) (state : UInt32), update (undo state bytes) bytes = state
  | [], _ => rfl
  | b :: bytes, state => by
    have ih := update_undo bytes state
    simp only [undo, update_cons, List.foldr_cons] at ih ⊢
    rw [step_unstep, ih]

theorem update_bijective (bytes : List UInt8) : Function.Bijective fun state => update state bytes :=
  Function.bijective_iff_has_inverse.2 ⟨fun state => undo state bytes, undo_update bytes,
    update_undo bytes⟩

theorem update_inj {state state' : UInt32} (bytes : List UInt8) :
    update state bytes = update state' bytes ↔ state = state' :=
  (update_bijective bytes).injective.eq_iff

theorem hash_append_inj {x y : List UInt8} (suffix : List UInt8) :
    hash (x ++ suffix) = hash (y ++ suffix) ↔ hash x = hash y := by
  simp only [hash, update_append, update_inj]

/-- What stands before and behind the one byte is the same. -/
theorem DifferOnce.exists_split {x y : List UInt8} (h : DifferOnce x y) :
    ∃ before a b behind, a ≠ b ∧ x = before ++ a :: behind ∧ y = before ++ b :: behind := by
  obtain ⟨hlen, i, hne, honly⟩ := h
  have hsame : ∀ j : Nat, j ≠ i → x[j]? = y[j]? := fun j hj =>
    not_not.1 fun hne' => hj (honly j hne')
  have hi : i < x.length := by
    by_contra hge
    exact hne (by simp [hge, ← hlen])
  have hi' : i < y.length := hlen ▸ hi
  have hbefore : x.take i = y.take i := by
    refine List.ext_getElem? fun j => ?_
    rw [List.getElem?_take, List.getElem?_take]
    split_ifs with hj
    · exact hsame j (Nat.ne_of_lt hj)
    · rfl
  have hbehind : x.drop (i + 1) = y.drop (i + 1) := by
    refine List.ext_getElem? fun j => ?_
    simpa using hsame (i + 1 + j) (by omega)
  refine ⟨x.take i, x[i], y[i], x.drop (i + 1), ?_, ?_, ?_⟩
  · simpa [hi, hi'] using hne
  · simp
  · simp [hbefore, hbehind]

theorem hash_ne_of_ne {before behind : List UInt8} {a b : UInt8} (h : a ≠ b) :
    hash (before ++ a :: behind) ≠ hash (before ++ b :: behind) := by
  simpa only [hash, update_append, update_cons, ne_eq, update_inj, step_inj] using h

end Strings

/-- Parts are hashed as the whole, and every string permutes the states. A common end has no part in
whether two hashes are equal, and a single byte that differs makes them differ. -/
theorem hash_permutes :
    (∀ parts : List (List UInt8), parts.foldl update initial = hash parts.flatten)
    ∧ (∀ bytes, Function.Bijective fun state => update state bytes)
    ∧ (∀ x y suffix, hash (x ++ suffix) = hash (y ++ suffix) ↔ hash x = hash y)
    ∧ ∀ x y, DifferOnce x y → hash x ≠ hash y := by
  refine ⟨update_flatten initial, update_bijective, fun _ _ => hash_append_inj, fun x y h => ?_⟩
  obtain ⟨before, a, b, behind, hne, rfl, rfl⟩ := h.exists_split
  exact hash_ne_of_ne hne

/-- The names `List` and `list`. -/
theorem hash_permutes_capital :
    DifferOnce [0x4C, 0x69, 0x73, 0x74] [0x6C, 0x69, 0x73, 0x74]
    ∧ hash [0x4C, 0x69, 0x73, 0x74] ≠ hash [0x6C, 0x69, 0x73, 0x74] := by
  have hone : DifferOnce [0x4C, 0x69, 0x73, 0x74] [0x6C, 0x69, 0x73, 0x74] := by
    refine ⟨rfl, 0, by simp, fun i hi => ?_⟩
    rcases i with _ | i
    · rfl
    · simp at hi
  exact ⟨hone, hash_permutes.2.2.2 _ _ hone⟩

end ClassLoading.NameHash
