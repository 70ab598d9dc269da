import ClassLoading.Proofs.ClassForm

/-!
# Decoding under limits

A limit is asked once, behind the count of its section and before the first item. So under limits a
class is read as it is without them, until a count is above its limit, and then the fault tells that
count (`Reader.Restricts`). Limits turn classes away and do nothing else, and higher ones turn away
fewer (`Class.decode_limited`).
-/

namespace ClassLoading

namespace Limits

/-- A fault that tells of a count above its limit. -/
inductive Exceeded (limits : Limits) : Fault → Prop
  | constants {count : Nat} : limits.constants < count →
    Exceeded limits (.poolTooLarge count limits.constants)
  | fields {count : Nat} : limits.fields < count →
    Exceeded limits (.tooManyFields count limits.fields)
  | methods {count : Nat} : limits.methods < count →
    Exceeded limits (.tooManyMethods count limits.methods)

instance : LE Limits where
  le limits limits' := limits.constants ≤ limits'.constants ∧ limits.fields ≤ limits'.fields
    ∧ limits.methods ≤ limits'.methods

end Limits

theorem Class.Within.mono {c : Class} {limits limits' : Limits} (h : c.Within limits)
    (hle : limits ≤ limits') : c.Within limits' :=
  ⟨h.1.trans hle.1, h.2.1.trans hle.2.1, h.2.2.trans hle.2.2⟩

namespace Reader

variable {α β : Type} {r s : Reader α} {refusal : Fault → Prop}

/-- A reader that answers as another one does, or refuses with a fault of some kind. -/
def Restricts (r s : Reader α) (refusal : Fault → Prop) : Prop :=
  ∀ c, r c = s c ∨ ∃ fault c', r c = .error fault c' ∧ refusal fault

theorem Restricts.refl (r : Reader α) : r.Restricts r refusal :=
  fun _ => .inl rfl

/-- What follows a reader need only restrict what follows the other one on values that this one
can yield. -/
theorem Restricts.bind (h : r.Restricts s refusal) {f g : α → Reader β}
    (hf : ∀ {a c c'}, s c = .ok a c' → (f a).Restricts (g a) refusal) :
    (r >>= f).Restricts (s >>= g) refusal := by
  intro c
  -- Either the first reader refuses, and so do both in a row, or the two have come to one state.
  rcases h c with heq | ⟨fault, c', herror, hrefusal⟩
  · rcases hs : s c with ⟨a, c'⟩ | ⟨fault, c'⟩ <;> rw [hs] at heq
    · rw [bind_ok heq, bind_ok hs]
      exact hf hs c'
    · rw [bind_error heq, bind_error hs]
      exact .inl rfl
  · exact .inr ⟨fault, c', bind_error herror, hrefusal⟩

theorem Restricts.map (h : r.Restricts s refusal) (g : α → β) :
    (g <$> r).Restricts (g <$> s) refusal := by
  rw [← bind_pure_comp, ← bind_pure_comp]
  exact h.bind fun _ => .refl _

theorem require_restricts {condition : Bool} {fault : Fault} (h : condition = false → refusal fault)
    (fault' : Fault) : (require condition fault).Restricts (require true fault') refusal := by
  intro c
  cases condition with
  | false => exact .inr ⟨fault, c, rfl, h rfl⟩
  | true => exact .inl rfl

theorem count_lt {n : Nat} {c c' : Cursor} (h : count c = .ok n c') : n < 2 ^ 32 := by
  obtain ⟨bytes, -, -, hcount⟩ := (count_reads _ _ _ _).1 h
  exact hcount.2.2

/-- A limit that no count reaches makes a reader of a counted list one without a limit. -/
theorem counted_restricts {max most : Nat} (hmost : 2 ^ 32 ≤ most + 1)
    {tooMany : (count max : Nat) → Fault} (h : ∀ n, max < n → refusal (tooMany n max))
    (item : Nat → Reader α) :
    (counted max tooMany item).Restricts (counted most tooMany item) refusal := by
  refine (Restricts.refl count).bind fun {n c c'} hcount => ?_
  have hle : decide (n ≤ most) = true := by
    have hlt := count_lt hcount
    exact decide_eq_true (by omega)
  rw [hle]
  refine (require_restricts (fun hfalse => h n ?_) _).bind fun _ => .refl _
  exact Nat.lt_of_not_le (of_decide_eq_false hfalse)

theorem read_restricts (limits : Limits) :
    (Class.read limits).Restricts (Class.read .unlimited) limits.Exceeded := by
  have hmost : 2 ^ 32 ≤ (1 <<< 64) - 1 + 1 := by decide
  refine (Restricts.refl _).bind fun _ => ?_
  refine ((counted_restricts hmost (fun _ => .constants) _).map Pool.mk).bind fun {pool _ _} _ => ?_
  refine (Restricts.refl _).bind fun _ => ?_
  refine (counted_restricts hmost (fun _ => .fields) _).bind fun _ => ?_
  refine (counted_restricts hmost (fun _ => .methods) _).bind fun _ => ?_
  exact .refl _

end Reader

namespace Class

theorem decode_restricts (bytes : List UInt8) (limits : Limits) :
    decode bytes limits = decode bytes .unlimited
      ∨ ∃ fault, decode bytes limits = .error fault ∧ limits.Exceeded fault := by
  unfold decode
  rcases Reader.read_restricts limits (Cursor.start bytes) with heq | ⟨fault, c, herror, hexceeded⟩
  · rw [heq]
    exact .inl rfl
  · rw [herror]
    exact .inr ⟨fault, rfl, hexceeded⟩

theorem decode_eq_ok_iff_unlimited {bytes : List UInt8} {limits : Limits} {c : Class} :
    decode bytes limits = .ok c ↔ decode bytes .unlimited = .ok c ∧ c.Within limits := by
  rw [decode_iff, decode_iff]
  exact ⟨fun h => ⟨⟨h.1, h.1.within⟩, h.2⟩, fun h => ⟨h.1.1, h.2⟩⟩

/-- Under limits a class is decoded just where it is without them and keeps within them; where it is
not, the fault is the same, or tells of a count above its limit. So higher limits take nothing
away. -/
theorem decode_limited (bytes : List UInt8) (limits : Limits) :
    (∀ c, decode bytes limits = .ok c ↔ decode bytes .unlimited = .ok c
        ∧ c.pool.size ≤ limits.constants ∧ c.fields.size ≤ limits.fields
        ∧ c.methods.size ≤ limits.methods)
      ∧ (∀ fault, decode bytes limits = .error fault →
        decode bytes .unlimited = .error fault ∨ limits.Exceeded fault)
      ∧ ∀ limits', limits ≤ limits' → ∀ c, decode bytes limits = .ok c →
        decode bytes limits' = .ok c := by
  refine ⟨fun c => decode_eq_ok_iff_unlimited, fun fault hfault => ?_, fun limits' hle c hok => ?_⟩
  · rcases decode_restricts bytes limits with heq | ⟨fault', herror, hexceeded⟩
    · exact .inl (heq ▸ hfault)
    · rw [hfault, Except.error.injEq] at herror
      exact .inr (herror ▸ hexceeded)
  · obtain ⟨hunlimited, hwithin⟩ := decode_eq_ok_iff_unlimited.1 hok
    exact decode_eq_ok_iff_unlimited.2 ⟨hunlimited, hwithin.mono hle⟩

/-- A class of one constant and one field. -/
def singleField : List UInt8 :=
  [0x24, 0x47, 0x4C, 0x52, 1, 1, 1, 3, 1, 0, 0, 0, 0x41, 1, 0, 0, 0, 1, 0, 0, 0]

/-- With one field allowed the class is decoded as it is without limits, with none its field is one
too many. -/
theorem decode_limited_singleField :
    ∃ c, decode singleField ⟨1, 1, 0⟩ = .ok c ∧ decode singleField .unlimited = .ok c
      ∧ decode singleField {} = .ok c
      ∧ decode singleField ⟨1, 0, 0⟩ = .error (.tooManyFields 1 0)
      ∧ Limits.Exceeded ⟨1, 0, 0⟩ (.tooManyFields 1 0) := by
  obtain ⟨c, hok⟩ : ∃ c, decode singleField ⟨1, 1, 0⟩ = .ok c := ⟨_, rfl⟩
  obtain ⟨hdecode, -, hmono⟩ := decode_limited singleField ⟨1, 1, 0⟩
  have hunlimited := ((hdecode c).1 hok).1
  have hfew : decode singleField ⟨1, 0, 0⟩ = .error (.tooManyFields 1 0) := rfl
  refine ⟨c, hok, hunlimited, hmono {} ⟨by decide, by decide, by decide⟩ c hok, hfew, ?_⟩
  rcases (decode_limited singleField ⟨1, 0, 0⟩).2.1 _ hfew with hfault | hexceeded
  · rw [hunlimited] at hfault
    cases hfault
  · exact hexceeded

end Class

end ClassLoading
