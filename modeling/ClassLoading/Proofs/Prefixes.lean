import ClassLoading.Proofs.ClassForm

/-!
# Class files and what follows them

Readers look at what they take and at nothing behind it (`Reader.Forward`). So an accepted input
stays accepted when bytes are put behind it, and a fault stays the fault it was, unless the input
was too short: then it stays so until the missing bytes are there. Of a whole class file the bytes
behind it are told as such, and a file cut short is told to be truncated and nothing else
(`Class.decode_append`).
-/

namespace ClassLoading

/-- A fault that no further bytes can mend or change. -/
def Fault.Final : Fault → Prop
  | .truncated _ _ _ | .trailingBytes _ _ => False
  | _ => True

theorem Pool.expectText_final {pool : Pool} {index : Nat} :
    ∀ fault, pool.expectText index = .error fault → fault.Final := by
  intro fault h
  unfold Pool.expectText at h
  split at h <;> cases h <;> trivial

theorem Pool.className_final {pool : Pool} : ∀ fault, pool.className = .error fault → fault.Final := by
  intro fault h
  unfold Pool.className at h
  split at h
  · cases h
  · exact Pool.expectText_final fault h

theorem Pool.checkIndex_final {pool : Pool} {index : Nat} :
    ∀ fault, pool.checkIndex index = .error fault → fault.Final := by
  intro fault h
  unfold Pool.checkIndex at h
  split at h <;> cases h
  trivial

namespace Reader

variable {α β : Type}

/-- A fault stays with more bytes behind the input; a truncation counts them, up to what it
needs. -/
def Stays (r : Reader α) (pos : Nat) (input : List UInt8) : Fault → Prop
  | .truncated offset needed available =>
    offset + available = pos + input.length ∧ available < needed
      ∧ ∀ more : List UInt8, more.length < needed - available →
        ∃ c, r ⟨pos, input ++ more⟩ = .error (.truncated offset needed (available + more.length)) c
  | .trailingBytes _ _ => False
  | fault => ∀ more, ∃ c, r ⟨pos, input ++ more⟩ = .error fault c

/-- What a reader answers depends on what it takes alone. -/
structure Forward (r : Reader α) : Prop where
  ok : ∀ {pos : Nat} {input : List UInt8} {a : α} {c : Cursor}, r ⟨pos, input⟩ = .ok a c →
    c.pos + c.rest.length = pos + input.length
      ∧ ∀ more, r ⟨pos, input ++ more⟩ = .ok a ⟨c.pos, c.rest ++ more⟩
  error : ∀ {pos : Nat} {input : List UInt8} {fault : Fault} {c : Cursor},
    r ⟨pos, input⟩ = .error fault c → r.Stays pos input fault

theorem Stays.transfer {r : Reader α} {s : Reader β} {pos pos' : Nat} {input input' : List UInt8}
    {fault : Fault} (h : r.Stays pos input fault)
    (hlen : pos + input.length = pos' + input'.length)
    (herror : ∀ {fault more c}, r ⟨pos, input ++ more⟩ = .error fault c →
      ∃ c', s ⟨pos', input' ++ more⟩ = .error fault c') : s.Stays pos' input' fault := by
  unfold Stays at h ⊢
  split at h
  · obtain ⟨hstop, hlt, hmore⟩ := h
    refine ⟨hstop.trans hlen, hlt, fun more hshort => ?_⟩
    obtain ⟨c, hc⟩ := hmore more hshort
    exact herror hc
  · exact h.elim
  · intro more
    obtain ⟨c, hc⟩ := h more
    exact herror hc

theorem stays_of_final {r : Reader α} {pos : Nat} {input : List UInt8} {fault : Fault}
    (hfinal : fault.Final) (h : ∀ more, ∃ c, r ⟨pos, input ++ more⟩ = .error fault c) :
    r.Stays pos input fault := by
  unfold Stays
  split
  · exact hfinal.elim
  · exact hfinal.elim
  · exact h

theorem Forward.bind {r : Reader α} {f : α → Reader β} (hr : r.Forward)
    (hf : ∀ a, (f a).Forward) : (r >>= f).Forward := by
  constructor
  · intro pos input b c h
    obtain ⟨a, c₁, h₁, h₂⟩ := bind_eq_ok_iff.1 h
    obtain ⟨hlen, hmore⟩ := hr.ok h₁
    obtain ⟨hlen', hmore'⟩ := (hf a).ok h₂
    refine ⟨hlen'.trans hlen, fun more => ?_⟩
    rw [bind_ok (hmore more), hmore' more]
  · intro pos input fault c h
    rcases h₁ : r ⟨pos, input⟩ with ⟨a, c₁⟩ | ⟨fault', c₁⟩
    · rw [bind_ok h₁] at h
      obtain ⟨hlen, hmore⟩ := hr.ok h₁
      exact ((hf a).error h).transfer hlen fun herror => ⟨_, (bind_ok (hmore _)).trans herror⟩
    · rw [bind_error h₁, EStateM.Result.error.injEq] at h
      obtain ⟨rfl, rfl⟩ := h
      exact (hr.error h₁).transfer rfl fun herror => ⟨_, bind_error herror⟩

theorem pure_forward (a : α) : (pure a : Reader α).Forward where
  ok := by
    rintro pos input b c ⟨⟩
    exact ⟨rfl, fun more => rfl⟩
  error := by
    rintro pos input fault c ⟨⟩

theorem throw_forward {fault : Fault} (h : fault.Final) : (throw fault : Reader α).Forward where
  ok := by
    rintro pos input a c ⟨⟩
  error := by
    rintro pos input _ c ⟨⟩
    exact stays_of_final h fun more => ⟨_, rfl⟩

theorem Forward.map {r : Reader α} (g : α → β) (h : r.Forward) : (g <$> r).Forward := by
  rw [← bind_pure_comp]
  exact h.bind fun a => pure_forward (g a)

theorem position_forward : position.Forward where
  ok := by
    rintro pos input b c ⟨⟩
    exact ⟨rfl, fun more => rfl⟩
  error := by
    rintro pos input fault c ⟨⟩

theorem require_forward (condition : Bool) (fault : Fault) (h : fault.Final) :
    (require condition fault).Forward := by
  cases condition
  · exact throw_forward h
  · exact pure_forward ()

theorem check_forward {e : Except Fault α} (h : ∀ fault, e = .error fault → fault.Final) :
    (check e).Forward := by
  rcases e with fault | a
  · exact throw_forward (h fault rfl)
  · exact pure_forward a

section Bytes

theorem take_eq_ok {n pos : Nat} {input : List UInt8} (h : n ≤ input.length) :
    take n ⟨pos, input⟩ = .ok (input.take n) ⟨pos + n, input.drop n⟩ := by
  unfold take
  exact if_pos (List.length_take_of_le h)

theorem take_eq_error {n pos : Nat} {input : List UInt8} (h : input.length < n) :
    take n ⟨pos, input⟩ = .error (.truncated pos n input.length) ⟨pos, input⟩ := by
  unfold take
  refine if_neg fun hlen : (input.take n).length = n => ?_
  rw [List.length_take] at hlen
  omega

theorem take_forward (n : Nat) : (take n).Forward := by
  constructor
  · intro pos input a c h
    by_cases hn : n ≤ input.length
    · rw [take_eq_ok hn, EStateM.Result.ok.injEq] at h
      obtain ⟨rfl, rfl⟩ := h
      refine ⟨by simp only [List.length_drop]; omega, fun more => ?_⟩
      rw [take_eq_ok (by rw [List.length_append]; omega), List.take_append_of_le_length hn,
        List.drop_append_of_le_length hn]
    · rw [take_eq_error (by omega)] at h
      cases h
  · intro pos input fault c h
    by_cases hn : n ≤ input.length
    · rw [take_eq_ok hn] at h
      cases h
    · rw [take_eq_error (by omega), EStateM.Result.error.injEq] at h
      obtain ⟨rfl, rfl⟩ := h
      refine ⟨rfl, by omega, fun more hmore => ⟨⟨pos, input ++ more⟩, ?_⟩⟩
      rw [take_eq_error (by rw [List.length_append]; omega), List.length_append]

theorem byte_forward : byte.Forward := by
  constructor
  · rintro pos (_ | ⟨b, input⟩) a c ⟨⟩
    exact ⟨by simp only [List.length_cons]; omega, fun more => rfl⟩
  · rintro pos (_ | ⟨b, input⟩) fault c ⟨⟩
    refine ⟨rfl, by omega, fun more hmore => ?_⟩
    obtain rfl := List.length_eq_zero_iff.1 (Nat.lt_one_iff.1 hmore)
    exact ⟨_, rfl⟩

theorem number_forward (width : Nat) : (number width).Forward :=
  (take_forward width).map _

theorem index_forward : index.Forward :=
  (number_forward 2).map _

theorem sized_forward : sized.Forward :=
  (number_forward 4).bind fun n => take_forward n

end Bytes

section Lists

variable {item : Nat → Reader α}

theorem repeatFrom_forward (hitem : ∀ i, (item i).Forward) :
    ∀ (n : Nat) (done : Array α), (repeatFrom item done n).Forward
  | 0, done => pure_forward done
  | n + 1, done => (hitem _).bind fun a => repeatFrom_forward hitem n (done.push a)

theorem readGroups_forward (start : Nat) :
    ∀ most weight value : Nat, (Varint.readGroups start most weight value).Forward
  | 0, weight, value => throw_forward trivial
  | most + 1, weight, value => by
    refine byte_forward.bind fun b => (require_forward _ (.varintOverflow start) trivial).bind fun _ => ?_
    split
    · exact pure_forward _
    · exact readGroups_forward start most _ _

theorem count_forward : count.Forward :=
  (position_forward.bind fun start => readGroups_forward start 5 1 0).map _

theorem counted_forward (max : Nat) (tooMany : Nat → Nat → Fault)
    (hfinal : ∀ n, (tooMany n max).Final) (hitem : ∀ i, (item i).Forward) :
    (counted max tooMany item).Forward :=
  count_forward.bind fun n => (require_forward _ _ (hfinal n)).bind fun _ =>
    repeatFrom_forward hitem n #[]

end Lists

section Parts

theorem header_forward : Header.read.Forward :=
  (take_forward 4).bind fun found => (require_forward _ (.badMagic found) trivial).bind
    fun _ => byte_forward.bind fun version =>
      (require_forward _ (.unsupportedVersion version) trivial).bind fun _ =>
        byte_forward.bind fun b => (require_forward _ (.badAccess b) trivial).bind
          fun _ => pure_forward _

theorem constant_forward (position : Nat) : (Constant.read position).Forward := by
  refine byte_forward.bind fun tag => ?_
  split
  · exact (number_forward 8).map _
  · exact (number_forward 8).map _
  · exact (number_forward 8).map _
  · refine position_forward.bind fun start => sized_forward.bind fun bytes => ?_
    split
    · exact pure_forward _
    · exact throw_forward trivial
  · exact throw_forward trivial

theorem access_forward : Access.read.Forward :=
  position_forward.bind fun start => byte_forward.bind fun bits =>
    (require_forward _ (.undefinedAccess bits start) trivial).bind fun _ =>
      pure_forward _

theorem call_forward : CallKind.read.Forward := by
  refine byte_forward.bind fun code => ?_
  split
  · exact pure_forward _
  · exact throw_forward trivial

theorem readName_forward (pool : Pool) : (readName pool).Forward :=
  index_forward.bind fun _ => (check_forward Pool.expectText_final).bind fun _ => pure_forward _

theorem readTags_forward (pool : Pool) : (readTags pool).Forward :=
  count_forward.bind fun n => (repeatFrom_forward (fun _ => index_forward.bind fun _ =>
    (check_forward Pool.checkIndex_final).bind fun _ => pure_forward _) n #[]).map _

theorem field_forward (pool : Pool) : (Field.read pool).Forward :=
  access_forward.bind fun _ => (readName_forward pool).bind fun _ => position_forward.bind
    fun start => (readTags_forward pool).bind fun _ =>
      (require_forward _ (.untypedField start) trivial).bind fun _ => pure_forward _

theorem method_forward (pool : Pool) : (Method.read pool).Forward :=
  access_forward.bind fun _ => call_forward.bind fun _ => (readName_forward pool).bind fun _ =>
    (readTags_forward pool).bind fun _ => sized_forward.bind fun _ => pure_forward _

theorem readBody_forward (limits : Limits) : (Class.readBody limits).Forward :=
  header_forward.bind fun _ =>
    ((counted_forward _ .poolTooLarge (fun _ => trivial) constant_forward).map Pool.mk).bind
      fun pool => (check_forward Pool.className_final).bind fun _ =>
        (counted_forward _ .tooManyFields (fun _ => trivial) fun _ => field_forward pool).bind
          fun _ => (counted_forward _ .tooManyMethods (fun _ => trivial)
            fun _ => method_forward pool).bind fun _ => pure_forward _

end Parts

end Reader

namespace Class

theorem decode_append_of (limits : Limits) (bytes : List UInt8) {more : List UInt8}
    (hmore : more ≠ []) :
    (∃ c, decode bytes limits = .ok c
      ∧ decode (bytes ++ more) limits = .error (.trailingBytes more.length bytes.length))
    ∨ (∃ n q, decode bytes limits = .error (.trailingBytes n q)
      ∧ decode (bytes ++ more) limits = .error (.trailingBytes (n + more.length) q))
    ∨ (∃ offset needed available,
      decode bytes limits = .error (.truncated offset needed available))
    ∨ (∃ fault : Fault, fault.Final ∧ decode bytes limits = .error fault
      ∧ decode (bytes ++ more) limits = .error fault) := by
  rcases h : readBody limits ⟨0, bytes⟩ with ⟨c, pos, rest⟩ | ⟨fault, cursor⟩
  · obtain ⟨hlen, happend⟩ := (Reader.readBody_forward limits).ok h
    have hdecode := decode_of_readBody_ok h
    have hdecode' := decode_of_readBody_ok (happend more)
    simp only at hlen hdecode'
    rw [if_neg (List.append_ne_nil_of_right_ne_nil rest hmore), List.length_append] at hdecode'
    rcases rest with _ | ⟨b, rest⟩
    · rw [if_pos rfl] at hdecode
      rw [List.length_nil, Nat.zero_add, show pos = bytes.length by simpa using hlen] at hdecode'
      exact .inl ⟨c, hdecode, hdecode'⟩
    · rw [if_neg (List.cons_ne_nil b rest)] at hdecode
      exact .inr (.inl ⟨_, pos, hdecode, hdecode'⟩)
  · have hstays := (Reader.readBody_forward limits).error h
    have hdecode := decode_of_readBody_error h
    unfold Reader.Stays at hstays
    split at hstays
    · exact .inr (.inr (.inl ⟨_, _, _, hdecode⟩))
    · exact hstays.elim
    · next htrunc htrail =>
      obtain ⟨cursor', h'⟩ := hstays more
      refine .inr (.inr (.inr ⟨fault, ?_, hdecode, decode_of_readBody_error h'⟩))
      unfold Fault.Final
      split
      · exact htrunc _ _ _ rfl
      · exact htrail _ _ rfl
      · trivial

/-- What comes behind a class is told as such, or makes no difference, unless something was
missing; and something is missing wherever a class was cut short. -/
theorem decode_append (limits : Limits) (bytes more : List UInt8) (hmore : more ≠ []) :
    (∀ c, decode bytes limits = .ok c →
      decode (bytes ++ more) limits = .error (.trailingBytes more.length bytes.length))
    ∧ (∀ n q, decode bytes limits = .error (.trailingBytes n q) →
      decode (bytes ++ more) limits = .error (.trailingBytes (n + more.length) q))
    ∧ (∀ fault, decode bytes limits = .error fault →
      (∀ n q, fault ≠ .trailingBytes n q) → (∀ offset n m, fault ≠ .truncated offset n m) →
      decode (bytes ++ more) limits = .error fault)
    ∧ (∀ c, decode (bytes ++ more) limits = .ok c →
      ∃ offset n m, decode bytes limits = .error (.truncated offset n m)) := by
  rcases decode_append_of limits bytes hmore with
    ⟨c, h, h'⟩ | ⟨n, q, h, h'⟩ | ⟨offset, n, m, h⟩ | ⟨fault, hfinal, h, h'⟩
  · rw [h, h']
    refine ⟨fun _ _ => rfl, ?_, ?_, ?_⟩
    · rintro _ _ ⟨⟩
    · rintro _ ⟨⟩
    · rintro _ ⟨⟩
  · rw [h, h']
    refine ⟨?_, ?_, ?_, ?_⟩
    · rintro _ ⟨⟩
    · rintro _ _ ⟨⟩
      rfl
    · rintro _ ⟨⟩ htrail
      exact absurd rfl (htrail n q)
    · rintro _ ⟨⟩
  · rw [h]
    refine ⟨?_, ?_, ?_, fun _ _ => ⟨offset, n, m, rfl⟩⟩
    · rintro _ ⟨⟩
    · rintro _ _ ⟨⟩
    · rintro _ ⟨⟩ - htrunc
      exact absurd rfl (htrunc offset n m)
  · rw [h, h']
    refine ⟨?_, ?_, fun _ heq _ _ => heq, ?_⟩
    · rintro _ ⟨⟩
    · rintro _ _ ⟨⟩
      exact hfinal.elim
    · rintro _ ⟨⟩

/-- A class without constants and members, one byte behind it, another byte behind that, a wrong
first byte, and the class without its last byte. -/
theorem decode_append_memberless :
    decode [0x24, 0x47, 0x4C, 0x52, 1, 1, 0, 0, 0, 7] {} = .error (.trailingBytes 1 9)
    ∧ decode [0x24, 0x47, 0x4C, 0x52, 1, 1, 0, 0, 0, 7, 7] {} = .error (.trailingBytes 2 9)
    ∧ decode [0x25, 0x47, 0x4C, 0x52, 1] {} = .error (.badMagic [0x25, 0x47, 0x4C, 0x52])
    ∧ ∃ offset n m,
      decode [0x24, 0x47, 0x4C, 0x52, 1, 1, 0, 0] {} = .error (.truncated offset n m) := by
  refine ⟨?_, ?_, ?_, ?_⟩
  · exact (decode_append {} [0x24, 0x47, 0x4C, 0x52, 1, 1, 0, 0, 0] [7] (by decide)).1 _ rfl
  · exact (decode_append {} [0x24, 0x47, 0x4C, 0x52, 1, 1, 0, 0, 0, 7] [7] (by decide)).2.1 1 9 rfl
  · exact (decode_append {} [0x25, 0x47, 0x4C, 0x52] [1] (by decide)).2.2.1 _ rfl
      (fun _ _ => by simp) (fun _ _ _ => by simp)
  · exact (decode_append {} [0x24, 0x47, 0x4C, 0x52, 1, 1, 0, 0] [0] (by decide)).2.2.2 _ rfl

end Class

end ClassLoading
