import ClassLoading.Proofs.WriterRuns

/-!
# Texts that a writer adds once

All constants that were not added by hand are the writer's own: the name of the class and the texts
it was asked for. No text is among them twice, and a text that is among them is found again at its
index (`Interned`), with one exception. The name of a class without one is added before the first
constant, when that one has already been looked for; so if it is the empty text, it stands at index
one again, and is found there from then on (`Writer.interned_after`).
-/

namespace ClassLoading

/-- The indices of the constants that were added by hand. -/
def WriterTrace.byHand (past : WriterTrace) : List UInt16 :=
  past.filterMap fun
    | (.constant _, .index index) => some index
    | _ => none

/-- What a call asks of the constants first, if anything: a constant to be added or a text to be
found. -/
def WriterCall.first? : WriterCall → Option (Option String)
  | .version _ => none
  | .constant _ => some none
  | .text value => some (some value)
  | .field written => if written.types.isEmpty then none else some (some written.name)
  | .method written => if 1 <<< 32 ≤ written.body.length then none else some (some written.name)

/-- The empty text is the first that a writer without a class name is asked for. -/
def WriterOpening.DoublesEmpty (o : WriterOpening) (calls : List WriterCall) : Prop :=
  o.name? = none ∧ calls.findSome? WriterCall.first? = some (some "")

namespace Writer

/-- The constant at an index, if there is one, was not added by hand. -/
def IsOwn (hand : List UInt16) (i : Nat) : Prop :=
  ∀ index ∈ hand, index.toNat ≠ i

/-- The writer has added a text itself, at an index. -/
def Owns (hand : List UInt16) (w : Writer) (i : Nat) (value : String) : Prop :=
  w.pool.get? i = some (.text value) ∧ IsOwn hand i

/-- The writer's own constants are different texts, each of which is found again where it is; if the
first one stands there twice, then all of them but the first. -/
structure Interned (hand : List UInt16) (doubled : Prop) (w : Writer) : Prop where
  texts : ∀ {i : Nat} {constant : Constant}, w.pool.get? i = some constant → IsOwn hand i →
    ∃ value, constant = .text value
  distinct : ∀ {i j : Nat} {value : String}, Owns hand w i value → Owns hand w j value →
    (doubled → 0 < i ∧ 0 < j) → i = j
  found : ∀ {i : Nat} {value : String}, Owns hand w i value → (doubled → 0 < i) →
    ∃ index : UInt16, index.toNat = i ∧ w.text value = (.ok index, w)

/-- Own constants are found by their text, and what is found is an own constant. -/
structure Indexed (hand : List UInt16) (doubled : Prop) (w : Writer) : Prop where
  answered : ∀ index ∈ hand, 0 < index.toNat ∧ index.toNat < w.constants.size
  own : ∀ {i : Nat} {constant : Constant}, w.pool.get? i = some constant → IsOwn hand i →
    ∃ value, constant = .text value
      ∧ ((doubled → 0 < i) → w.interned[value]? = some (UInt16.ofNat i))
  interned : ∀ {value : String} {index : UInt16}, w.interned[value]? = some index →
    IsOwn hand index.toNat
  doubled : doubled → w.interned[""]? = some 1

variable {name? : Option String} {hand : List UInt16} {doubled : Prop} {w : Writer}

section Steps

theorem Indexed.isOwn_size (h : Indexed hand doubled w) : IsOwn hand w.constants.size :=
  fun index hindex => (h.answered index hindex).2.ne

/-- A new text is an own constant. -/
theorem Indexed.add (h : Indexed hand doubled w) (hroom : w.constants.size < maxConstants)
    {value : String} (hnone : w.interned[value]? = none) :
    Indexed hand doubled
      ((w.push (.text value)).intern value (UInt16.ofNat w.constants.size)) where
  answered index hindex := by
    show _ ∧ _ < (w.constants.push _).size
    rw [Array.size_push]
    exact (h.answered index hindex).imp_right Nat.lt_succ_of_lt
  own {i constant} hget hown := by
    have hget' : (w.push (.text value)).pool.get? i = some constant := hget
    simp only [Writer.intern, push, Std.HashMap.getElem?_insert, beq_iff_eq]
    rw [get?_push] at hget'
    split_ifs at hget' with hi
    · obtain rfl := Option.some.inj hget'
      exact ⟨value, rfl, fun _ => by rw [if_pos rfl, hi]⟩
    · obtain ⟨value', rfl, hfound⟩ := h.own hget' hown
      refine ⟨value', rfl, fun hpos => ?_⟩
      rw [if_neg, hfound hpos]
      rintro rfl
      simp [hfound hpos] at hnone
  interned {value' index} hindex := by
    simp only [Writer.intern, push, Std.HashMap.getElem?_insert, beq_iff_eq] at hindex
    split_ifs at hindex
    · obtain rfl := Option.some.inj hindex
      rw [UInt16.toNat_ofNat_of_lt' hroom]
      exact h.isOwn_size
    · exact h.interned hindex
  doubled hdoubled := by
    have hempty := h.doubled hdoubled
    simp only [Writer.intern, push, Std.HashMap.getElem?_insert, beq_iff_eq]
    rw [if_neg, hempty]
    rintro rfl
    simp [hempty] at hnone

theorem Indexed.congr {w' : Writer} (h : Indexed hand doubled w)
    (hconstants : w'.constants = w.constants) (hinterned : w'.interned = w.interned) :
    Indexed hand doubled w' where
  answered := hconstants ▸ h.answered
  own hget hown := by
    rw [hinterned]
    exact h.own (by rwa [pool, hconstants] at hget) hown
  interned := hinterned ▸ h.interned
  doubled := hinterned ▸ h.doubled

theorem interned_of_empty (h : w.Sound name?) (hempty : w.constants = #[]) (value : String) :
    w.interned[value]? = none := by
  rcases hvalue : w.interned[value]? with _ | index
  · rfl
  · have := lt_of_get? (h.interned hvalue)
    simp [hempty] at this

theorem nameFirst_of_ne (h : w.constants ≠ #[]) : w.nameFirst = w := by
  rw [nameFirst, if_neg (by rwa [Array.isEmpty_iff])]

theorem nameFirst_of_empty (h : w.constants = #[]) :
    w.nameFirst = (w.push (.text "")).intern "" 0 := by
  simp [nameFirst, h, push, intern]

theorem Indexed.nameFirst (h : Indexed hand doubled w) (hsound : w.Sound name?) :
    Indexed hand doubled w.nameFirst := by
  by_cases hempty : w.constants = #[]
  · have hsize := Array.size_eq_zero_iff.2 hempty
    have hadd := h.add (by rw [hsize]; decide) (interned_of_empty hsound hempty "")
    rw [nameFirst_of_empty hempty]
    rwa [hsize] at hadd
  · rwa [nameFirst_of_ne hempty]

theorem constant_cases (w : Writer) (constant : Constant) :
    (∃ fault, w.constant constant = (.error fault, w.nameFirst))
      ∨ (w.nameFirst.constants.size < maxConstants
        ∧ w.constant constant = (.ok (UInt16.ofNat w.nameFirst.constants.size),
            w.nameFirst.push constant)) := by
  unfold Writer.constant
  simp only
  split
  · exact .inl ⟨_, rfl⟩
  · next hnone => exact .inr ⟨(constantFault?_eq_none_iff.1 hnone).1, rfl⟩

theorem text_of_interned {value : String} {index : UInt16}
    (h : w.interned[value]? = some index) : w.text value = (.ok index, w) := by
  rw [Writer.text, h]

theorem text_of_new {value : String} (h : w.interned[value]? = none) :
    (w.text value).2 = w.nameFirst
      ∨ (w.nameFirst.constants.size < maxConstants
        ∧ (w.text value).2 = (w.nameFirst.push (.text value)).intern value
            (UInt16.ofNat w.nameFirst.constants.size)) := by
  rw [Writer.text, h]
  rcases constant_cases w (.text value) with ⟨fault, heq⟩ | ⟨hroom, heq⟩
  · rw [heq]
    exact .inl rfl
  · rw [heq]
    exact .inr ⟨hroom, rfl⟩

/-- The empty text is added twice if it comes first. -/
theorem text_doubled (hsound : w.Sound name?) (hempty : w.constants = #[]) :
    (w.text "").2 = (w.nameFirst.push (.text "")).intern "" 1 := by
  have hsize : (w.nameFirst).constants.size = 1 := by
    simp [nameFirst_of_empty hempty, push, intern, hempty]
  have hfault : constantFault? 1 (.text "") = none := by decide
  rw [Writer.text, interned_of_empty hsound hempty, Writer.constant]
  simp only [hsize, hfault]
  rfl

theorem Indexed.text_doubled (h : Indexed hand doubled w) (hsound : w.Sound name?)
    (hempty : w.constants = #[]) : Indexed hand True (w.text "").2 := by
  have hnone : ∀ i, IsOwn hand i := fun i index hindex => by
    have := h.answered index hindex
    simp [hempty] at this
  have hfirst := h.nameFirst hsound
  have hsize : w.nameFirst.constants.size = 1 := by
    simp [nameFirst_of_empty hempty, push, intern, hempty]
  rw [Writer.text_doubled hsound hempty]
  refine ⟨fun index hindex => absurd rfl (hnone _ index hindex), fun {i constant} hget hown => ?_,
    fun _ => hnone _, fun _ => Std.HashMap.getElem?_insert_self⟩
  have hget' : (w.nameFirst.push (.text "")).pool.get? i = some constant := hget
  rw [get?_push, hsize] at hget'
  split_ifs at hget' with hi
  · obtain rfl := Option.some.inj hget'
    exact ⟨"", rfl, fun _ => hi ▸ Std.HashMap.getElem?_insert_self⟩
  · obtain ⟨value, rfl, -⟩ := hfirst.own hget' hown
    have := lt_of_get? hget'
    exact ⟨value, rfl, fun hpos => absurd (hpos trivial) (by omega)⟩

/-- A text that is not found yet is added behind the name of the class. -/
theorem Indexed.text_new (h : Indexed hand doubled w) (hsound : w.Sound name?) {value : String}
    (hnone : w.interned[value]? = none) (hfirst : w.nameFirst.interned[value]? = none) :
    Indexed hand doubled (w.text value).2 := by
  rcases text_of_new hnone with heq | ⟨hroom, heq⟩
  · rw [heq]
    exact h.nameFirst hsound
  · rw [heq]
    exact (h.nameFirst hsound).add hroom hfirst

theorem Extends.size_pos {w' : Writer} (h : w.Extends w') (hpos : 0 < w.constants.size) :
    0 < w'.constants.size :=
  lt_of_get? (h.get? (Array.getElem?_eq_getElem hpos))

theorem size_text_pos (hsound : w.Sound name?) (value : String) :
    0 < (w.text value).2.constants.size := by
  obtain ⟨-, -, hpos⟩ := nameFirst_spec hsound
  rcases hvalue : w.interned[value]? with _ | index
  · rcases text_of_new hvalue with heq | ⟨-, heq⟩
    · rwa [heq]
    · rw [heq]
      exact ((push_extends _ _).trans (intern_extends _ _ _)).size_pos hpos
  · rw [text_of_interned hvalue]
    exact Nat.zero_lt_of_lt (lt_of_get? (hsound.interned hvalue))

theorem Indexed.text (h : Indexed hand doubled w) (hsound : w.Sound name?) (value : String) :
    Indexed hand (doubled ∨ (w.constants = #[] ∧ value = "")) (w.text value).2 := by
  by_cases hempty : w.constants = #[]
  · by_cases hvalue : value = ""
    · subst hvalue
      simpa [hempty] using h.text_doubled hsound hempty
    · have hnone := interned_of_empty hsound hempty value
      have hfirst : w.nameFirst.interned[value]? = none := by
        rw [nameFirst_of_empty hempty]
        simpa [intern, push, Std.HashMap.getElem?_insert, Ne.symm hvalue] using hnone
      simpa [hvalue] using h.text_new hsound hnone hfirst
  · have hsame : Indexed hand doubled (w.text value).2 := by
      rcases hvalue : w.interned[value]? with _ | index
      · exact h.text_new hsound hvalue (by rwa [nameFirst_of_ne hempty])
      · rwa [text_of_interned hvalue]
    simpa [hempty] using hsame

theorem texts_cons_snd (w : Writer) (value : String) (rest : List String) :
    (w.texts (value :: rest)).2 = (w.text value).2
      ∨ (w.texts (value :: rest)).2 = ((w.text value).2.texts rest).2 := by
  rw [Writer.texts]
  rcases w.text value with ⟨_ | index, w₁⟩
  · exact .inl rfl
  · refine .inr ?_
    simp only
    rcases w₁.texts rest with ⟨_ | indices, w₂⟩ <;> rfl

theorem Indexed.texts : ∀ {w : Writer} (_ : Indexed hand doubled w) (_ : w.Sound name?)
    (_ : 0 < w.constants.size) (values : List String), Indexed hand doubled (w.texts values).2
  | w, h, _, _, [] => h
  | w, h, hsound, hpos, value :: rest => by
    obtain ⟨hsound', hext, -⟩ := text_spec hsound value
    have h' : Indexed hand doubled (w.text value).2 := by
      simpa [Array.size_pos_iff.1 hpos] using h.text hsound value
    rcases texts_cons_snd w value rest with heq | heq <;> rw [heq]
    · exact h'
    · exact Indexed.texts h' hsound' (hext.size_pos hpos) rest

theorem Indexed.member (h : Indexed hand doubled w) (hsound : w.Sound name?) (name : String)
    (types : List String) :
    Indexed hand (doubled ∨ (w.constants = #[] ∧ name = "")) (w.member name types).2
      ∧ 0 < (w.member name types).2.constants.size := by
  have h' := h.text hsound name
  have hpos := size_text_pos hsound name
  obtain ⟨hsound', -, -⟩ := text_spec hsound name
  obtain ⟨-, hext, -⟩ := texts_spec hsound' types
  rw [member_eq]
  simp only
  rcases texts_cons_snd w name types with heq | heq <;> rw [heq]
  · exact ⟨h', hpos⟩
  · exact ⟨h'.texts hsound' hpos types, hext.size_pos hpos⟩

end Steps

section Runs

variable {o : WriterOpening} {told : Told}

theorem isOwn_append_singleton {i : Nat} {index : UInt16} :
    IsOwn (hand ++ [index]) i ↔ IsOwn hand i ∧ index.toNat ≠ i := by
  simp [IsOwn, or_imp, forall_and]

/-- What is added by hand is not found by its text. -/
theorem Indexed.push (h : Indexed hand doubled w) (hsound : w.Sound name?)
    (hpos : 0 < w.constants.size) (hroom : w.constants.size < maxConstants)
    (constant : Constant) :
    Indexed (hand ++ [UInt16.ofNat w.constants.size]) doubled (w.push constant) where
  answered index hindex := by
    show _ ∧ _ < (w.constants.push _).size
    rw [Array.size_push]
    rcases List.mem_append.1 hindex with hindex | hindex
    · exact (h.answered index hindex).imp_right Nat.lt_succ_of_lt
    · rw [List.mem_singleton.1 hindex, UInt16.toNat_ofNat_of_lt' hroom]
      exact ⟨hpos, Nat.lt_succ_self _⟩
  own {i c} hget hown := by
    rw [isOwn_append_singleton, UInt16.toNat_ofNat_of_lt' hroom] at hown
    rw [get?_push, if_neg (Ne.symm hown.2)] at hget
    exact h.own hget hown.1
  interned {value index} hindex := by
    rw [isOwn_append_singleton, UInt16.toNat_ofNat_of_lt' hroom]
    exact ⟨h.interned hindex, (lt_of_get? (hsound.interned hindex)).ne'⟩
  doubled := h.doubled

theorem Indexed.constant (h : Indexed hand doubled w) (hsound : w.Sound name?)
    (constant : Constant) :
    Indexed (hand ++ WriterTrace.byHand [(.constant constant, .ofIndex (w.constant constant).1)])
        doubled (w.constant constant).2
      ∧ 0 < (w.constant constant).2.constants.size := by
  obtain ⟨hsound', -, hpos⟩ := nameFirst_spec hsound
  have hfirst := h.nameFirst hsound
  rcases constant_cases w constant with ⟨fault, heq⟩ | ⟨hroom, heq⟩ <;> rw [heq]
  · exact ⟨by simpa [WriterTrace.byHand, WriterAnswer.ofIndex] using hfirst, hpos⟩
  · exact ⟨hfirst.push hsound' hpos hroom constant, (push_extends _ _).size_pos hpos⟩

/-- A call that asks nothing of the constants leaves them alone; the first one that does decides
whether the empty text is doubled. -/
theorem Indexed.call (h : Indexed hand doubled w) (hsound : w.Sound name?) (c : WriterCall) :
    Indexed (hand ++ WriterTrace.byHand [(c, (w.call c).1)])
        (doubled ∨ (w.constants = #[] ∧ c.first? = some (some ""))) (w.call c).2
      ∧ (c.first? = none → (w.call c).2.constants = w.constants)
      ∧ (c.first? ≠ none → 0 < (w.call c).2.constants.size) := by
  rcases c with version | constant | value | ⟨access, name, types⟩ |
    ⟨access, dispatch, name, args, body⟩
  · have h' : Indexed hand doubled (w.setVersion version) := h.congr rfl rfl
    simpa [WriterTrace.byHand, WriterCall.first?, Writer.call, setVersion] using h'
  · obtain ⟨h', hpos⟩ := h.constant hsound constant
    simpa [WriterCall.first?, Writer.call] using ⟨h', hpos⟩
  · have h' := h.text hsound value
    have hpos := size_text_pos hsound value
    simpa [WriterTrace.byHand, WriterCall.first?, Writer.call] using ⟨h', hpos⟩
  · obtain ⟨h', hpos⟩ := h.member hsound name types
    unfold Writer.call Writer.field
    simp only [WriterTrace.byHand, WriterCall.first?, List.filterMap_cons, List.filterMap_nil,
      List.append_nil]
    split_ifs with hempty
    · simpa using h
    · rcases heq : w.member name types with ⟨_ | ⟨index, tags⟩, w₁⟩ <;> rw [heq] at h' hpos
      · simpa using ⟨h', hpos⟩
      · simpa using ⟨h'.congr rfl rfl, hpos⟩
  · obtain ⟨h', hpos⟩ := h.member hsound name args
    unfold Writer.call Writer.method
    simp only [WriterTrace.byHand, WriterCall.first?, List.filterMap_cons, List.filterMap_nil,
      List.append_nil]
    split_ifs with hlong
    · simpa using h
    · rcases heq : w.member name args with ⟨_ | ⟨index, tags⟩, w₁⟩ <;> rw [heq] at h' hpos
      · simpa using ⟨h', hpos⟩
      · simpa using ⟨h'.congr rfl rfl, hpos⟩

theorem byHand_cons (call : WriterCall × WriterAnswer) (past : WriterTrace) :
    WriterTrace.byHand (call :: past) = WriterTrace.byHand [call] ++ past.byHand :=
  List.filterMap_append (l := [call])

theorem Indexed.run : ∀ {hand : List UInt16} {doubled : Prop} {told : Told} {w : Writer}
    (_ : Indexed hand doubled w) (_ : Gathered o told w) (calls : List WriterCall),
    Indexed (hand ++ (w.run calls).1.byHand)
      (doubled ∨ (w.constants = #[] ∧ calls.findSome? WriterCall.first? = some (some "")))
      (w.run calls).2
  | hand, doubled, told, w, h, hg, [] => by
    simpa [Writer.run, WriterTrace.byHand] using h
  | hand, doubled, told, w, h, hg, c :: rest => by
    obtain ⟨h', hkept, hpos⟩ := h.call hg.sound c
    have hrest := Indexed.run h' (hg.call c) rest
    rw [List.append_assoc, ← byHand_cons, or_assoc] at hrest
    have hfirst : (w.constants = #[] ∧ c.first? = some (some ""))
          ∨ ((w.call c).2.constants = #[] ∧ rest.findSome? WriterCall.first? = some (some ""))
        ↔ w.constants = #[] ∧ (c :: rest).findSome? WriterCall.first? = some (some "") := by
      rcases hc : c.first? with _ | first
      · simp [hc, hkept hc]
      · have hne : (w.call c).2.constants ≠ #[] := Array.size_pos_iff.1 (hpos (by simp [hc]))
        simp [hc, hne]
    rwa [propext hfirst] at hrest

theorem indexed_writer (o : WriterOpening) : Indexed [] False o.writer := by
  have hempty : Indexed [] False (anonymous o.kind o.access) :=
    ⟨by simp, fun hget => by simp [anonymous, pool, Pool.get?] at hget,
      fun hindex => by simp [anonymous] at hindex, False.elim⟩
  rcases o with ⟨_ | name, kind, access⟩
  · exact hempty
  · exact hempty.add (Nat.succ_pos 65535) (by simp [anonymous])

theorem Indexed.interned_of_own (h : Indexed hand doubled w) {i : Nat} {value : String}
    (hown : Owns hand w i value) (hpos : doubled → 0 < i) :
    w.interned[value]? = some (UInt16.ofNat i) := by
  obtain ⟨value', heq, hfound⟩ := h.own hown.1 hown.2
  obtain rfl := Constant.text.inj heq
  exact hfound hpos

theorem Indexed.toInterned (h : Indexed hand doubled w) (hsound : w.Sound name?) :
    Interned hand doubled w where
  texts hget hown := by
    obtain ⟨value, heq, -⟩ := h.own hget hown
    exact ⟨value, heq⟩
  distinct {i j value} hi hj hpos := by
    have hlt : i < maxConstants := (lt_of_get? hi.1).trans_le hsound.room
    have hlt' : j < maxConstants := (lt_of_get? hj.1).trans_le hsound.room
    have heq := (h.interned_of_own hi fun hd => (hpos hd).1).symm.trans
      (h.interned_of_own hj fun hd => (hpos hd).2)
    rw [Option.some.injEq, ← UInt16.toNat_inj, UInt16.toNat_ofNat_of_lt' hlt,
      UInt16.toNat_ofNat_of_lt' hlt'] at heq
    exact heq
  found {i value} hi hpos := by
    have hlt : i < maxConstants := (lt_of_get? hi.1).trans_le hsound.room
    exact ⟨UInt16.ofNat i, UInt16.toNat_ofNat_of_lt' hlt,
      text_of_interned (h.interned_of_own hi hpos)⟩

theorem constants_writer_eq_empty_iff : o.writer.constants = #[] ↔ o.name? = none := by
  rcases o with ⟨_ | name, kind, access⟩ <;> simp [WriterOpening.writer, anonymous, named]

end Runs

/-- The first constant is the name of the class. The writer's own constants are different texts that
are found again, or all of them but the first are: that is so just where a writer without a class
name is asked for the empty text before any constant, which it then has at the first two indices. -/
theorem interned_after (o : WriterOpening) (calls : List WriterCall) :
    let past := (o.writer.run calls).1
    let w := (o.writer.run calls).2
    ((w.constants = #[] ∧ o.name? = none) ∨ Owns past.byHand w 0 o.name)
    ∧ Interned past.byHand (o.DoublesEmpty calls) w
    ∧ (o.DoublesEmpty calls → Owns past.byHand w 0 "" ∧ Owns past.byHand w 1 "") := by
  intro past w
  have hsound : w.Sound o.name? := ((gathered_writer o).run calls).sound
  have h : Indexed past.byHand (o.DoublesEmpty calls) w := by
    have hrun := (indexed_writer o).run (gathered_writer o) calls
    rwa [List.nil_append, false_or, constants_writer_eq_empty_iff] at hrun
  have hzero : IsOwn past.byHand 0 := fun index hindex => (h.answered index hindex).1.ne'
  refine ⟨?_, h.toInterned hsound, fun hdoubled => ?_⟩
  · rcases hsound.first with ⟨hsize, hname⟩ | hfirst
    · exact .inl ⟨Array.size_eq_zero_iff.1 hsize, hname⟩
    · exact .inr ⟨hfirst, hzero⟩
  · have hone := h.doubled hdoubled
    have hsecond : Owns past.byHand w 1 "" := ⟨hsound.interned hone, h.interned hone⟩
    refine ⟨⟨?_, hzero⟩, hsecond⟩
    rcases hsound.first with ⟨hsize, -⟩ | hfirst
    · exact absurd (lt_of_get? hsecond.1) (by omega)
    · rwa [hdoubled.1] at hfirst

/-- A text added by hand between two calls that ask for it. -/
def listCalls : List WriterCall :=
  [.text "item", .constant (.text "item"), .field ⟨.pub, "item", ["List"]⟩]

/-- The text is found where the writer itself has added it. -/
theorem interned_after_list :
    let past := ((⟨some "List", .trait, .pub⟩ : WriterOpening).writer.run listCalls).1
    let w := ((⟨some "List", .trait, .pub⟩ : WriterOpening).writer.run listCalls).2
    Owns past.byHand w 0 "List" ∧ Owns past.byHand w 1 "item"
      ∧ w.pool.get? 2 = some (.text "item")
      ∧ ∃ index : UInt16, index.toNat = 1 ∧ w.text "item" = (.ok index, w) := by
  intro past w
  have hsize : "item".utf8ByteSize = 4 := rfl
  have hown : Owns past.byHand w 1 "item" ∧ w.pool.get? 2 = some (.text "item") := by
    simp [past, w, listCalls, WriterOpening.writer, Writer.run, Writer.call, named, anonymous,
      Writer.text, Writer.texts, Writer.member, Writer.field, Writer.constant, Writer.nameFirst,
      constantFault?, maxConstants, hsize, WriterAnswer.ofIndex, WriterTrace.byHand, Owns, IsOwn,
      pool, Pool.get?]
  have hname : ¬ WriterOpening.DoublesEmpty ⟨some "List", .trait, .pub⟩ listCalls := by
    simp [WriterOpening.DoublesEmpty]
  obtain ⟨hfirst, hinterned, -⟩ := interned_after ⟨some "List", .trait, .pub⟩ listCalls
  refine ⟨?_, hown.1, hown.2, hinterned.found hown.1 fun hdoubled => absurd hdoubled hname⟩
  rcases hfirst with ⟨-, hnone⟩ | hfirst
  · cases hnone
  · exact hfirst

/-- A writer without a class name that is asked for the empty text twice has it at two indices and
finds it at the second. -/
theorem empty_text_doubled :
    let past := ((⟨none, .module, .pub⟩ : WriterOpening).writer.run [.text "", .text ""]).1
    let w := ((⟨none, .module, .pub⟩ : WriterOpening).writer.run [.text "", .text ""]).2
    past = [(.text "", .index 1), (.text "", .index 1)]
      ∧ Owns past.byHand w 0 "" ∧ Owns past.byHand w 1 "" ∧ ¬ Interned past.byHand False w := by
  intro past w
  have hsize : "".utf8ByteSize = 0 := rfl
  have hown : past = [(.text "", .index 1), (.text "", .index 1)]
      ∧ Owns past.byHand w 0 "" ∧ Owns past.byHand w 1 "" := by
    simp [past, w, WriterOpening.writer, Writer.run, Writer.call, anonymous, Writer.text,
      Writer.constant, Writer.nameFirst, constantFault?, maxConstants, hsize,
      WriterAnswer.ofIndex, WriterTrace.byHand, Owns, IsOwn, pool, Pool.get?]
  obtain ⟨hpast, hzero, hone⟩ := hown
  exact ⟨hpast, hzero, hone, fun h => absurd (h.distinct hzero hone False.elim) (by decide)⟩

end Writer

end ClassLoading
