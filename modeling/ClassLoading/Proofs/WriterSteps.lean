import Mathlib.Data.List.Forall2
import ClassLoading.Class.Writer
import ClassLoading.Proofs.Encodings

/-!
# The constants of a writer

A writer in order holds no more constants than indices can tell apart, the first of them the name of
its class, and finds each text that it added again at its index (`Sound`). Adding a constant or a
text leaves the others where they are (`Extends`) and answers where the new one stands
(`constant_spec`, `text_spec`); so a member's names are found at the indices it is recorded with
(`member_spec`).
-/

namespace ClassLoading

/-- The names that stand at some indices, in order. -/
def Pool.Spells (pool : Pool) : List UInt16 → List String → Prop :=
  List.Forall₂ fun index name => pool.entries[index.toNat]? = some (.text name)

namespace Writer

def pool (w : Writer) : Pool :=
  ⟨w.constants⟩

/-- The constants are in order, for a class of that name if it has one. -/
structure Sound (name? : Option String) (w : Writer) : Prop where
  room : w.constants.size ≤ maxConstants
  first : (w.constants.size = 0 ∧ name? = none) ∨ w.pool.get? 0 = some (.text (name?.getD ""))
  interned : ∀ {value : String} {index : UInt16}, w.interned[value]? = some index →
    w.pool.get? index.toNat = some (.text value)
  fits : ∀ {i : Nat} {constant : Constant}, 0 < i → w.pool.get? i = some constant → constant.Fits

/-- The constants may have become more, and nothing else has changed. -/
structure Extends (w w' : Writer) : Prop where
  get? : ∀ {i : Nat} {constant : Constant}, w.pool.get? i = some constant →
    w'.pool.get? i = some constant
  version : w'.version = w.version
  kind : w'.kind = w.kind
  access : w'.access = w.access
  fields : w'.fields = w.fields
  methods : w'.methods = w.methods

variable {name? : Option String} {w w' w'' : Writer}

theorem Extends.refl (w : Writer) : w.Extends w :=
  ⟨id, rfl, rfl, rfl, rfl, rfl⟩

theorem Extends.trans (h : w.Extends w') (h' : w'.Extends w'') : w.Extends w'' :=
  ⟨fun hget => h'.get? (h.get? hget), h'.version.trans h.version, h'.kind.trans h.kind,
    h'.access.trans h.access, h'.fields.trans h.fields, h'.methods.trans h.methods⟩

theorem Extends.spells (h : w.Extends w') {indices : List UInt16} {names : List String}
    (hnames : w.pool.Spells indices names) : w'.pool.Spells indices names :=
  List.Forall₂.imp (fun _ _ hget => h.get? hget) hnames

theorem lt_of_get? {i : Nat} {constant : Constant} (h : w.pool.get? i = some constant) :
    i < w.constants.size :=
  (Array.getElem?_eq_some_iff.1 h).1

/-- The name of the class alone may be too long for its length. -/
theorem Sound.fits_or_name (h : w.Sound name?) {i : Nat} {constant : Constant}
    (hget : w.pool.get? i = some constant) :
    constant.Fits ∨ constant = .text (name?.getD "") := by
  rcases Nat.eq_zero_or_pos i with rfl | hpos
  · rcases h.first with ⟨hsize, -⟩ | hfirst
    · exact absurd (lt_of_get? hget) (by omega)
    · exact .inr (Option.some.inj (hget.symm.trans hfirst))
  · exact .inl (h.fits hpos hget)

section Constants

def push (w : Writer) (constant : Constant) : Writer :=
  { w with constants := w.constants.push constant }

theorem get?_push (w : Writer) (constant : Constant) (i : Nat) :
    (w.push constant).pool.get? i
      = if i = w.constants.size then some constant else w.pool.get? i :=
  Array.getElem?_push

theorem push_extends (w : Writer) (constant : Constant) : w.Extends (w.push constant) := by
  refine ⟨fun {i c} hget => ?_, rfl, rfl, rfl, rfl, rfl⟩
  rw [get?_push, if_neg (lt_of_get? hget).ne]
  exact hget

theorem Sound.push (h : w.Sound name?) {constant : Constant} (hpos : 0 < w.constants.size)
    (hroom : w.constants.size < maxConstants) (hfit : constant.Fits) :
    (w.push constant).Sound name? where
  room := by
    show (w.constants.push constant).size ≤ _
    rw [Array.size_push]
    exact hroom
  first := by
    rcases h.first with ⟨hsize, -⟩ | hfirst
    · omega
    · exact .inr ((w.push_extends constant).get? hfirst)
  interned hindex := (w.push_extends constant).get? (h.interned hindex)
  fits {i c} hi hget := by
    rw [get?_push] at hget
    split_ifs at hget
    · obtain rfl := Option.some.inj hget
      exact hfit
    · exact h.fits hi hget

def intern (w : Writer) (value : String) (index : UInt16) : Writer :=
  { w with interned := w.interned.insert value index }

theorem intern_extends (w : Writer) (value : String) (index : UInt16) :
    w.Extends (w.intern value index) :=
  ⟨id, rfl, rfl, rfl, rfl, rfl⟩

theorem Sound.intern (h : w.Sound name?) {value : String} {index : UInt16}
    (hget : w.pool.get? index.toNat = some (.text value)) :
    (w.intern value index).Sound name? := by
  refine ⟨h.room, h.first, fun {value' index'} hindex => ?_, h.fits⟩
  simp only [Writer.intern, Std.HashMap.getElem?_insert, beq_iff_eq] at hindex
  split_ifs at hindex with heq
  · obtain rfl := Option.some.inj hindex
    rw [← heq]
    exact hget
  · exact h.interned hindex

theorem sound_first (hinterned : ∀ value : String, w.interned[value]? = none) :
    ({ w with
      constants := #[.text (name?.getD "")]
      interned := w.interned.insert (name?.getD "") 0 } : Writer).Sound name? := by
  have hsound : ({ w with constants := #[.text (name?.getD "")] } : Writer).Sound name? := by
    refine ⟨(by decide : 1 ≤ maxConstants), .inr rfl, fun hindex => ?_, fun {i c} hi hget => ?_⟩
    · simp [hinterned] at hindex
    · obtain ⟨hlt, -⟩ := Array.getElem?_eq_some_iff.1 hget
      simp only [pool, List.size_toArray, List.length_singleton] at hlt
      omega
  exact hsound.intern rfl

theorem nameFirst_spec (h : w.Sound name?) :
    w.nameFirst.Sound name? ∧ w.Extends w.nameFirst ∧ 0 < w.nameFirst.constants.size := by
  unfold nameFirst
  split_ifs with hempty
  · rw [Array.isEmpty_iff] at hempty
    have hnone : ∀ i, w.pool.get? i = none := fun i => by
      rw [Pool.get?, pool, hempty]
      rfl
    obtain rfl : name? = none := by
      rcases h.first with ⟨-, hname⟩ | hfirst
      · exact hname
      · simp [hnone] at hfirst
    have hinterned : ∀ value : String, w.interned[value]? = none := fun value =>
      Option.eq_none_iff_forall_ne_some.2 fun index hindex => by
        simpa [hnone] using h.interned hindex
    refine ⟨sound_first hinterned, ⟨fun hget => ?_, rfl, rfl, rfl, rfl, rfl⟩, Nat.one_pos⟩
    simp [hnone] at hget
  · refine ⟨h, .refl w, ?_⟩
    rw [Array.isEmpty_iff, ← Array.size_eq_zero_iff] at hempty
    omega

/-- A constant that is let in fits, and so does its index. -/
theorem constantFault?_eq_none_iff {size : Nat} {constant : Constant} :
    constantFault? size constant = none ↔ size < maxConstants ∧ constant.Fits := by
  unfold constantFault?
  split_ifs with hfull
  · simp only [false_iff]
    omega
  · rcases constant with _ | _ | _ | value
    · exact iff_of_true rfl ⟨by omega, trivial⟩
    · exact iff_of_true rfl ⟨by omega, trivial⟩
    · exact iff_of_true rfl ⟨by omega, trivial⟩
    · simp only [Constant.Fits]
      split_ifs with hlong
      · simp only [false_iff]
        omega
      · exact iff_of_true rfl ⟨by omega, by omega⟩

theorem constant_spec (h : w.Sound name?) (constant : Constant) :
    (w.constant constant).2.Sound name? ∧ w.Extends (w.constant constant).2
      ∧ ∀ index, (w.constant constant).1 = .ok index →
        (w.constant constant).2.pool.get? index.toNat = some constant := by
  obtain ⟨hfirst, hext, hpos⟩ := nameFirst_spec h
  unfold Writer.constant
  simp only
  split
  · next fault hfault =>
    exact ⟨hfirst, hext, fun index => by simp⟩
  · next hnone =>
    obtain ⟨hroom, hfit⟩ := constantFault?_eq_none_iff.1 hnone
    refine ⟨hfirst.push hpos hroom hfit, hext.trans (push_extends _ constant), ?_⟩
    rintro index ⟨⟩
    show (w.nameFirst.push constant).pool.get? _ = _
    rw [get?_push, UInt16.toNat_ofNat_of_lt' hroom, if_pos rfl]

theorem text_spec (h : w.Sound name?) (value : String) :
    (w.text value).2.Sound name? ∧ w.Extends (w.text value).2
      ∧ ∀ index, (w.text value).1 = .ok index →
        (w.text value).2.pool.get? index.toNat = some (.text value) := by
  obtain ⟨hsound, hext, hget⟩ := constant_spec h (.text value)
  unfold Writer.text
  split
  · next index hindex =>
    refine ⟨h, .refl w, ?_⟩
    rintro _ ⟨⟩
    exact h.interned hindex
  · split
    · next index w' heq =>
      rw [heq] at hsound hext hget
      refine ⟨hsound.intern (hget index rfl), hext.trans (intern_extends w' value index), ?_⟩
      rintro _ ⟨⟩
      exact hget index rfl
    · next fault w' heq =>
      rw [heq] at hsound hext
      exact ⟨hsound, hext, fun index => by simp⟩

theorem texts_spec : ∀ {w : Writer} (_ : w.Sound name?) (values : List String),
    (w.texts values).2.Sound name? ∧ w.Extends (w.texts values).2
      ∧ ∀ indices, (w.texts values).1 = .ok indices →
        (w.texts values).2.pool.Spells indices values
  | w, h, [] => by
    refine ⟨h, .refl w, ?_⟩
    rintro _ ⟨⟩
    exact .nil
  | w, h, value :: rest => by
    obtain ⟨hsound, hext, hget⟩ := text_spec h value
    unfold Writer.texts
    split
    · next fault w₁ heq =>
      rw [heq] at hsound hext
      exact ⟨hsound, hext, fun indices => by simp⟩
    · next index w₁ heq =>
      rw [heq] at hsound hext hget
      obtain ⟨hsound', hext', hspells⟩ := texts_spec hsound rest
      split
      · next fault w₂ heq' =>
        rw [heq'] at hsound' hext'
        exact ⟨hsound', hext.trans hext', fun indices => by simp⟩
      · next indices w₂ heq' =>
        rw [heq'] at hsound' hext' hspells
        refine ⟨hsound', hext.trans hext', ?_⟩
        rintro _ ⟨⟩
        exact .cons (hext'.get? (hget index rfl)) (hspells indices rfl)

/-- The name of a member is looked for like one more text, the first of all. -/
theorem member_eq (w : Writer) (name : String) (types : List String) :
    w.member name types = ((w.texts (name :: types)).1.map fun indices =>
      (indices.headD 0, indices.tail), (w.texts (name :: types)).2) := by
  rw [Writer.member, Writer.texts]
  rcases w.text name with ⟨_ | index, w₁⟩
  · rfl
  · simp only
    rcases w₁.texts types with ⟨_ | indices, w₂⟩ <;> rfl

theorem member_spec (h : w.Sound name?) (name : String) (types : List String) :
    (w.member name types).2.Sound name? ∧ w.Extends (w.member name types).2
      ∧ ∀ index tags, (w.member name types).1 = .ok (index, tags) →
        (w.member name types).2.pool.get? index.toNat = some (.text name)
          ∧ (w.member name types).2.pool.Spells tags types := by
  obtain ⟨hsound, hext, hspells⟩ := texts_spec h (name :: types)
  rw [member_eq]
  refine ⟨hsound, hext, fun index tags hok => ?_⟩
  rcases hindices : (w.texts (name :: types)).1 with fault | indices
  · simp [hindices, Except.map] at hok
  · cases hspells indices hindices with
    | cons hname htypes =>
      simp only [hindices, Except.map, List.headD_cons, List.tail_cons, Except.ok.injEq,
        Prod.mk.injEq] at hok
      obtain ⟨rfl, rfl⟩ := hok
      exact ⟨hname, htypes⟩

end Constants

end Writer

end ClassLoading
