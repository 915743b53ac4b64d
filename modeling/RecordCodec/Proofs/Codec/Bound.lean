import RecordCodec.Proofs.Codec.Flattened

/-!
This module contains the values of struct types, and what is true of every binding: each field of
its plan has a struct field that can hold it, so every struct of its type can be written.
-/

namespace RecordCodec

open RecordCodec.Table

def Builtin.holdsAll (b : Builtin) (xs : List Nat) : Bool :=
  b.scalar?.any fun s => xs.all s.holds

def HostType.holds (t : HostType) (v : Value) : Bool :=
  match t.underlying, v with
  | .builtin b, .scalar x => b.holdsAll [x]
  | .builtin b, .text _ => b == .string
  | .slice elem, .sequence xs => elem.builtin?.any (·.holdsAll (xs.getD []))
  | .slice elem, .texts _ => elem.builtin? == some .string
  | .pointer elem, .optional x => elem.builtin?.any (·.holdsAll x.toList)
  | .pointer elem, .optionalText _ => elem.builtin? == some .string
  | _, .other => t.zero == .other
  | _, _ => false

def Binding.isStruct (bd : Binding) (struct : Array Value) : Bool :=
  struct.size == bd.members.length &&
    (bd.members.zip struct.toList).all fun (m, v) => m.type.holds v

theorem Scalar.holds_zero (s : Scalar) : s.holds 0 = true := by
  cases s with
  | _ => rfl

theorem Builtin.ne_string_of_scalar? {b : Builtin} {s : Scalar} (h : b.scalar? = some s) :
    b ≠ .string := by
  rintro rfl
  contradiction

theorem Builtin.isKnown_of_scalar? {b : Builtin} {s : Scalar} (h : b.scalar? = some s) :
    (FieldType.ofScalar s).isKnown = true := by
  cases hs : s with
  | unknown code =>
    rw [hs] at h
    unfold scalar? at h
    split at h <;> cases h
  | _ => rfl

namespace FieldType

theorem sequence_ofScalar (s : Scalar) : (ofScalar s).sequence = ⟨.sequence, s, false⟩ := rfl

theorem sequence_ofText : ofText.sequence = ⟨.sequence, .bool, true⟩ := rfl

theorem optional_ofScalar (s : Scalar) : (ofScalar s).optional = ⟨.optional, s, false⟩ := rfl

theorem optional_ofText : ofText.optional = ⟨.optional, .bool, true⟩ := rfl

end FieldType

def FieldType.unset (t : FieldType) : Value :=
  match t.shape with
  | .sequence => if t.text then .texts none else .sequence none
  | _ => t.default

inductive HostType.Holding (t : HostType) : Option FieldType → Prop
  | scalar {b : Builtin} {s : Scalar} (host : t.underlying = .builtin b)
    (scalar : b.scalar? = some s) : Holding t (some (.ofScalar s))
  | text (host : t.underlying = .builtin .string) : Holding t (some .ofText)
  | sequence {elem : HostType} {b : Builtin} {s : Scalar} (host : t.underlying = .slice elem)
    (builtin : elem.builtin? = some b) (scalar : b.scalar? = some s) :
    Holding t (some (.sequence (.ofScalar s)))
  | texts {elem : HostType} (host : t.underlying = .slice elem)
    (builtin : elem.builtin? = some .string) : Holding t (some (.sequence .ofText))
  | optional {elem : HostType} {b : Builtin} {s : Scalar} (host : t.underlying = .pointer elem)
    (builtin : elem.builtin? = some b) (scalar : b.scalar? = some s) :
    Holding t (some (.optional (.ofScalar s)))
  | optionalText {elem : HostType} (host : t.underlying = .pointer elem)
    (builtin : elem.builtin? = some .string) : Holding t (some (.optional .ofText))
  | none (zero : t.zero = .other) : Holding t .none

theorem HostType.exists_holding (t : HostType) : ∃ u, t.Holding u := by
  by_cases hzero : t.zero = .other
  · exact ⟨_, .none hzero⟩
  · unfold zero at hzero
    split at hzero
    · next host => exact ⟨_, .text host⟩
    · next b _ host =>
      cases hscalar : b.scalar? with
      | none => simp [hscalar] at hzero
      | some s => exact ⟨_, .scalar host hscalar⟩
    · next elem host =>
      split at hzero
      · next hbuiltin => exact ⟨_, .texts host hbuiltin⟩
      · next b _ hbuiltin =>
        cases hscalar : b.scalar? with
        | none => simp [hscalar] at hzero
        | some s => exact ⟨_, .sequence host hbuiltin hscalar⟩
      · contradiction
    · next elem host =>
      split at hzero
      · next hbuiltin => exact ⟨_, .optionalText host hbuiltin⟩
      · next b _ hbuiltin =>
        cases hscalar : b.scalar? with
        | none => simp [hscalar] at hzero
        | some s => exact ⟨_, .optional host hbuiltin hscalar⟩
      · contradiction
    · contradiction

theorem HostType.holds_other {t : HostType} (h : t.zero = .other) : t.holds .other = true := by
  cases hhost : t.underlying with
  | _ => simp [holds, hhost, h]

theorem FieldType.holds_unset {t : FieldType} (h : t.isKnown = true) :
    t.holds t.unset = true := by
  rcases t with ⟨shape, scalar, text⟩
  cases shape with
  | unknown code => simp [isKnown] at h
  | scalar => exact Scalar.holds_zero scalar
  | text => rfl
  | _ =>
    cases text with
    | _ => rfl

theorem FieldType.unset_ne_other (t : FieldType) : t.unset ≠ .other := by
  unfold unset default
  cases htext : t.text with
  | _ =>
    cases hshape : t.shape with
    | _ => simp

namespace HostType.Holding

variable {t : HostType} {u : FieldType}

theorem zero_eq (h : t.Holding (some u)) : t.zero = u.unset := by
  unfold HostType.zero FieldType.unset FieldType.default
  cases h with
  | scalar host hscalar =>
    have hne := Builtin.ne_string_of_scalar? hscalar
    simp [host, hscalar, FieldType.ofScalar]
  | text host => simp [host, FieldType.ofText]
  | sequence host hbuiltin hscalar =>
    have hne := Builtin.ne_string_of_scalar? hscalar
    simp [host, hbuiltin, hscalar, FieldType.sequence_ofScalar]
  | texts host hbuiltin => simp [host, hbuiltin, FieldType.sequence_ofText]
  | optional host hbuiltin hscalar =>
    have hne := Builtin.ne_string_of_scalar? hscalar
    simp [host, hbuiltin, hscalar, FieldType.optional_ofScalar]
  | optionalText host hbuiltin => simp [host, hbuiltin, FieldType.optional_ofText]

theorem isKnown (h : t.Holding (some u)) : u.isKnown = true := by
  cases h with
  | scalar _ hscalar => exact Builtin.isKnown_of_scalar? hscalar
  | text => rfl
  | sequence _ _ hscalar => exact isKnown_sequence (Builtin.isKnown_of_scalar? hscalar)
  | texts => rfl
  | optional _ _ hscalar => exact isKnown_optional (Builtin.isKnown_of_scalar? hscalar)
  | optionalText => rfl

theorem holds_eq (h : t.Holding (some u)) (v : Value) : t.holds v = u.holds v := by
  have hother : (t.zero == .other) = false := by
    rw [h.zero_eq]
    exact beq_false_of_ne u.unset_ne_other
  unfold HostType.holds FieldType.holds Builtin.holdsAll
  cases h with
  | scalar host hscalar =>
    have hne := beq_false_of_ne (Builtin.ne_string_of_scalar? hscalar)
    cases v with
    | _ => simp [host, hother, hscalar, hne, FieldType.ofScalar]
  | text host =>
    cases v with
    | _ => simp [host, hother, FieldType.ofText, Builtin.scalar?]
  | sequence host hbuiltin hscalar =>
    have hne := beq_false_of_ne (Builtin.ne_string_of_scalar? hscalar)
    cases v with
    | _ => simp [host, hother, hbuiltin, hscalar, hne, FieldType.sequence_ofScalar]
  | texts host hbuiltin =>
    cases v with
    | _ => simp [host, hother, hbuiltin, FieldType.sequence_ofText, Builtin.scalar?]
  | optional host hbuiltin hscalar =>
    have hne := beq_false_of_ne (Builtin.ne_string_of_scalar? hscalar)
    cases v with
    | optional x =>
      cases x with
      | _ => simp [host, hbuiltin, hscalar, FieldType.optional_ofScalar]
    | _ => simp [host, hother, hbuiltin, hne, FieldType.optional_ofScalar]
  | optionalText host hbuiltin =>
    cases v with
    | _ => simp [host, hother, hbuiltin, FieldType.optional_ofText, Builtin.scalar?]

end HostType.Holding

theorem HostType.holds_zero (t : HostType) : t.holds t.zero = true := by
  obtain ⟨u, h⟩ := t.exists_holding
  cases u with
  | none =>
    cases h with
    | none hzero =>
      rw [hzero]
      exact holds_other hzero
  | some u =>
    rw [h.zero_eq, h.holds_eq]
    exact FieldType.holds_unset h.isKnown

theorem Scalar.exists_of_builtin? {s : Scalar} {b : Builtin} (h : s.builtin? = some b) :
    ∃ s', b.scalar? = some s' ∧ s.holds = s'.holds := by
  cases s with
  | unknown code => contradiction
  | _ =>
    cases h
    exact ⟨_, rfl, rfl⟩

theorem FieldType.exists_of_fits_holds {t : FieldType} {elem : HostType}
    (h : fits.holds t elem = true) :
    (t.text = true ∧ elem.builtin? = some .string) ∨ (t.text = false ∧ ∃ b s,
      elem.builtin? = some b ∧ b.scalar? = some s ∧ t.scalar.holds = s.holds) := by
  unfold fits.holds elemBuiltin? at h
  rw [Bool.and_eq_true, Option.isSome_iff_exists, beq_iff_eq] at h
  obtain ⟨⟨b, hb⟩, heq⟩ := h
  split at heq
  · next htext => exact .inl ⟨htext, heq⟩
  · next htext =>
    rw [hb] at heq
    obtain ⟨s, hs, hholds⟩ := Scalar.exists_of_builtin? heq.symm
    exact .inr ⟨Bool.eq_false_iff.2 htext, b, s, hb, hs, hholds⟩

theorem FieldType.exists_of_fits {t : FieldType} {host : HostType} (h : t.fits host = true) :
    ∃ u, host.Holding (some u) ∧ t.unset = u.unset ∧ ∀ v, t.holds v = u.holds v := by
  unfold fits at h
  unfold unset default holds
  split at h
  · next b hshape hhost =>
    obtain ⟨s, hs, hholds⟩ := Scalar.exists_of_builtin? (beq_iff_eq.1 h)
    refine ⟨_, .scalar hhost hs, ?_, ?_⟩
    · rw [hshape]
      rfl
    · rw [hshape, hholds]
      intro v
      cases v with
      | _ => rfl
  · next b hshape hhost =>
    rw [beq_iff_eq.1 h] at hhost
    refine ⟨_, .text hhost, ?_, ?_⟩
    · rw [hshape]
      rfl
    · rw [hshape]
      intro v
      cases v with
      | _ => rfl
  · next elem hshape hhost =>
    rcases exists_of_fits_holds h with ⟨htext, hb⟩ | ⟨htext, b, s, hb, hs, hholds⟩
    · refine ⟨_, .texts hhost hb, ?_, ?_⟩
      · rw [hshape, htext]
        rfl
      · rw [hshape, htext]
        intro v
        cases v with
        | _ => rfl
    · refine ⟨_, .sequence hhost hb hs, ?_, ?_⟩
      · rw [hshape, htext]
        rfl
      · rw [hshape, htext, hholds]
        intro v
        cases v with
        | _ => rfl
  · next elem hshape hhost =>
    rcases exists_of_fits_holds h with ⟨htext, hb⟩ | ⟨htext, b, s, hb, hs, hholds⟩
    · refine ⟨_, .optionalText hhost hb, ?_, ?_⟩
      · rw [hshape, htext]
        rfl
      · rw [hshape, htext]
        intro v
        cases v with
        | _ => rfl
    · refine ⟨_, .optional hhost hb hs, ?_, ?_⟩
      · rw [hshape, htext]
        rfl
      · rw [hshape, htext, hholds]
        intro v
        cases v with
        | _ => rfl
  · contradiction

theorem FieldType.zero_of_fits {t : FieldType} {host : HostType} (h : t.fits host = true) :
    host.zero = t.unset := by
  obtain ⟨u, hholding, hunset, -⟩ := exists_of_fits h
  rw [hholding.zero_eq, hunset]

theorem FieldType.holds_of_fits {t : FieldType} {host : HostType} (h : t.fits host = true)
    (v : Value) : host.holds v = t.holds v := by
  obtain ⟨u, hholding, -, hholds⟩ := exists_of_fits h
  rw [hholding.holds_eq, hholds]

namespace Binding

theorem isStruct_iff {bd : Binding} {struct : Array Value} :
    bd.isStruct struct = true ↔ struct.size = bd.members.length ∧
      ∀ (i : Nat) m v, bd.members[i]? = some m → struct[i]? = some v → m.type.holds v = true := by
  unfold isStruct
  rw [Bool.and_eq_true, beq_iff_eq, List.all_eq_true]
  constructor
  · rintro ⟨hsize, hall⟩
    refine ⟨hsize, ?_⟩
    intro i m v hm hv
    rw [← Array.getElem?_toList] at hv
    exact hall (m, v) (List.mem_of_getElem? (List.getElem?_zip_eq_some.2 ⟨hm, hv⟩))
  · rintro ⟨hsize, hall⟩
    refine ⟨hsize, ?_⟩
    rintro ⟨m, v⟩ hmem
    obtain ⟨i, hi⟩ := List.getElem?_of_mem hmem
    rw [List.getElem?_zip_eq_some, Array.getElem?_toList] at hi
    exact hall i m v hi.1 hi.2

structure Bound (p : Plan) (bd : Binding) : Prop where
  plan : bd.plan = p
  target : ∀ (i : Nat) f, p.fields[i]? = some f → ∃ t m, bd.targets[i]? = some t ∧
    bd.members.findIdx? (·.isFor f.name) = some t ∧ bd.members[t]? = some m ∧
    f.type.fits m.type = true

theorem bound_of_ofPlan {p : Plan} {type : Option HostType} {bd : Binding}
    (h : ofPlan (some p) type = .ok bd) : Bound p bd := by
  unfold ofPlan at h
  dsimp only at h
  split at h
  · next host members htype =>
    obtain ⟨targets, htargets, h⟩ := exists_of_bind_eq_ok h
    cases h
    refine ⟨rfl, ?_⟩
    intro i f hf
    rw [← Array.getElem?_toList] at hf
    obtain ⟨t, ht, htarget⟩ := getElem?_of_mapM_eq_ok htargets hf
    refine ⟨t, ?_⟩
    unfold target at htarget
    split at htarget
    · contradiction
    · next j hj =>
      split at htarget
      · contradiction
      · next m hm =>
        split at htarget
        · next hfits =>
          cases htarget
          refine ⟨m, ?_, hj, hm, hfits⟩
          rw [List.getElem?_toArray]
          exact ht
        · contradiction
  · contradiction

namespace Bound

variable {p : Plan} {bd : Binding} {struct : Array Value}

theorem exists_member (h : Bound p bd) {i : Nat} {f : Field} (hf : p.fields[i]? = some f) :
    ∃ m, bd.members[bd.targetOf i]? = some m ∧ f.type.fits m.type = true := by
  obtain ⟨t, m, ht, -, hm, hfits⟩ := h.target i f hf
  refine ⟨m, ?_, hfits⟩
  unfold targetOf
  rw [ht]
  exact hm

theorem getElem?_target (h : Bound p bd) (hstruct : bd.isStruct struct = true) {i : Nat}
    {f : Field} (hf : p.fields[i]? = some f) :
    struct[bd.targetOf i]? = some (bd.value struct i) := by
  obtain ⟨m, hm, -⟩ := h.exists_member hf
  obtain ⟨hlt, -⟩ := List.getElem?_eq_some_iff.1 hm
  have hsize := (isStruct_iff.1 hstruct).1
  unfold value
  rw [Array.getElem?_eq_getElem (by omega)]
  rfl

theorem value_holds (h : Bound p bd) (hstruct : bd.isStruct struct = true) {i : Nat} {f : Field}
    (hf : p.fields[i]? = some f) : f.type.Holds (bd.value struct i) := by
  obtain ⟨m, hm, hfits⟩ := h.exists_member hf
  rw [← FieldType.holds_iff, ← FieldType.holds_of_fits hfits]
  exact (isStruct_iff.1 hstruct).2 _ m _ hm (h.getElem?_target hstruct hf)

theorem fits (h : Bound p bd) (hp : p.WellFormed) (hstruct : bd.isStruct struct = true) :
    bd.Fits struct where
  wellFormed := by
    rw [h.plan]
    exact hp
  holds := by
    intro i f hf
    rw [h.plan] at hf
    exact h.value_holds hstruct hf

end Bound

end Binding

end RecordCodec
