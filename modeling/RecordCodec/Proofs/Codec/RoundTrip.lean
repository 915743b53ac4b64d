import RecordCodec.Proofs.Codec.Inflated
import RecordCodec.Proofs.Codec.Presence

/-!
This module contains the round trip of the codec: a struct that is flattened and inflated again is
the struct of the canonical values of its fields.
-/

namespace RecordCodec

open RecordCodec.Table

namespace Binding

theorem Opened.read_eq {bd : Binding} {struct : Array Value} {base : Nat} {o b' : Builder}
    (h : bd.Opened struct base o) (hfinished : Finished o b') (hfits : bd.Fits struct)
    (hsize : bd.plan.layout.size ≤ 65528) {i : Nat} {f : Field}
    (hf : bd.plan.fields[i]? = some f) :
    f.type.read (finishedReader o b') f.slot f.type.default =
      f.type.canonical (bd.value struct i) := by
  have hpresent : bd.presentAt struct i = _ := presentAt_eq hf
  cases hcase : bd.presentAt struct i with
  | true =>
    obtain ⟨off, hfield, hholds⟩ := h.field?_of_present hfinished hfits hsize hf hcase
    rw [hcase] at hpresent
    exact FieldType.read_of_holdsField (hfits.holds i f hf) hpresent.symm rfl hfield hholds
  | false =>
    rw [hcase] at hpresent
    rw [FieldType.read_of_absent (h.field?_of_absent hfinished hfits hf hcase),
      FieldType.canonical_of_not_present (hfits.holds i f hf) hpresent.symm]

theorem Bound.exists_decodable {p : Plan} {bd : Binding} {struct : Array Value} (h : Bound p bd)
    (hp : p.WellFormed) (hsize : p.layout.size ≤ 65528) (hstruct : bd.isStruct struct = true)
    {b : Builder} (hgrowth : bd.flatten struct b ≠ .error .tooLarge) :
    ∃ b' bytes, bd.flatten struct b = .ok b' ∧ b'.finishedBytes = .ok bytes ∧
      (∀ (i : Nat) f, p.fields[i]? = some f →
        f.type.read (Reader.ofBytes bytes.toArray) f.slot f.type.default =
          f.type.canonical (bd.value struct i)) ∧
      ∀ (t : FieldType) (slot : UInt16) i, slot.toNat = 4 + 2 * i → p.fields.size ≤ i →
        t.read (Reader.ofBytes bytes.toArray) slot t.default = t.default := by
  have hfits := h.fits hp hstruct
  obtain ⟨b', o, base, hflatten, hbytes, hopened, hfinished, hreader⟩ :=
    exists_finished hp h hstruct hgrowth
  refine ⟨b', b'.written, hflatten, hbytes, ?_, ?_⟩
  · intro i f hf
    rw [← h.plan] at hf hsize
    rw [hreader]
    exact hopened.read_eq hfinished hfits hsize hf
  · intro t slot i hslot hi
    rw [hreader]
    apply FieldType.read_of_absent
    intro width
    apply hfinished.field?_eq_none hslot
    intro field hfield
    obtain ⟨hlt, -⟩ := Array.getElem?_eq_some_iff.1 hfield
    rw [hopened.size_eq, h.plan] at hlt
    omega

def Assigns (p : Plan) (value : Nat → Field → Value) (struct : Array Value) : Prop :=
  struct.size = p.fields.size ∧
    ∀ (i : Nat) f, p.fields[i]? = some f → struct[i]? = some (value i f)

theorem Assigns.eq_map {p : Plan} {value : Field → Value} {struct : Array Value}
    (h : Assigns p (fun _ f => value f) struct) : struct = p.fields.map value := by
  apply Array.ext_getElem?
  intro i
  rw [Array.getElem?_map]
  cases hf : p.fields[i]? with
  | some f => exact h.2 i f hf
  | none =>
    rw [Array.getElem?_eq_none_iff] at hf
    rw [Array.getElem?_eq_none (by rw [h.1]; exact hf)]
    rfl

namespace IsDynamic

variable {p : Plan} {bd : Binding} {struct : Array Value}

theorem value_eq (h : IsDynamic p bd) {i : Nat} (hi : i < p.fields.size) :
    bd.value struct i = (struct[i]?).getD .other := by
  unfold value
  rw [h.targetOf i hi]

theorem isSeparate (h : IsDynamic p bd) : bd.IsSeparate := by
  intro i hi j hj heq
  rw [h.bound.plan] at hi hj
  rw [h.targetOf i hi, h.targetOf j hj] at heq
  exact heq

theorem assigns_of_filling (h : IsDynamic p bd) {start : Array Value} {new old : Field → Value}
    (hstruct : bd.Filling start new old bd.plan.fields.size struct) :
    Assigns p (fun _ f => new f) struct := by
  constructor
  · rw [(isStruct_iff.1 hstruct.isStruct).1, h.members]
    simp
  · intro i f hf
    obtain ⟨hi, -⟩ := Array.getElem?_eq_some_iff.1 hf
    have htarget := h.bound.getElem?_target hstruct.isStruct hf
    rw [← h.bound.plan] at hf
    rw [h.targetOf i hi, hstruct.value_all hf] at htarget
    exact htarget

theorem filling_of_assigns (h : IsDynamic p bd) {new old : Field → Value}
    (hstruct : Assigns p (fun _ f => old f) struct) (hold : ∀ f ∈ p.fields, f.type.Holds (old f)) :
    bd.Filling struct new old 0 struct := by
  refine ⟨isStruct_iff.2 ⟨?_, ?_⟩, ?_, fun _ _ => rfl⟩
  · rw [hstruct.1, h.members]
    simp
  · intro i m v hm hv
    obtain ⟨hi, -⟩ := Array.getElem?_eq_some_iff.1 hv
    rw [hstruct.1] at hi
    have hf := Array.getElem?_eq_getElem hi
    obtain ⟨m', hm', hfits⟩ := h.bound.exists_member hf
    rw [h.targetOf i hi, hm] at hm'
    rw [hstruct.2 i _ hf] at hv
    cases hm'
    cases hv
    rw [FieldType.holds_of_fits hfits]
    exact FieldType.holds_iff.2 (hold _ (Array.getElem_mem hi))
  · intro i f hf
    rw [h.bound.plan] at hf
    obtain ⟨hi, -⟩ := Array.getElem?_eq_some_iff.1 hf
    rw [h.value_eq hi, hstruct.2 i f hf, if_neg (Nat.not_lt_zero i)]
    rfl

theorem assigns_new (h : IsDynamic p bd) (hp : p.WellFormed) :
    Assigns p (fun _ f => f.type.default) bd.new :=
  h.assigns_of_filling (h.bound.filling_new hp h.isSeparate)

theorem assigns_readFields (h : IsDynamic p bd) (hp : p.WellFormed) (r : Reader)
    {struct : Array Value} (hstruct : Assigns p (fun _ f => f.type.default) struct) :
    Assigns p (fun _ f => f.type.read r f.slot f.type.default) (bd.readFields r struct) := by
  apply h.assigns_of_filling
  exact h.bound.filling_readFields hp h.isSeparate r
    (h.filling_of_assigns hstruct hp.holds_default) hp.holds_default

theorem inflate_eq (h : IsDynamic p bd) (hp : p.WellFormed) (bytes : Array UInt8) :
    bd.inflate bytes =
      p.fields.map fun f => f.type.read (Reader.ofBytes bytes) f.slot f.type.default :=
  (h.assigns_readFields hp _ (h.assigns_new hp)).eq_map

end IsDynamic

def canonical (bd : Binding) (struct : Array Value) : Array Value :=
  bd.plan.fields.mapIdx fun i f => f.type.canonical (bd.value struct i)

theorem IsDynamic.canonical_eq {p : Plan} {bd : Binding} (h : IsDynamic p bd)
    (struct : Array Value) : bd.canonical struct =
      p.fields.mapIdx fun i f => f.type.canonical ((struct[i]?).getD .other) := by
  unfold canonical
  rw [h.bound.plan]
  apply Array.mapIdx_eq_mapIdx_iff.2
  intro i hi
  rw [h.value_eq hi]

theorem inflate_flatten {r : Record} {p : Plan} {bd : Binding} (hp : assemble r = .ok p)
    (hsize : p.layout.size ≤ 65528) (hbd : Binding.dynamic p = .ok bd) {struct : Array Value}
    (hstruct : bd.isStruct struct = true) (b : Builder)
    (hgrowth : bd.flatten struct b ≠ .error .tooLarge) :
    ∃ b' bytes, bd.flatten struct b = .ok b' ∧ b'.finishedBytes = .ok bytes ∧
      bd.inflate bytes.toArray = bd.canonical struct := by
  have hwellFormed := wellFormed_of_assemble hp
  have hdynamic := isDynamic_of_dynamic hwellFormed hbd
  have hfits := hdynamic.bound.fits hwellFormed hstruct
  obtain ⟨b', o, base, hflatten, hbytes, hopened, hfinished, hreader⟩ :=
    exists_finished hwellFormed hdynamic.bound hstruct hgrowth
  refine ⟨b', b'.written, hflatten, hbytes, ?_⟩
  have hread := hdynamic.assigns_readFields hwellFormed (finishedReader o b')
    (hdynamic.assigns_new hwellFormed)
  unfold inflate canonical
  rw [hreader]
  apply Array.ext_getElem?
  intro i
  rw [Array.getElem?_mapIdx, hdynamic.bound.plan]
  cases hf : p.fields[i]? with
  | some f =>
    rw [hread.2 i f hf, Option.map_some]
    rw [← hdynamic.bound.plan] at hf hsize
    dsimp only
    rw [hopened.read_eq hfinished hfits hsize hf]
  | none =>
    rw [Array.getElem?_eq_none_iff] at hf
    rw [Array.getElem?_eq_none (by rw [hread.1]; exact hf)]
    rfl

def lossyEntity : Sample.Entity where
  name := [0xff]
  nick := some [0xc3]
  score := some 0x8000000000000000
  grade := 0xd800
  tags := some [[0x61], [0xff]]
  deltas := none
  marks := some [0x61, 0xdfff, 0x10ffff]
  alt := some 0x110000
  active := 1

def inflatedEntity : Sample.Entity where
  score := some 0x8000000000000000
  tags := some [[0x61], []]
  marks := some [0x61, 0x10ffff]
  active := 1

theorem inflate_flatten_lossyEntity :
    ∃ bd b' bytes, Binding.dynamic Sample.entityPlan = .ok bd ∧
      bd.isStruct lossyEntity.toStruct = true ∧
      bd.flatten lossyEntity.toStruct (Builder.new 0) = .ok b' ∧ b'.finishedBytes = .ok bytes ∧
      bd.inflate bytes.toArray = inflatedEntity.toStruct := by
  obtain ⟨bd, hbd⟩ := Sample.exists_dynamic_entityPlan
  have hp := wellFormed_of_assemble Sample.assemble_entityRecord
  have hdynamic := isDynamic_of_dynamic hp hbd
  have hstruct : bd.isStruct lossyEntity.toStruct = true := by
    unfold isStruct
    rw [hdynamic.members]
    decide
  have hgrowth := flatten_ne_tooLarge (hdynamic.bound.fits hp hstruct) (by decide) (Builder.new 0)
  obtain ⟨b', bytes, hflatten, hbytes, hinflate⟩ := inflate_flatten
    Sample.assemble_entityRecord (by decide) hbd hstruct (Builder.new 0) hgrowth
  refine ⟨bd, b', bytes, hbd, hstruct, hflatten, hbytes, ?_⟩
  rw [hinflate, hdynamic.canonical_eq]
  decide

end Binding

end RecordCodec
