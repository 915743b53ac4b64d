import RecordCodec.Proofs.Sample.Entity

/-!
This module contains the presence law of flattened structs: the reader of one finds the fields that
are present, each where its value stands, and no others.
-/

namespace RecordCodec

open RecordCodec.Table

namespace Binding

namespace Opened

variable {bd : Binding} {struct : Array Value} {base : Nat} {o b' : Builder}

theorem distance_eq (h : bd.Opened struct base o) {is js : List Nat} {i : Nat}
    (hcommit : bd.plan.commit = is ++ i :: js) (hpresent : bd.presentAt struct i = true) :
    o.objectOffset - (base + bd.used struct is + bd.plan.widthAt i) =
      bd.used struct js + Layout.padding o.offset 4 + 4 := by
  have hoffset := h.offset_eq
  have happend := bd.used_append struct [i] js
  rw [List.singleton_append] at happend
  rw [hcommit, used_append, happend, used_singleton_of_present hpresent] at hoffset
  unfold Builder.objectOffset
  omega

theorem field?_of_absent (h : bd.Opened struct base o) (hfinished : Finished o b')
    (hfits : bd.Fits struct) {i : Nat} {f : Field} (hf : bd.plan.fields[i]? = some f)
    (habsent : bd.presentAt struct i = false) (width : Nat) :
    (finishedReader o b').field? f.slot width = none := by
  obtain ⟨hi, -⟩ := Array.getElem?_eq_some_iff.1 hf
  apply hfinished.field?_eq_none (hfits.wellFormed.slot_toNat hf)
  intro field hfield
  rw [h.getElem?_of_absent hi habsent] at hfield
  cases hfield
  rfl

theorem exists_offset_of_present (h : bd.Opened struct base o) (hfinished : Finished o b')
    (hfits : bd.Fits struct) (hsize : bd.plan.layout.size ≤ 65528) {i : Nat} {f : Field}
    (hf : bd.plan.fields[i]? = some f) (hpresent : bd.presentAt struct i = true) :
    ∃ off, o.vtable[i]? = some off ∧ off ≠ 0 ∧ bd.plan.widthAt i ≤ off ∧
      ∀ width ≤ off, (finishedReader o b').field? f.slot width = some (b'.offset - off) := by
  obtain ⟨hi, -⟩ := Array.getElem?_eq_some_iff.1 hf
  obtain ⟨is, js, hcommit⟩ := List.append_of_mem (hfits.wellFormed.mem_commit.2 hi)
  have hwidth := hfits.wellFormed.widthAt_pos hi
  have hvtable := h.getElem?_of_present hcommit hpresent
  have hdistance := h.distance_eq hcommit hpresent
  have hpad := Layout.padding_lt o.offset (show 0 < 4 by decide)
  have hoffset := h.offset_eq
  have hused := used_commit_le hfits
  have happend := bd.used_append struct [i] js
  rw [List.singleton_append] at happend
  rw [hcommit, used_append, happend, used_singleton_of_present hpresent] at hoffset hused
  refine ⟨base + bd.used struct is + bd.plan.widthAt i, hvtable, by omega, by omega, ?_⟩
  intro width hle
  apply hfinished.field?_eq_some (hfits.wellFormed.slot_toNat hf) hvtable
  · omega
  · omega
  · omega
  · exact hle

theorem field?_of_present (h : bd.Opened struct base o) (hfinished : Finished o b')
    (hfits : bd.Fits struct) (hsize : bd.plan.layout.size ≤ 65528) {i : Nat} {f : Field}
    (hf : bd.plan.fields[i]? = some f) (hpresent : bd.presentAt struct i = true) :
    ∃ off, (∀ width ≤ off,
        (finishedReader o b').field? f.slot width = some (b'.written.length - off)) ∧
      f.type.HoldsField (bd.value struct i) b'.written off := by
  obtain ⟨off, hvtable, hne, -, hfield⟩ :=
    h.exists_offset_of_present hfinished hfits hsize hf hpresent
  obtain ⟨front, hwritten⟩ := hfinished.written_append
  refine ⟨off, ?_, ?_⟩
  · rw [← b'.offset_eq]
    exact hfield
  · rw [hwritten]
    exact (h.holdsField hf hvtable hne).prepend front

theorem has_eq (h : bd.Opened struct base o) (hfinished : Finished o b') (hfits : bd.Fits struct)
    (hsize : bd.plan.layout.size ≤ 65528) {i : Nat} {f : Field}
    (hf : bd.plan.fields[i]? = some f) :
    (finishedReader o b').has f.slot = f.type.present (bd.value struct i) := by
  rw [← presentAt_eq hf]
  unfold Reader.has
  cases hpresent : bd.presentAt struct i with
  | true =>
    obtain ⟨off, hfield, -⟩ := h.field?_of_present hfinished hfits hsize hf hpresent
    rw [hfield 0 (Nat.zero_le _)]
    rfl
  | false =>
    rw [h.field?_of_absent hfinished hfits hf hpresent]
    rfl

theorem has_eq_false (h : bd.Opened struct base o) (hfinished : Finished o b')
    (hfits : bd.Fits struct) {slot : UInt16} (hslot : 4 ≤ slot.toNat) (heven : slot.toNat % 2 = 0)
    (hother : ∀ f ∈ bd.plan.fields, f.slot ≠ slot) :
    (finishedReader o b').has slot = false := by
  have hindex : slot.toNat = 4 + 2 * ((slot.toNat - 4) / 2) := by omega
  unfold Reader.has
  rw [hfinished.field?_eq_none hindex]
  · rfl
  · intro field hfield
    obtain ⟨hi, -⟩ := Array.getElem?_eq_some_iff.1 hfield
    rw [h.size_eq] at hi
    have hf := Array.getElem?_eq_getElem hi
    have hsame := hfits.wellFormed.slot_toNat hf
    exfalso
    apply hother _ (Array.mem_of_getElem? hf)
    apply UInt16.toNat_inj.1
    omega

end Opened

theorem exists_finished {p : Plan} {bd : Binding} {struct : Array Value} (hp : p.WellFormed)
    (hbound : Bound p bd) (hstruct : bd.isStruct struct = true) {b : Builder}
    (hgrowth : bd.flatten struct b ≠ .error .tooLarge) :
    ∃ b' o base, bd.flatten struct b = .ok b' ∧ b'.finishedBytes = .ok b'.written ∧
      bd.Opened struct base o ∧ Finished o b' ∧
      Reader.ofBytes b'.written.toArray = finishedReader o b' := by
  have hfits := hbound.fits hp hstruct
  obtain ⟨b', hflatten, o, base, hopened, hfinished⟩ := (flatten_reaches hfits b).exists_ok hgrowth
  refine ⟨b', o, base, hflatten, ?_, hopened, hfinished, ?_⟩
  · unfold Builder.finishedBytes
    rw [hfinished.isFinished]
    rfl
  · apply hfinished.ofBytes
    rw [hopened.size_eq]
    exact hfits.wellFormed.size_le

theorem has_flatten {r : Record} {p : Plan} {type : Option HostType} {bd : Binding}
    (hp : assemble r = .ok p) (hsize : p.layout.size ≤ 65528)
    (hbd : Binding.ofPlan (some p) type = .ok bd) {struct : Array Value}
    (hstruct : bd.isStruct struct = true) (b : Builder)
    (hgrowth : bd.flatten struct b ≠ .error .tooLarge) :
    ∃ b' bytes, bd.flatten struct b = .ok b' ∧ b'.finishedBytes = .ok bytes ∧
      (Reader.ofBytes bytes.toArray).isValid = true ∧
      (∀ f ∈ p.fields, (Reader.ofBytes bytes.toArray).has f.slot =
        f.type.present (bd.value struct f.index)) ∧
      ∀ slot : UInt16, 4 ≤ slot.toNat → slot.toNat % 2 = 0 → (∀ f ∈ p.fields, f.slot ≠ slot) →
        (Reader.ofBytes bytes.toArray).has slot = false := by
  have hwellFormed := wellFormed_of_assemble hp
  have hbound := bound_of_ofPlan hbd
  have hfits := hbound.fits hwellFormed hstruct
  obtain ⟨b', o, base, hflatten, hbytes, hopened, hfinished, hreader⟩ :=
    exists_finished hwellFormed hbound hstruct hgrowth
  refine ⟨b', b'.written, hflatten, hbytes, ?_, ?_, ?_⟩
  · rw [hreader]
    simp [Reader.isValid, finishedReader]
  · intro f hf
    obtain ⟨i, hi⟩ := Array.getElem?_of_mem hf
    rw [hreader, (hwellFormed.isPlaced i f hi).index]
    rw [← hbound.plan] at hi hsize
    exact hopened.has_eq hfinished hfits hsize hi
  · intro slot hslot heven hother
    rw [hreader]
    rw [← hbound.plan] at hother
    exact hopened.has_eq_false hfinished hfits hslot heven hother

def sparseEntity : Sample.Entity where
  flags := 1
  score := some 0
  tags := none

theorem has_flatten_sparseEntity :
    ∃ bd b' bytes, Binding.dynamic Sample.entityPlan = .ok bd ∧
      bd.isStruct sparseEntity.toStruct = true ∧
      bd.flatten sparseEntity.toStruct (Builder.new 3) = .ok b' ∧ b'.finishedBytes = .ok bytes ∧
      (Reader.ofBytes bytes.toArray).isValid = true ∧
      (∀ f ∈ Sample.entityPlan.fields, (Reader.ofBytes bytes.toArray).has f.slot =
        f.type.present (bd.value sparseEntity.toStruct f.index)) ∧
      (Reader.ofBytes bytes.toArray).has 32 = false := by
  obtain ⟨bd, hbd⟩ := Sample.exists_dynamic_entityPlan
  have hp := wellFormed_of_assemble Sample.assemble_entityRecord
  have hdynamic := isDynamic_of_dynamic hp hbd
  obtain ⟨type, htype⟩ := exists_ofPlan_of_dynamic hbd
  have hstruct : bd.isStruct sparseEntity.toStruct = true := by
    unfold isStruct
    rw [hdynamic.members]
    decide
  have hgrowth := flatten_ne_tooLarge (hdynamic.bound.fits hp hstruct) (by decide) (Builder.new 3)
  obtain ⟨b', bytes, hflatten, hbytes, hvalid, hfields, hothers⟩ := has_flatten
    Sample.assemble_entityRecord (by decide) htype hstruct (Builder.new 3) hgrowth
  refine ⟨bd, b', bytes, hbd, hstruct, hflatten, hbytes, hvalid, hfields, ?_⟩
  apply hothers
  · decide
  · decide
  · decide

end Binding

end RecordCodec
