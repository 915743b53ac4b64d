import RecordCodec.Proofs.Codec.RoundTrip
import RecordCodec.Proofs.Table.Truncation

/-!
This module contains the decoding of buffers that were cut off. A field of such a buffer has the
value that it has in the whole buffer, or its default.
-/

namespace RecordCodec

open RecordCodec.Table

theorem FieldType.keeps_found? {r r' : Reader} {slot : UInt16} (t : FieldType)
    (h : r.KeptBy r' slot) : Keeps (t.found? r slot) (t.found? r' slot) := by
  have hsequence : Keeps (read.sequence? t r slot) (read.sequence? t r' slot) := by
    unfold read.sequence?
    split
    · exact h.bytes
    · exact h.elements _
  unfold found?
  cases t.decodeStrategy with
  | scalar => exact (h.lookup _).map _
  | char => exact h.lookupChar.map _
  | scalarOptional => exact (h.lookup _).map _
  | charOptional => exact h.lookupChar.map _
  | text => exact h.text.map _
  | textOptional => exact h.text.map _
  | sequence => exact hsequence.map _
  | signedBytes => exact h.signedBytes.map _
  | charSequence => exact h.codePoints.map _
  | textSequence => exact h.strings.map _

namespace Binding

theorem Bound.value_inflate_append {p : Plan} {bd : Binding} (h : Bound p bd) (hp : p.WellFormed)
    (hseparate : bd.IsSeparate) (bytes suffix : Array UInt8) {i : Nat} {f : Field}
    (hf : p.fields[i]? = some f) :
    bd.value (bd.inflate bytes) i = bd.value (bd.inflate (bytes ++ suffix)) i ∨
      bd.value (bd.inflate bytes) i = f.type.default := by
  have hkept := f.type.keeps_found? (Reader.keptBy_ofBytes f.slot bytes suffix)
  have hdefault := FieldType.holds_default (hp.isKnown hf)
  rw [h.value_inflate hp hseparate bytes hf, h.value_inflate hp hseparate (bytes ++ suffix) hf,
    FieldType.read_eq hdefault, FieldType.read_eq hdefault]
  cases hfound : f.type.found? (Reader.ofBytes bytes) f.slot with
  | none => exact .inr rfl
  | some v =>
    rw [hkept v hfound]
    exact .inl rfl

theorem truncation_forges_nothing (bytes suffix : Array UInt8) :
    (∀ slot, (Reader.ofBytes bytes).KeptBy (Reader.ofBytes (bytes ++ suffix)) slot) ∧
    ∀ (record : Record) (p : Plan) (type : Option HostType) (bd : Binding),
      assemble record = .ok p → ofPlan (some p) type = .ok bd → bd.IsSeparate →
      (∀ (i : Nat) f, p.fields[i]? = some f →
        bd.value (bd.inflate bytes) i = bd.value (bd.inflate (bytes ++ suffix)) i ∨
          bd.value (bd.inflate bytes) i = f.type.default) ∧
      ∀ struct, bd.isStruct struct = true → ∀ b, bd.flatten struct b ≠ .error .tooLarge →
        ∃ b' whole, bd.flatten struct b = .ok b' ∧ b'.finishedBytes = .ok whole ∧
          ∀ cut, cut <+: whole → ∀ (i : Nat) f, p.fields[i]? = some f →
            bd.value (bd.inflate cut.toArray) i = bd.value (bd.inflate whole.toArray) i ∨
              bd.value (bd.inflate cut.toArray) i = f.type.default := by
  refine ⟨fun slot => Reader.keptBy_ofBytes slot bytes suffix, ?_⟩
  intro record p type bd hp hbd hseparate
  have hwellFormed := wellFormed_of_assemble hp
  have hbound := bound_of_ofPlan hbd
  refine ⟨fun i f hf => hbound.value_inflate_append hwellFormed hseparate bytes suffix hf, ?_⟩
  intro struct hstruct b hgrowth
  obtain ⟨b', o, base, hflatten, hbytes, -⟩ := exists_finished hwellFormed hbound hstruct hgrowth
  refine ⟨b', b'.written, hflatten, hbytes, ?_⟩
  rintro cut ⟨rest, hwhole⟩ i f hf
  rw [← hwhole, ← List.append_toArray]
  exact hbound.value_inflate_append hwellFormed hseparate cut.toArray rest.toArray hf

def cutBuffer : Array UInt8 :=
  #[14, 0, 0, 0,
    -- the vtable, with the fields 0 and 2
    10, 0, 16, 0, 8, 0, 0, 0, 4, 0,
    -- the table
    10, 0, 0, 0, 12, 0, 0, 0, 7, 0, 0, 0, 0, 0, 0, 0,
    -- the length of the name
    2, 0, 0, 0]

theorem truncation_forges_nothing_cutBuffer :
    (Reader.ofBytes cutBuffer).lookup? .u64 4 = some 7 ∧
    (Reader.ofBytes (cutBuffer ++ #[0x68, 0x69])).lookup? .u64 4 = some 7 ∧
    ∃ bd, Binding.dynamic Sample.entityPlan = .ok bd ∧
      bd.value (bd.inflate cutBuffer) 2 = .text [] ∧
      bd.value (bd.inflate (cutBuffer ++ #[0x68, 0x69])) 2 = .text [0x68, 0x69] ∧
      bd.isStruct sparseEntity.toStruct = true ∧
      ∃ b' whole, bd.flatten sparseEntity.toStruct (Builder.new 3) = .ok b' ∧
        b'.finishedBytes = .ok whole ∧
        ∀ n, bd.value (bd.inflate (whole.take n).toArray) 1 =
            bd.value (bd.inflate whole.toArray) 1 ∨
          bd.value (bd.inflate (whole.take n).toArray) 1 = .scalar 0 := by
  obtain ⟨bd, hbd⟩ := Sample.exists_dynamic_entityPlan
  have hp := wellFormed_of_assemble Sample.assemble_entityRecord
  have hdynamic := isDynamic_of_dynamic hp hbd
  obtain ⟨type, htype⟩ := exists_ofPlan_of_dynamic hbd
  have hstruct : bd.isStruct sparseEntity.toStruct = true := by
    unfold isStruct
    rw [hdynamic.members]
    decide
  have hgrowth := flatten_ne_tooLarge (hdynamic.bound.fits hp hstruct) (by decide) (Builder.new 3)
  have hid : (Reader.ofBytes cutBuffer).lookup? .u64 4 = some 7 := by decide
  have hname : ∀ bytes, bd.value (bd.inflate bytes) 2 =
      FieldType.ofText.read (Reader.ofBytes bytes) 8 (.text []) := fun bytes =>
    hdynamic.bound.value_inflate (i := 2) hp hdynamic.isSeparate bytes rfl
  obtain ⟨hkept, hinflate⟩ := truncation_forges_nothing cutBuffer #[0x68, 0x69]
  obtain ⟨-, hflat⟩ := hinflate _ _ _ bd Sample.assemble_entityRecord htype hdynamic.isSeparate
  obtain ⟨b', whole, hflatten, hbytes, hcut⟩ := hflat _ hstruct (Builder.new 3) hgrowth
  refine ⟨hid, (hkept 4).lookup .u64 7 hid, bd, hbd, ?_, ?_, hstruct, b', whole, hflatten, hbytes, ?_⟩
  · rw [hname]
    decide
  · rw [hname]
    decide
  · intro n
    exact hcut (whole.take n) (List.take_prefix n whole) 1 _ rfl

end Binding

end RecordCodec
