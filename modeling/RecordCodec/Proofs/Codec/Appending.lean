import RecordCodec.Proofs.Codec.RoundTrip

/-!
This module contains how records that grow at their end stay compatible: a table of the shorter
record is read by the longer one with defaults for what is missing, and a table of the longer record
is read by the shorter one without what is new.
-/

namespace RecordCodec

open RecordCodec.Table

theorem getElem?_fields_of_append {r r' : Record} {p p' : Plan} (happended : r.fields <+: r'.fields)
    (hp : assemble r = .ok p) (hp' : assemble r' = .ok p') {i : Nat} (hi : i < p.fields.size) :
    p'.fields[i]? = p.fields[i]? := by
  obtain ⟨hsize, hdeclared⟩ := declared_of_assemble hp
  obtain ⟨-, hdeclared'⟩ := declared_of_assemble hp'
  obtain ⟨more, hmore⟩ := happended
  rw [hsize] at hi
  have hd := List.getElem?_eq_getElem hi
  have hd' : r'.fields[i]? = some r.fields[i] := by
    rw [← hmore, List.getElem?_append_left hi, hd]
  -- the declarations are the same, and the type of a field is what its declaration says
  obtain ⟨t, htype, hget⟩ := hdeclared i _ hd
  obtain ⟨t', htype', hget'⟩ := hdeclared' i _ hd'
  rw [htype] at htype'
  cases htype'
  rw [hget, hget']

namespace Binding

theorem appended_fields_are_compatible {r r' : Record} {p p' : Plan}
    {type type' : Option HostType} {bd bd' : Binding} (happended : r.fields <+: r'.fields)
    (hp : assemble r = .ok p) (hp' : assemble r' = .ok p') (hsize : p.layout.size ≤ 65528)
    (hsize' : p'.layout.size ≤ 65528) (hbd : ofPlan (some p) type = .ok bd)
    (hbd' : ofPlan (some p') type' = .ok bd') (hseparate : bd.IsSeparate)
    (hseparate' : bd'.IsSeparate) :
    (∀ struct, bd.isStruct struct = true → ∀ b, bd.flatten struct b ≠ .error .tooLarge →
      ∃ b₁ bytes, bd.flatten struct b = .ok b₁ ∧ b₁.finishedBytes = .ok bytes ∧
        bd'.isStruct (bd'.inflate bytes.toArray) = true ∧
        ∀ (i : Nat) f, p'.fields[i]? = some f → bd'.value (bd'.inflate bytes.toArray) i =
          if i < p.fields.size then f.type.canonical (bd.value struct i) else f.type.default) ∧
    (∀ struct', bd'.isStruct struct' = true → ∀ b, bd'.flatten struct' b ≠ .error .tooLarge →
      ∃ b₁ bytes, bd'.flatten struct' b = .ok b₁ ∧ b₁.finishedBytes = .ok bytes ∧
        bd.isStruct (bd.inflate bytes.toArray) = true ∧
        ∀ (i : Nat) f, p.fields[i]? = some f →
          bd.value (bd.inflate bytes.toArray) i = f.type.canonical (bd'.value struct' i)) := by
  have hwellFormed := wellFormed_of_assemble hp
  have hwellFormed' := wellFormed_of_assemble hp'
  have hbound := bound_of_ofPlan hbd
  have hbound' := bound_of_ofPlan hbd'
  constructor
  · intro struct hstruct b hgrowth
    obtain ⟨b₁, bytes, hflatten, hbytes, hread, hrest⟩ :=
      hbound.exists_decodable hwellFormed hsize hstruct hgrowth
    refine ⟨b₁, bytes, hflatten, hbytes,
      (hbound'.filling_inflate hwellFormed' hseparate' _).isStruct, ?_⟩
    intro i f hf
    rw [hbound'.value_inflate hwellFormed' hseparate' _ hf]
    by_cases hi : i < p.fields.size
    · rw [if_pos hi]
      rw [getElem?_fields_of_append happended hp hp' hi] at hf
      exact hread i f hf
    · rw [if_neg hi]
      exact hrest f.type f.slot i (hwellFormed'.slot_toNat hf) (by omega)
  · intro struct' hstruct' b hgrowth
    obtain ⟨b₁, bytes, hflatten, hbytes, hread, -⟩ :=
      hbound'.exists_decodable hwellFormed' hsize' hstruct' hgrowth
    refine ⟨b₁, bytes, hflatten, hbytes,
      (hbound.filling_inflate hwellFormed hseparate _).isStruct, ?_⟩
    intro i f hf
    rw [hbound.value_inflate hwellFormed hseparate _ hf]
    obtain ⟨hi, -⟩ := Array.getElem?_eq_some_iff.1 hf
    rw [← getElem?_fields_of_append happended hp hp' hi] at hf
    exact hread i f hf

def datedRecord : Record where
  name := "DatedEntity"
  fields := Sample.entityRecord.fields ++ [⟨"born", "option<s64>"⟩, ⟨"labels", "list<string>"⟩]

def datedPlan : Plan :=
  Plan.ofFields datedRecord.name (fieldsFrom 0 datedRecord.fields
    (Sample.entityTypes ++ [.optional (.ofScalar .s64), .sequence .ofText]))

theorem assemble_datedRecord : assemble datedRecord = .ok datedPlan :=
  assemble_of_names (by decide)

def datedEntity : Array Value :=
  lossyEntity.toStruct ++ #[.optional (some 5), .texts (some [[0x62]])]

theorem appended_fields_are_compatible_entity :
    ∃ bd bd', Binding.dynamic Sample.entityPlan = .ok bd ∧ Binding.dynamic datedPlan = .ok bd' ∧
      (∃ b₁ bytes, bd.flatten lossyEntity.toStruct (Builder.new 0) = .ok b₁ ∧
        b₁.finishedBytes = .ok bytes ∧
        bd'.value (bd'.inflate bytes.toArray) 6 = .texts (some [[0x61], []]) ∧
        bd'.value (bd'.inflate bytes.toArray) 14 = .optional none ∧
        bd'.value (bd'.inflate bytes.toArray) 15 = .texts (some [])) ∧
      ∃ b₁ bytes, bd'.flatten datedEntity (Builder.new 0) = .ok b₁ ∧
        b₁.finishedBytes = .ok bytes ∧
        bd.value (bd.inflate bytes.toArray) 6 = .texts (some [[0x61], []]) := by
  have hp := wellFormed_of_assemble Sample.assemble_entityRecord
  have hp' := wellFormed_of_assemble assemble_datedRecord
  obtain ⟨bd, hbd⟩ := Sample.exists_dynamic_entityPlan
  obtain ⟨bd', hbd'⟩ : ∃ bd', Binding.dynamic datedPlan = .ok bd' := exists_dynamic hp' (by decide)
  have hdynamic := isDynamic_of_dynamic hp hbd
  have hdynamic' := isDynamic_of_dynamic hp' hbd'
  obtain ⟨type, htype⟩ := exists_ofPlan_of_dynamic hbd
  obtain ⟨type', htype'⟩ := exists_ofPlan_of_dynamic hbd'
  have hstruct : bd.isStruct lossyEntity.toStruct = true := by
    unfold isStruct
    rw [hdynamic.members]
    decide
  have hstruct' : bd'.isStruct datedEntity = true := by
    unfold isStruct
    rw [hdynamic'.members]
    decide
  have hgrowth := flatten_ne_tooLarge (hdynamic.bound.fits hp hstruct) (by decide) (Builder.new 0)
  have hgrowth' := flatten_ne_tooLarge (hdynamic'.bound.fits hp' hstruct') (by decide)
    (Builder.new 0)
  obtain ⟨hold, hnew⟩ := appended_fields_are_compatible (List.prefix_append ..)
    Sample.assemble_entityRecord assemble_datedRecord (by decide) (by decide) htype htype'
    hdynamic.isSeparate hdynamic'.isSeparate
  obtain ⟨b₁, bytes, hflatten, hbytes, -, hvalues⟩ := hold _ hstruct _ hgrowth
  obtain ⟨b₂, bytes', hflatten', hbytes', -, hvalues'⟩ := hnew _ hstruct' _ hgrowth'
  refine ⟨bd, bd', hbd, hbd', ⟨b₁, bytes, hflatten, hbytes, ?_, ?_, ?_⟩,
    b₂, bytes', hflatten', hbytes', ?_⟩
  · rw [hvalues 6 _ rfl, hdynamic.value_eq (by decide)]
    decide
  · rw [hvalues 14 _ rfl]
    rfl
  · rw [hvalues 15 _ rfl]
    rfl
  · rw [hvalues' 6 _ rfl, hdynamic'.value_eq (by decide)]
    decide

end Binding

end RecordCodec
