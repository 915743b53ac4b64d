import RecordCodec.Proofs.Codec.Encoder
import RecordCodec.Proofs.Codec.FieldOffsets

/-!
This module contains the alignment law of flattened structs. A builder aligns offsets, which count
from the end of the buffer. `Finished.dvd_offset` turns that into the alignment of positions, which
count from its start.
-/

namespace RecordCodec.Table

structure Refers (bytes : Array UInt8) (pos target : Nat) : Prop where
  dvd : 4 ∣ pos
  distance : ∃ d, load? bytes pos 4 = some d ∧ pos + d = target

structure IsAlignedVector (bytes : Array UInt8) (pos count align : Nat) : Prop where
  dvd : 4 ∣ pos
  length : load? bytes pos 4 = some count
  dvd_first : align ∣ pos + 4

namespace Creation

def elemSize : Creation → Nat
  | string _ | signedBytes _ => 1
  | strings _ | codePoints _ => 4
  | vector elem _ => elem.size

def count : Creation → Nat
  | string text => text.length
  | strings texts => texts.length
  | codePoints elems | signedBytes elems | vector _ elems => elems.length

def texts : Creation → List (List UInt8)
  | strings texts => texts
  | _ => []

def Aligned (c : Creation) (b : Builder) (off : Nat) : Prop :=
  AlignedVector b off c.count c.elemSize ∧ AlignedTexts b off c.texts

structure IsAligned (c : Creation) (bytes : Array UInt8) (pos : Nat) : Prop where
  vector : IsAlignedVector bytes pos c.count c.elemSize
  texts : ∀ (i : Nat) text, c.texts[i]? = some text →
    ∃ target, Refers bytes (pos + 4 + 4 * i) target ∧ IsAlignedVector bytes target text.length 1

theorem Aligned.keep {c : Creation} {b b' : Builder} {off : Nat} (h : c.Aligned b off)
    (hkeeps : b.Keeps b') : c.Aligned b' off :=
  ⟨h.1.keep hkeeps, h.2.keep hkeeps⟩

theorem aligned_of_texts_eq_nil {c : Creation} {b : Builder} {off : Nat} (hc : c.texts = [])
    (h : AlignedVector b off c.count c.elemSize) : c.Aligned b off := by
  refine ⟨h, ?_⟩
  intro i text htext
  rw [hc] at htext
  simp at htext

theorem run_aligned {c : Creation} {b : Builder} (hc : c.elemSize ∣ 8) (hb : b.isNested = false) :
    Reaches 0x40000000 (c.run b) fun (b', off) => b.Extends b' ∧ c.Aligned b' off := by
  cases c with
  | string text =>
    apply (Builder.createString_reaches text hb).limit.mono (Nat.le_refl _)
    rintro ⟨b', off⟩ ⟨hextends, -, -, haligned⟩
    exact ⟨hextends, aligned_of_texts_eq_nil rfl haligned⟩
  | strings texts =>
    apply (Builder.createStringVector_reaches texts hb).limit.mono (Nat.le_refl _)
    rintro ⟨b', off⟩ ⟨hextends, -, -, haligned⟩
    exact ⟨hextends, haligned⟩
  | codePoints codes =>
    apply (Builder.createVector_reaches (s := .u32) codes rfl hb).limit.mono (Nat.le_refl _)
    rintro ⟨b', off⟩ hvector
    exact ⟨hvector.extends_, aligned_of_texts_eq_nil rfl hvector.aligned⟩
  | signedBytes elems =>
    apply (Builder.createByteVector_reaches (s := .s8) elems rfl hb).limit.mono (Nat.le_refl _)
    rintro ⟨b', off⟩ hvector
    exact ⟨hvector.extends_, aligned_of_texts_eq_nil rfl hvector.aligned⟩
  | vector elem elems =>
    have hvalid : elem.isValid = true := by
      cases elem with
      | unknown code => exact absurd hc (by decide : ¬ 0 ∣ 8)
      | _ => rfl
    apply (Builder.createVector_reaches elems hvalid hb).limit.mono (Nat.le_refl _)
    rintro ⟨b', off⟩ hvector
    exact ⟨hvector.extends_, aligned_of_texts_eq_nil rfl hvector.aligned⟩

end Creation

namespace Slotted

variable {b b' : Builder} {i width : Nat}

theorem keeps (h : Slotted b b' i width) : b.Keeps b' := by
  refine ⟨h.written, ?_⟩
  rw [h.minAlign]
  exact Nat.le_max_left ..

theorem dvd_offset (h : Slotted b b' i width) (hwidth : 0 < width) : width ∣ b'.offset := by
  rw [h.offset]
  exact Nat.dvd_add (Layout.dvd_add_padding b.offset hwidth) (Nat.dvd_refl _)

end Slotted

namespace Finished

variable {o b' : Builder} {off align : Nat}

theorem dvd_of_le_minAlign (h : Finished o b') (hminAlign : o.minAlign ∣ 8) (halign : align ∣ 8)
    (hle : align ≤ o.minAlign) : align ∣ b'.offset := by
  have hcases : ∀ m ≤ 8, ∀ n ≤ 8, m ∣ 8 → n ∣ 8 → m ≤ n → m ∣ max n 4 := by decide
  apply Nat.dvd_trans _ h.dvd_offset
  exact hcases _ (Nat.le_of_dvd (by decide) halign) _ (Nat.le_of_dvd (by decide) hminAlign) halign
    hminAlign hle

theorem four_dvd_offset (h : Finished o b') (hminAlign : o.minAlign ∣ 8) : 4 ∣ b'.offset := by
  have hcases : ∀ n ≤ 8, n ∣ 8 → 4 ∣ max n 4 := by decide
  apply Nat.dvd_trans _ h.dvd_offset
  exact hcases _ (Nat.le_of_dvd (by decide) hminAlign) hminAlign

theorem refers (h : Finished o b') (hminAlign : o.minAlign ∣ 8) {target : Nat}
    (hoffset : HoldsOffset o.written off target) (hdvd : 4 ∣ off) :
    Refers b'.written.toArray (b'.offset - off) (b'.offset - target) := by
  obtain ⟨front, hwritten⟩ := h.written_append
  have hholds := hoffset.prepend front
  rw [← hwritten] at hholds
  obtain ⟨hlt, hroom, hstands⟩ := hholds
  have hle := hstands.le_length
  rw [← b'.offset_eq] at hle
  refine ⟨Nat.dvd_sub (h.four_dvd_offset hminAlign) hdvd, off - target, ?_, by omega⟩
  apply hstands.load?_leBytes
  · rw [← b'.offset_eq]
    omega
  · have : Nat.pow 256 4 = 0x100000000 := rfl
    omega

theorem isAlignedVector (h : Finished o b') (hminAlign : o.minAlign ∣ 8) {count : Nat}
    (hvector : AlignedVector o off count align) (halign : align ∣ 8) :
    IsAlignedVector b'.written.toArray (b'.offset - off) count align := by
  obtain ⟨front, hwritten⟩ := h.written_append
  have hholds := hvector.header.prepend front
  rw [← hwritten] at hholds
  have hfits := hholds.fits
  obtain ⟨hcount, hstands⟩ := hholds
  have hle := hstands.le_length
  rw [← b'.offset_eq] at hle
  rw [List.append_nil] at hstands
  refine ⟨Nat.dvd_sub (h.four_dvd_offset hminAlign) hvector.dvd, ?_, ?_⟩
  · apply hstands.load?_leBytes
    · rw [← b'.offset_eq]
      omega
    · have : Nat.pow 256 4 = 0x100000000 := rfl
      omega
  · have hfirst : b'.offset - off + 4 = b'.offset - (off - 4) := by omega
    rw [hfirst]
    exact Nat.dvd_sub (h.dvd_of_le_minAlign hminAlign halign hvector.le_minAlign) hvector.dvd_first

theorem isAligned (h : Finished o b') (hminAlign : o.minAlign ∣ 8) {c : Creation}
    (hc : c.elemSize ∣ 8) (haligned : c.Aligned o off) :
    c.IsAligned b'.written.toArray (b'.offset - off) := by
  obtain ⟨hvector, htexts⟩ := haligned
  refine ⟨h.isAlignedVector hminAlign hvector hc, ?_⟩
  intro i text htext
  obtain ⟨target, hoffset, htext'⟩ := htexts i text htext
  refine ⟨b'.offset - target, ?_, h.isAlignedVector hminAlign htext' (by decide)⟩
  have hrefers := h.refers hminAlign hoffset (by have := hvector.dvd; omega)
  have hlength := hoffset.2.2.length_le
  rw [length_leBytes] at hlength
  have hle := hvector.header.le_length
  have hobject := h.objectOffset_le
  have hposition : b'.offset - (off - 4 - 4 * i) = b'.offset - off + 4 + 4 * i := by
    rw [← o.offset_eq] at hle
    unfold Builder.objectOffset at hobject
    omega
  rw [← hposition]
  exact hrefers

end Finished

end RecordCodec.Table

namespace RecordCodec

open RecordCodec.Table

namespace FieldType

structure AlignedField (t : FieldType) (v : Value) (b : Builder) (off : Nat) : Prop where
  dvd : t.width ∣ off
  width_le : t.width ≤ b.minAlign
  object : ∀ c, t.creation? v = some c →
    ∃ target, HoldsOffset b.written off target ∧ c.Aligned b target

structure IsAlignedAt (t : FieldType) (v : Value) (bytes : Array UInt8) (pos : Nat) : Prop where
  dvd : t.width ∣ pos
  object : ∀ c, t.creation? v = some c → ∃ target, Refers bytes pos target ∧ c.IsAligned bytes target

def alignment (t : FieldType) (v : Value) : Nat :=
  max t.width (((t.creation? v).map Creation.elemSize).getD 1)

theorem AlignedField.keep {t : FieldType} {v : Value} {b b' : Builder} {off : Nat}
    (h : t.AlignedField v b off) (hkeeps : b.Keeps b') : t.AlignedField v b' off where
  dvd := h.dvd
  width_le := Nat.le_trans h.width_le hkeeps.minAlign_le
  object := by
    intro c hc
    obtain ⟨target, hoffset, haligned⟩ := h.object c hc
    obtain ⟨bytes, hwritten⟩ := hkeeps.written
    refine ⟨target, ?_, haligned.keep hkeeps⟩
    rw [hwritten]
    exact hoffset.prepend bytes

theorem elemSize_dvd_of_creation? {t : FieldType} {v : Value} {c : Creation}
    (hknown : t.isKnown = true) (h : t.creation? v = some c) : c.elemSize ∣ 8 := by
  cases c with
  | string text => exact Nat.one_dvd 8
  | strings texts => exact ⟨2, rfl⟩
  | codePoints codes => exact ⟨2, rfl⟩
  | signedBytes elems => exact Nat.one_dvd 8
  | vector elem elems => exact Scalar.size_dvd_of_isValid (isValid_of_creation? hknown h)

theorem build_aligned {t : FieldType} (hknown : t.isKnown = true) (v : Value) {b : Builder}
    (hb : b.isNested = false) :
    Reaches 0x40000000 (t.build v b) fun (b', off) => b.Extends b' ∧
      ∀ target, off = some target → ∃ c, t.creation? v = some c ∧ c.Aligned b' target := by
  rw [← run_make?]
  cases hc : t.creation? v with
  | none =>
    apply Reaches.ok
    refine ⟨Builder.Extends.refl b, ?_⟩
    intro target htarget
    contradiction
  | some c =>
    show Reaches _ ((some <$> Calls.make c).run b) _
    rw [Calls.run_map, Calls.run_make]
    apply Reaches.bind (Creation.run_aligned (elemSize_dvd_of_creation? hknown hc) hb)
    rintro ⟨b', off⟩ ⟨hextends, haligned⟩
    apply Reaches.ok
    refine ⟨hextends, ?_⟩
    intro target htarget
    cases htarget
    exact ⟨c, rfl, haligned⟩

theorem creation?_of_not_isIndirect {t : FieldType} (h : t.isIndirect = false) (v : Value) :
    t.creation? v = none := by
  rcases t with ⟨shape, scalar, text⟩
  cases shape with
  | text => contradiction
  | sequence => contradiction
  | optional =>
    cases text with
    | true => contradiction
    | false => cases scalar <;> rfl
  | scalar => cases scalar <;> rfl
  | unknown code => cases scalar <;> rfl

theorem width_of_creation? {t : FieldType} {v : Value} {c : Creation}
    (h : t.creation? v = some c) : t.width = 4 := by
  cases hindirect : t.isIndirect with
  | true =>
    unfold width
    rw [if_pos hindirect]
  | false =>
    rw [creation?_of_not_isIndirect hindirect] at h
    contradiction

theorem not_isIndirect_of_encodeStrategy {t : FieldType}
    (h : t.encodeStrategy = .inline ∨ t.encodeStrategy = .inlinePresent) :
    t.isIndirect = false := by
  unfold encodeStrategy at h
  unfold isIndirect
  cases hshape : t.shape with
  | optional => cases htext : t.text <;> simp_all
  | _ => simp_all

def AlignedCommit (t : FieldType) (i : Nat) (v : Value) (b b' : Builder) : Prop :=
  b' = b ∨ Slotted b b' i t.width ∧ t.AlignedField v b' b'.offset

theorem alignedCommit_of_slotted {t : FieldType} {v : Value} {b b' : Builder} {i : Nat}
    (hknown : t.isKnown = true) (h : Slotted b b' i t.width)
    (hobject : ∀ c, t.creation? v = some c →
      ∃ target, HoldsOffset b'.written b'.offset target ∧ c.Aligned b' target) :
    t.AlignedCommit i v b b' := by
  refine .inr ⟨h, h.dvd_offset (width_pos_of_isKnown hknown), ?_, hobject⟩
  rw [h.minAlign]
  exact Nat.le_max_right ..

theorem slotAlways_aligned {t : FieldType} {v : Value} {b : Builder} {i bits : Nat}
    (hknown : t.isKnown = true) (hindirect : t.isIndirect = false) (hi : i < b.vtable.size) :
    Reaches 0x40000000 (b.slotAlways t.scalar i bits) (t.AlignedCommit i v b) := by
  have hpos := Scalar.size_pos_of_isValid (isValid_of_isKnown hknown)
  apply (Builder.slotAlways_reaches bits hpos hi).limit.mono (Nat.le_refl _)
  rintro b' ⟨hslotted, -⟩
  rw [← width_of_not_isIndirect hindirect] at hslotted
  apply alignedCommit_of_slotted hknown hslotted
  intro c hc
  rw [creation?_of_not_isIndirect hindirect] at hc
  contradiction

theorem offsetSlot_aligned {t : FieldType} {v : Value} {b : Builder} {i off : Nat}
    (hknown : t.isKnown = true) (hi : i < b.vtable.size)
    (hobject : ∃ c, t.creation? v = some c ∧ c.Aligned b off) :
    Reaches 0x40000000 (b.offsetSlot i off) (t.AlignedCommit i v b) := by
  obtain ⟨c, hc, haligned⟩ := hobject
  have hoff : off ≤ b.offset := by
    rw [b.offset_eq]
    exact haligned.1.header.le_length
  apply (Builder.offsetSlot_reaches hoff hi).limit.mono (Nat.le_refl _)
  rintro b' ⟨hslotted, hoffset⟩
  rw [← width_of_creation? hc] at hslotted
  apply alignedCommit_of_slotted hknown hslotted
  intro c' hc'
  rw [hc] at hc'
  cases hc'
  exact ⟨off, hoffset, haligned.keep hslotted.keeps⟩

theorem commit_aligned {t : FieldType} {v : Value} {b : Builder} {i : Nat} {off : Option Nat}
    (hknown : t.isKnown = true) (hi : i < b.vtable.size)
    (hobject : ∀ target, off = some target → ∃ c, t.creation? v = some c ∧ c.Aligned b target) :
    Reaches 0x40000000 (t.commit i v off b) (t.AlignedCommit i v b) := by
  unfold commit
  split
  · next hstrategy =>
    unfold Builder.slot
    split
    · exact Reaches.ok (.inl rfl)
    · exact slotAlways_aligned hknown (not_isIndirect_of_encodeStrategy (.inl hstrategy)) hi
  · next hstrategy =>
    exact slotAlways_aligned hknown (not_isIndirect_of_encodeStrategy (.inr hstrategy)) hi
  · next target hstrategy => exact offsetSlot_aligned hknown hi (hobject target rfl)
  · next target hstrategy => exact offsetSlot_aligned hknown hi (hobject target rfl)
  · exact Reaches.ok (.inl rfl)

end FieldType

namespace Binding

def AlignedObjects (bd : Binding) (struct : Array Value) (offs : Array (Option Nat)) (b : Builder) :
    Prop :=
  ∀ (i : Nat) f target, bd.plan.fields[i]? = some f → offs[i]? = some (some target) →
    ∃ c, f.type.creation? (bd.value struct i) = some c ∧ c.Aligned b target

def AlignedFields (bd : Binding) (struct : Array Value) (b : Builder) : Prop :=
  ∀ (i : Nat) f off, bd.plan.fields[i]? = some f → b.vtable[i]? = some off → off ≠ 0 →
    f.type.AlignedField (bd.value struct i) b off

def widest (bd : Binding) (struct : Array Value) : Nat :=
  ((bd.plan.fields.toList.filter fun f => f.type.present (bd.value struct f.index)).map fun f =>
    f.type.alignment (bd.value struct f.index)).foldr max 4

/--
Every present field of a struct stands in a buffer where its alignment allows, counted from the start
of the buffer, and so do its object, the table and the vtable.
-/
structure IsAligned (bd : Binding) (struct : Array Value) (bytes : Array UInt8) : Prop where
  isValid : (Reader.ofBytes bytes).isValid = true
  root : Refers bytes 0 (Reader.ofBytes bytes).table
  table : 4 ∣ (Reader.ofBytes bytes).table
  vtable : 2 ∣ (Reader.ofBytes bytes).vtable
  fields : ∀ (i : Nat) f, bd.plan.fields[i]? = some f →
    f.type.present (bd.value struct i) = true →
    ∃ pos, (Reader.ofBytes bytes).field? f.slot f.type.width = some pos ∧
      f.type.IsAlignedAt (bd.value struct i) bytes pos
  size : bd.widest struct ∣ bytes.size

section

variable {bd : Binding} {struct : Array Value}

theorem AlignedObjects.keep {offs : Array (Option Nat)} {b b' : Builder}
    (h : bd.AlignedObjects struct offs b) (hkeeps : b.Keeps b') :
    bd.AlignedObjects struct offs b' := by
  intro i f target hf htarget
  obtain ⟨c, hc, haligned⟩ := h i f target hf htarget
  exact ⟨c, hc, haligned.keep hkeeps⟩

theorem buildObjects_step_aligned {b : Builder} {offs : Array (Option Nat)} {i : Nat}
    (hp : bd.plan.WellFormed) (hb : b.isNested = false) (h : bd.AlignedObjects struct offs b) :
    Reaches 0x40000000 (buildObjects.step bd struct (b, offs) i) fun (b', offs') =>
      b.Extends b' ∧ bd.AlignedObjects struct offs' b' := by
  unfold buildObjects.step
  cases hf : bd.plan.fields[i]? with
  | none => exact Reaches.ok ⟨Builder.Extends.refl b, h⟩
  | some f =>
    apply Reaches.bind (FieldType.build_aligned (hp.isKnown hf) (bd.value struct i) hb)
    rintro ⟨b', off⟩ ⟨hextends, hobject⟩
    apply Reaches.pure
    refine ⟨hextends, ?_⟩
    intro j g target hg htarget
    dsimp only at htarget
    by_cases hij : i = j
    · subst hij
      rw [hf] at hg
      cases hg
      rw [Array.getElem?_setIfInBounds, if_pos rfl] at htarget
      split at htarget
      · cases htarget
        exact hobject target rfl
      · contradiction
    · rw [Array.getElem?_setIfInBounds_ne hij] at htarget
      exact h.keep hextends.keeps j g target hg htarget

theorem buildObjects_aligned {b : Builder} (hp : bd.plan.WellFormed) (hb : b.isNested = false) :
    Reaches 0x40000000 (bd.buildObjects struct b) fun (b', offs) =>
      b.Extends b' ∧ bd.AlignedObjects struct offs b' := by
  unfold buildObjects
  apply Reaches.foldlM fun _ (state : Builder × Array (Option Nat)) =>
    b.Extends state.1 ∧ bd.AlignedObjects struct state.2 state.1
  · rintro i _ ⟨b₁, offs⟩ ⟨hextends, haligned⟩
    have hb₁ : b₁.isNested = false := by rw [hextends.isNested, hb]
    apply (buildObjects_step_aligned hp hb₁ haligned).mono (Nat.le_refl _)
    rintro ⟨b₂, offs'⟩ ⟨hextends', haligned'⟩
    exact ⟨hextends.trans hextends', haligned'⟩
  · refine ⟨Builder.Extends.refl b, ?_⟩
    intro i f target _ htarget
    rw [Array.getElem?_replicate] at htarget
    split at htarget <;> cases htarget

theorem AlignedFields.committed {b b' : Builder} {i : Nat} {f : Field}
    (h : bd.AlignedFields struct b) (hf : bd.plan.fields[i]? = some f) (hi : i < b.vtable.size)
    (hslotted : Slotted b b' i f.type.width)
    (hfield : f.type.AlignedField (bd.value struct i) b' b'.offset) :
    bd.AlignedFields struct b' := by
  intro j g off hg hoff hne
  by_cases hji : j = i
  · subst hji
    rw [hf] at hg
    cases hg
    rw [hslotted.getElem?_self hi] at hoff
    cases hoff
    exact hfield
  · rw [hslotted.getElem?_of_ne hji] at hoff
    exact (h j g off hg hoff hne).keep hslotted.keeps

theorem commitFields_aligned {b : Builder} {offs : Array (Option Nat)} (hp : bd.plan.WellFormed)
    (hvtable : b.vtable = Array.replicate bd.plan.fields.size 0)
    (h : bd.AlignedObjects struct offs b) :
    Reaches 0x40000000 (bd.commitFields struct offs b) (bd.AlignedFields struct) := by
  unfold commitFields
  apply (Reaches.foldlM (fun _ b => b.vtable.size = bd.plan.fields.size ∧
    bd.AlignedObjects struct offs b ∧ bd.AlignedFields struct b) ?step _ _ ?start).mono
    (Nat.le_refl _) (fun b' h => h.2.2)
  case start =>
    refine ⟨by rw [hvtable, Array.size_replicate], h, ?_⟩
    intro i f off _ hoff hne
    rw [hvtable, Array.getElem?_replicate] at hoff
    split at hoff
    · cases hoff
      contradiction
    · contradiction
  case step =>
    rintro i _ b ⟨hsize, hobjects, hfields⟩
    unfold commitFields.step
    cases hf : bd.plan.fields[i]? with
    | none => exact Reaches.ok ⟨hsize, hobjects, hfields⟩
    | some f =>
      obtain ⟨hi, -⟩ := Array.getElem?_eq_some_iff.1 hf
      rw [← hsize] at hi
      apply (FieldType.commit_aligned (hp.isKnown hf) hi ?_).mono (Nat.le_refl _)
      · rintro b' (rfl | ⟨hslotted, hfield⟩)
        · exact ⟨hsize, hobjects, hfields⟩
        · refine ⟨?_, hobjects.keep hslotted.keeps, hfields.committed hf hi hslotted hfield⟩
          rw [hslotted.vtable, Array.size_setIfInBounds, hsize]
      · intro target htarget
        apply hobjects i f target hf
        cases hoff : offs[i]? with
        | none =>
          rw [hoff] at htarget
          contradiction
        | some off =>
          rw [hoff] at htarget
          rw [← htarget]
          rfl

theorem openTable_aligned (hp : bd.plan.WellFormed) (b : Builder) :
    Reaches 0x40000000 (bd.openTable struct b) (bd.AlignedFields struct) := by
  unfold openTable
  apply Reaches.bind (buildObjects_aligned hp (b := b.reset) rfl)
  rintro ⟨b₀, offs⟩ ⟨hextends, haligned⟩
  have hnested : b₀.isNested = false := hextends.isNested
  dsimp only
  unfold Builder.startObject
  rw [Builder.requireNotNested_eq hnested]
  apply commitFields_aligned hp rfl
  exact haligned.keep ⟨⟨[], rfl⟩, Nat.le_refl _⟩

theorem isAlignedAt_of_finished {o b' : Builder} {t : FieldType} {v : Value} {off : Nat}
    (hfinished : Finished o b') (hminAlign : o.minAlign ∣ 8) (hknown : t.isKnown = true)
    (h : t.AlignedField v o off) :
    t.IsAlignedAt v b'.written.toArray (b'.offset - off) ∧ t.alignment v ∣ b'.offset := by
  have hwidth := hfinished.dvd_of_le_minAlign hminAlign (FieldType.width_dvd_of_isKnown hknown)
    h.width_le
  refine ⟨⟨Nat.dvd_sub hwidth h.dvd, ?_⟩, max_dvd hwidth ?_⟩
  · intro c hc
    obtain ⟨target, hoffset, haligned⟩ := h.object c hc
    have helems := FieldType.elemSize_dvd_of_creation? hknown hc
    refine ⟨b'.offset - target, hfinished.refers hminAlign hoffset ?_,
      hfinished.isAligned hminAlign helems haligned⟩
    rw [← FieldType.width_of_creation? hc]
    exact h.dvd
  · cases hc : t.creation? v with
    | none => exact Nat.one_dvd _
    | some c =>
      obtain ⟨target, -, haligned⟩ := h.object c hc
      exact hfinished.dvd_of_le_minAlign hminAlign (FieldType.elemSize_dvd_of_creation? hknown hc)
        haligned.1.le_minAlign

end

theorem foldr_max_dvd {ns : List Nat} {m n : Nat} (hm : m ∣ n) (h : ∀ k ∈ ns, k ∣ n) :
    ns.foldr max m ∣ n := by
  induction ns with
  | nil => exact hm
  | cons k ns ih =>
    rw [List.foldr_cons]
    apply max_dvd
    · exact h k (List.mem_cons_self ..)
    · apply ih
      intro k' hk'
      exact h k' (List.mem_cons_of_mem _ hk')

theorem Opened.minAlign_dvd {bd : Binding} {struct : Array Value} {base : Nat} {o : Builder}
    (h : bd.Opened struct base o) : o.minAlign ∣ 8 := by
  obtain ⟨b₀, -, -, hcommitting⟩ := h
  exact hcommitting.minAlign

theorem Opened.isAligned {bd : Binding} {struct : Array Value} {base : Nat} {o b' : Builder}
    (h : bd.Opened struct base o) (hfinished : Finished o b') (hfits : bd.Fits struct)
    (hsize : bd.plan.layout.size ≤ 65528)
    (hreader : Reader.ofBytes b'.written.toArray = finishedReader o b')
    (haligned : bd.AlignedFields struct o) : bd.IsAligned struct b'.written.toArray := by
  have hminAlign := h.minAlign_dvd
  have hfour := hfinished.four_dvd_offset hminAlign
  have hobject : 4 ∣ o.objectOffset := by
    have := Layout.dvd_add_padding o.offset (show 0 < 4 by decide)
    unfold Builder.objectOffset
    omega
  have hle := hfinished.objectOffset_le
  have hfield : ∀ (i : Nat) f, bd.plan.fields[i]? = some f →
      f.type.present (bd.value struct i) = true → ∃ off,
        (finishedReader o b').field? f.slot f.type.width = some (b'.offset - off) ∧
        f.type.IsAlignedAt (bd.value struct i) b'.written.toArray (b'.offset - off) ∧
        f.type.alignment (bd.value struct i) ∣ b'.offset := by
    intro i f hf hpresent
    rw [← presentAt_eq hf] at hpresent
    obtain ⟨off, hoff, hne, hwidth, hfound⟩ :=
      h.exists_offset_of_present hfinished hfits hsize hf hpresent
    rw [Plan.widthAt_eq hf] at hwidth
    exact ⟨off, hfound _ hwidth, isAlignedAt_of_finished hfinished hminAlign
      (hfits.wellFormed.isKnown hf) (haligned i f off hf hoff hne)⟩
  refine ⟨?_, ?_, ?_, ?_, ?_, ?_⟩
  · rw [hreader]
    simp [Reader.isValid, finishedReader]
  · rw [hreader]
    refine ⟨Nat.dvd_zero 4, b'.offset - o.objectOffset, ?_, Nat.zero_add _⟩
    apply hfinished.standsAt_root.load?_leBytes
    · rw [Nat.zero_add, b'.offset_eq]
    · have hroom := hfinished.room
      have : Nat.pow 256 4 = 0x100000000 := rfl
      omega
  · rw [hreader]
    exact Nat.dvd_sub hfour hobject
  · rw [hreader]
    simp only [finishedReader]
    omega
  · intro i f hf hpresent
    obtain ⟨off, hfound, haligned', -⟩ := hfield i f hf hpresent
    rw [hreader]
    exact ⟨_, hfound, haligned'⟩
  · rw [List.size_toArray, ← b'.offset_eq]
    apply foldr_max_dvd hfour
    intro k hk
    obtain ⟨f, hmem, rfl⟩ := List.mem_map.1 hk
    obtain ⟨hf, hpresent⟩ := List.mem_filter.1 hmem
    obtain ⟨i, hi⟩ := Array.getElem?_of_mem (Array.mem_toList_iff.1 hf)
    rw [(hfits.wellFormed.isPlaced i f hi).index] at hpresent ⊢
    obtain ⟨-, -, -, hdvd⟩ := hfield i f hi hpresent
    exact hdvd

theorem flatten_isAligned {r : Record} {p : Plan} {type : Option HostType} {bd : Binding}
    (hp : assemble r = .ok p) (hsize : p.layout.size ≤ 65528)
    (hbd : Binding.ofPlan (some p) type = .ok bd) {struct : Array Value}
    (hstruct : bd.isStruct struct = true) (b : Builder)
    (hgrowth : bd.flatten struct b ≠ .error .tooLarge) :
    ∃ b' bytes, bd.flatten struct b = .ok b' ∧ b'.finishedBytes = .ok bytes ∧
      bd.IsAligned struct bytes.toArray := by
  have hwellFormed := wellFormed_of_assemble hp
  have hbound := bound_of_ofPlan hbd
  have hfits := hbound.fits hwellFormed hstruct
  obtain ⟨b', -, -, hflatten, hbytes, -⟩ := exists_finished hwellFormed hbound hstruct hgrowth
  refine ⟨b', b'.written, hflatten, hbytes, ?_⟩
  cases hopen : bd.openTable struct b with
  | error e =>
    rw [flatten_eq, hopen] at hflatten
    contradiction
  | ok o =>
    obtain ⟨base, hopened, hfinished, hreader⟩ :=
      exists_opened hwellFormed hbound hstruct hopen hflatten
    rw [← hbound.plan] at hsize
    exact hopened.isAligned hfinished hfits hsize hreader
      ((openTable_aligned hfits.wellFormed b).result hopen)

def unevenEntity : Sample.Entity where
  id := 7
  name := [0x61]
  tags := some [[], [0x62, 0x63]]
  deltas := some [1, 2, 3]
  points := some [4]
  level := some 5

theorem flatten_isAligned_unevenEntity :
    ∃ bd b' bytes, Binding.dynamic Sample.entityPlan = .ok bd ∧
      bd.isStruct unevenEntity.toStruct = true ∧
      bd.flatten unevenEntity.toStruct (Builder.new 1) = .ok b' ∧ b'.finishedBytes = .ok bytes ∧
      bd.IsAligned unevenEntity.toStruct bytes.toArray := by
  obtain ⟨bd, hbd⟩ := Sample.exists_dynamic_entityPlan
  have hp := wellFormed_of_assemble Sample.assemble_entityRecord
  have hdynamic := isDynamic_of_dynamic hp hbd
  obtain ⟨type, htype⟩ := exists_ofPlan_of_dynamic hbd
  have hstruct : bd.isStruct unevenEntity.toStruct = true := by
    unfold isStruct
    rw [hdynamic.members]
    decide
  have hgrowth := flatten_ne_tooLarge (hdynamic.bound.fits hp hstruct) (by decide) (Builder.new 1)
  obtain ⟨b', bytes, hflatten, hbytes, haligned⟩ := flatten_isAligned
    Sample.assemble_entityRecord (by decide) htype hstruct (Builder.new 1) hgrowth
  exact ⟨bd, b', bytes, hbd, hstruct, hflatten, hbytes, haligned⟩

end Binding

end RecordCodec
