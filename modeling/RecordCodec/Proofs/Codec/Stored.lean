import RecordCodec.Proofs.Codec.Values
import RecordCodec.Proofs.Table.ReadingBack

/-!
This module contains what writing one value leaves in a buffer, and that reading it there gives the
canonical value. `FieldType.HoldsField` is where both meet.
-/

namespace RecordCodec.Table

structure Slotted (b b' : Builder) (i width : Nat) : Prop where
  written : ∃ bytes, b'.written = bytes ++ b.written
  offset : b'.offset = b.offset + Layout.padding b.offset width + width
  minAlign : b'.minAlign = max b.minAlign width
  vtable : b'.vtable = b.vtable.setIfInBounds i b'.offset
  objectEnd : b'.objectEnd = b.objectEnd
  vtables : b'.vtables = b.vtables
  isNested : b'.isNested = b.isNested

namespace Slotted

variable {b b' : Builder} {i width : Nat}

theorem getElem?_self (h : Slotted b b' i width) (hi : i < b.vtable.size) :
    b'.vtable[i]? = some b'.offset := by
  rw [h.vtable, Array.getElem?_setIfInBounds_self_of_lt hi]

theorem getElem?_of_ne (h : Slotted b b' i width) {j : Nat} (hj : j ≠ i) :
    b'.vtable[j]? = b.vtable[j]? := by
  rw [h.vtable, Array.getElem?_setIfInBounds_ne (Ne.symm hj)]

end Slotted

theorem Builder.setSlot_of_wrote {b b₁ : Builder} {i width : Nat} {bytes : List UInt8}
    (hi : i < b.vtable.size) (hwidth : bytes.length = width)
    (h : Wrote b b₁ width (bytes ++ List.replicate (Layout.padding b.offset width) 0)) :
    ∃ b', b₁.setSlot i = .ok b' ∧ Slotted b b' i width ∧ b'.written = b₁.written := by
  have hoffset := h.offset
  rw [List.length_append, List.length_replicate, hwidth] at hoffset
  refine ⟨{ b₁ with vtable := b₁.vtable.setIfInBounds i b₁.offset }, ?_, ?_, rfl⟩
  · unfold setSlot
    rw [h.vtable, if_pos]
    · rfl
    · simpa using hi
  · refine ⟨⟨_, h.written⟩, ?_, h.minAlign, ?_, h.objectEnd, h.vtables, h.isNested⟩
    · show b₁.offset = _
      omega
    · show b₁.vtable.setIfInBounds i b₁.offset = b.vtable.setIfInBounds i b₁.offset
      rw [h.vtable]

theorem Builder.slotAlways_reaches {b : Builder} {s : Scalar} {i : Nat} (bits : Nat)
    (hs : 0 < s.size) (hi : i < b.vtable.size) :
    Reaches (b.offset + 2 * s.size) (b.slotAlways s i bits) fun b' =>
      Slotted b b' i s.size ∧ StandsAt b'.written b'.offset (leBytes s.size bits) := by
  unfold slotAlways prepend
  apply Reaches.bind (b.prependNumber_reaches bits hs)
  rintro b₁ ⟨hwrote, -⟩
  obtain ⟨b', hset, hslotted, hwritten⟩ := setSlot_of_wrote hi (length_leBytes _ _) hwrote
  have hstands := hwrote.standsAt_left
  rw [b₁.offset_eq, ← hwritten, ← b'.offset_eq] at hstands
  rw [hset]
  exact ⟨hslotted, hstands⟩

theorem Builder.offsetSlot_reaches {b : Builder} {i off : Nat} (hoff : off ≤ b.offset)
    (hi : i < b.vtable.size) :
    Reaches (b.offset + 8) (b.offsetSlot i off) fun b' =>
      Slotted b b' i 4 ∧ HoldsOffset b'.written b'.offset off := by
  unfold offsetSlot
  apply Reaches.bind (b.prependOffset_reaches hoff)
  rintro b₁ ⟨hwrote, hroom⟩
  obtain ⟨b', hset, hslotted, hwritten⟩ := setSlot_of_wrote hi (length_leBytes _ _) hwrote
  have hstands := hwrote.standsAt_left
  have hoffset := hslotted.offset
  have hsame : b'.offset = b₁.offset := by rw [b'.offset_eq, hwritten, b₁.offset_eq]
  rw [← hwritten, ← hsame] at hstands
  rw [hset]
  exact ⟨hslotted, by omega, by omega, hstands⟩

structure Builder.HasVector (b b' : Builder) (off : Nat) (s : Scalar) (elems : List Nat) :
    Prop where
  extends_ : b.Extends b'
  offset_le : b'.offset ≤ b.offset + 8 * elems.length + 24
  holds : HoldsVector b'.written off elems.length (elems.flatMap (leBytes s.size))
  aligned : AlignedVector b' off elems.length s.size

theorem Builder.createByteVector_reaches {b : Builder} {s : Scalar} (elems : List Nat)
    (hs : s.size = 1) (hb : b.isNested = false) :
    Reaches (b.offset + 8 * elems.length + 24) (b.createBytes (elems.map (·.toUInt8)))
      fun (b', off) => b.HasVector b' off s elems := by
  have hpad := Layout.padding_lt (b.offset + elems.length) (show 0 < 4 by decide)
  have hdvd := Layout.dvd_add_padding (b.offset + elems.length) (show 0 < 4 by decide)
  apply (createBytes_reaches (elems.map (·.toUInt8)) hb).mono
  · rw [List.length_map]
    omega
  · rintro ⟨b', off⟩ ⟨hoff, hlength, hwrote⟩
    rw [List.length_map] at hlength hwrote
    have hoffset := hwrote.offset
    simp only [List.length_append, length_leBytes, List.length_replicate, List.length_map]
      at hoffset
    rw [hoff]
    refine ⟨hwrote.extends (by decide), by omega, ?_, ?_⟩
    · rw [hs, flatMap_leBytes_one]
      exact HoldsVector.of_wrote hlength hwrote
    · rw [hs]
      apply AlignedVector.of_wrote hlength hwrote
      · rw [List.length_append, List.length_map, List.length_replicate]
        omega
      · exact Nat.one_dvd _

theorem Builder.createVector_reaches {b : Builder} {s : Scalar} (elems : List Nat)
    (hs : s.isValid = true) (hb : b.isNested = false) :
    Reaches (b.offset + 8 * elems.length + 24) (b.createVector s elems) fun (b', off) =>
      b.HasVector b' off s elems := by
  unfold createVector
  split
  · exact createByteVector_reaches elems rfl hb
  · have hdvd := Scalar.size_dvd_of_isValid hs
    have hle := Nat.le_of_dvd (by decide) hdvd
    have hpos := Scalar.size_pos_of_isValid hs
    have hmul := Nat.mul_le_mul_right elems.length hle
    have hpad := vectorPadding_lt b.offset (s.size * elems.length) hpos
    apply (createElements_reaches elems hpos hb).mono (by omega)
    rintro ⟨b', off⟩ ⟨hoff, hlength, hwrote⟩
    have hoffset := hwrote.offset
    simp only [List.length_append, length_leBytes, List.length_replicate, length_flatMap_leBytes]
      at hoffset
    have hsum : (elems.flatMap (leBytes s.size) ++
        List.replicate (vectorPadding b.offset (s.size * elems.length) s.size) 0).length + b.offset =
        b.offset + s.size * elems.length + vectorPadding b.offset (s.size * elems.length) s.size := by
      rw [List.length_append, length_flatMap_leBytes, List.length_replicate]
      omega
    obtain ⟨hfour, hfirst⟩ := dvd_add_vectorPadding b.offset (s.size * elems.length) hdvd
    rw [hoff]
    refine ⟨hwrote.extends ?_, by omega, HoldsVector.of_wrote hlength hwrote, ?_⟩
    · right
      exact max_dvd (by decide) hdvd
    · apply AlignedVector.of_wrote hlength hwrote
      · rw [hsum]
        exact hfour
      · rw [hsum]
        exact hfirst

end RecordCodec.Table

namespace RecordCodec

open RecordCodec.Table

def Value.inline? : Value → Option Nat
  | .scalar x => some x
  | .optional x => x
  | _ => none

def Value.objectCost : Value → Nat
  | .text s => s.length + 9
  | .optionalText s => (s.getD []).length + 9
  | .sequence xs => 8 * (xs.getD []).length + 24
  | .texts ss => textsCost (ss.getD []) + 4 * (ss.getD []).length + 16
  | _ => 0

namespace FieldType

def HoldsObject (t : FieldType) (v : Value) (w : List UInt8) (off : Nat) : Prop :=
  match v with
  | .text s | .optionalText (some s) => HoldsVector w off s.length s
  | .sequence xs =>
    HoldsVector w off (xs.getD []).length ((xs.getD []).flatMap (leBytes t.scalar.size))
  | .texts ss => HoldsTexts w off (ss.getD [])
  | _ => False

def HoldsField (t : FieldType) (v : Value) (w : List UInt8) (off : Nat) : Prop :=
  match v.inline? with
  | some x => StandsAt w off (leBytes t.scalar.size x)
  | none => ∃ target, HoldsOffset w off target ∧ t.HoldsObject v w target

def HoldsBuilt (t : FieldType) (v : Value) (w : List UInt8) (off : Option Nat) : Prop :=
  match off with
  | some off => t.present v = true ∧ t.HoldsObject v w off
  | none => t.present v = false

section

variable {t : FieldType} {v : Value} {w : List UInt8} {off : Nat}

theorem HoldsObject.prepend (h : t.HoldsObject v w off) (xs : List UInt8) :
    t.HoldsObject v (xs ++ w) off := by
  unfold HoldsObject at h
  split at h
  · exact HoldsVector.prepend h xs
  · exact HoldsVector.prepend h xs
  · exact HoldsVector.prepend h xs
  · exact HoldsTexts.prepend h xs
  · contradiction

theorem HoldsObject.le_length (h : t.HoldsObject v w off) : off ≤ w.length := by
  unfold HoldsObject at h
  split at h
  · exact HoldsVector.le_length h
  · exact HoldsVector.le_length h
  · exact HoldsVector.le_length h
  · exact h.header.le_length
  · contradiction

theorem HoldsField.prepend (h : t.HoldsField v w off) (xs : List UInt8) :
    t.HoldsField v (xs ++ w) off := by
  unfold HoldsField at *
  cases hinline : v.inline? with
  | some x =>
    rw [hinline] at h
    exact StandsAt.prepend h xs
  | none =>
    rw [hinline] at h
    obtain ⟨target, hoffset, hobject⟩ := h
    exact ⟨target, hoffset.prepend xs, hobject.prepend xs⟩

theorem HoldsField.le_length (h : t.HoldsField v w off) : off ≤ w.length := by
  unfold HoldsField at h
  split at h
  · exact h.le_length
  · obtain ⟨target, hoffset, -⟩ := h
    exact hoffset.2.2.le_length

theorem HoldsBuilt.prepend {off : Option Nat} (h : t.HoldsBuilt v w off) (xs : List UInt8) :
    t.HoldsBuilt v (xs ++ w) off := by
  cases off with
  | some off => exact ⟨h.1, h.2.prepend xs⟩
  | none => exact h

end

theorem decodeStrategy_scalar {t : FieldType} (h : t.shape = .scalar) :
    t.decodeStrategy = if t.scalar = .char then .char else .scalar := by
  unfold decodeStrategy
  rw [h]
  cases t.scalar with
  | _ => rfl

theorem decodeStrategy_text {t : FieldType} (h : t.shape = .text) : t.decodeStrategy = .text := by
  unfold decodeStrategy
  rw [h]

theorem decodeStrategy_optional {t : FieldType} (h : t.shape = .optional) :
    t.decodeStrategy = if t.text then .textOptional
      else if t.scalar = .char then .charOptional else .scalarOptional := by
  unfold decodeStrategy
  rw [h]
  cases t.scalar with
  | _ => rfl

theorem decodeStrategy_sequence {t : FieldType} (h : t.shape = .sequence) :
    t.decodeStrategy = if t.text then .textSequence
      else if t.scalar = .char then .charSequence
      else if t.scalar = .s8 then .signedBytes else .sequence := by
  unfold decodeStrategy
  rw [h]
  cases t.scalar with
  | _ => rfl

inductive Handled : DecodeStrategy → Value → Prop
  | scalar (x : Nat) : Handled .scalar (.scalar x)
  | char (x : Nat) : Handled .char (.scalar x)
  | scalarOptional (x : Option Nat) : Handled .scalarOptional (.optional x)
  | charOptional (x : Option Nat) : Handled .charOptional (.optional x)
  | text (s : List UInt8) : Handled .text (.text s)
  | textOptional (s : Option (List UInt8)) : Handled .textOptional (.optionalText s)
  | sequence (xs : Option (List Nat)) : Handled .sequence (.sequence xs)
  | signedBytes (xs : Option (List Nat)) : Handled .signedBytes (.sequence xs)
  | charSequence (xs : Option (List Nat)) : Handled .charSequence (.sequence xs)
  | textSequence (ss : Option (List (List UInt8))) : Handled .textSequence (.texts ss)

theorem Holds.handled {t : FieldType} {v : Value} (h : t.Holds v) :
    Handled t.decodeStrategy v := by
  cases h with
  | scalar hshape =>
    rw [decodeStrategy_scalar hshape]
    split
    · exact .char _
    · exact .scalar _
  | text hshape =>
    rw [decodeStrategy_text hshape]
    exact .text _
  | sequence hshape htext =>
    rw [decodeStrategy_sequence hshape, htext, if_neg (by decide)]
    split
    · exact .charSequence _
    · split
      · exact .signedBytes _
      · exact .sequence _
  | texts hshape htext =>
    rw [decodeStrategy_sequence hshape, htext, if_pos rfl]
    exact .textSequence _
  | optional hshape htext =>
    rw [decodeStrategy_optional hshape, htext, if_neg (by decide)]
    split
    · exact .charOptional _
    · exact .scalarOptional _
  | optionalText hshape htext =>
    rw [decodeStrategy_optional hshape, htext, if_pos rfl]
    exact .textOptional _

theorem referred_reaches {t : FieldType} {v : Value} {b : Builder} {bound cost : Nat}
    {x : Except BuilderError (Builder × Nat)} (hpresent : t.present v = true)
    (h : Reaches bound x fun (b', off) =>
      b.Extends b' ∧ b'.offset ≤ b.offset + cost ∧ t.HoldsObject v b'.written off) :
    Reaches bound (x >>= build.referred) fun (b', off) =>
      b.Extends b' ∧ b'.offset ≤ b.offset + cost ∧ t.HoldsBuilt v b'.written off := by
  apply Reaches.bind h
  rintro ⟨b', off⟩ ⟨hextends, hle, hobject⟩
  exact ⟨hextends, hle, hpresent, hobject⟩

theorem buildSequence_reaches {t : FieldType} {b : Builder} (xs : Option (List Nat))
    (hknown : t.isKnown = true) (hshape : t.shape = .sequence) (htext : t.text = false)
    (hb : b.isNested = false) :
    Reaches (b.offset + (Value.sequence xs).objectCost) (t.build (.sequence xs) b) fun (b', off) =>
      b.Extends b' ∧ b'.offset ≤ b.offset + (Value.sequence xs).objectCost ∧
      t.HoldsBuilt (.sequence xs) b'.written off := by
  have hvalid := isValid_of_isKnown hknown
  have hcost : b.offset + (Value.sequence xs).objectCost =
      b.offset + 8 * (xs.getD []).length + 24 := rfl
  have hmono : ∀ {s : Scalar} {x : Except BuilderError (Builder × Nat)}, s.size = t.scalar.size →
      Reaches (b.offset + 8 * (xs.getD []).length + 24) x
        (fun (b', off) => b.HasVector b' off s (xs.getD [])) →
      Reaches (b.offset + (Value.sequence xs).objectCost) (x >>= build.referred) fun (b', off) =>
        b.Extends b' ∧ b'.offset ≤ b.offset + (Value.sequence xs).objectCost ∧
        t.HoldsBuilt (.sequence xs) b'.written off := by
    intro s x hsize h
    apply referred_reaches rfl
    apply h.mono (Nat.le_refl _)
    rintro ⟨b', off⟩ hvector
    refine ⟨hvector.extends_, hvector.offset_le, ?_⟩
    have hholds := hvector.holds
    rw [hsize] at hholds
    exact hholds
  unfold build
  rw [decodeStrategy_sequence hshape, htext, if_neg (by decide)]
  by_cases hchar : t.scalar = .char
  · rw [if_pos hchar]
    have hsize : Scalar.u32.size = t.scalar.size := by
      rw [hchar]
      rfl
    exact hmono hsize (Builder.createVector_reaches _ rfl hb)
  · rw [if_neg hchar]
    by_cases hsigned : t.scalar = .s8
    · rw [if_pos hsigned]
      have hsize : t.scalar.size = 1 := by
        rw [hsigned]
        rfl
      exact hmono rfl (Builder.createByteVector_reaches _ hsize hb)
    · rw [if_neg hsigned]
      exact hmono rfl (Builder.createVector_reaches _ hvalid hb)

theorem build_reaches {t : FieldType} {v : Value} {b : Builder} (hknown : t.isKnown = true)
    (hholds : t.Holds v) (hindirect : t.isIndirect = true) (hb : b.isNested = false) :
    Reaches (b.offset + v.objectCost) (t.build v b) fun (b', off) =>
      b.Extends b' ∧ b'.offset ≤ b.offset + v.objectCost ∧ t.HoldsBuilt v b'.written off := by
  cases hholds with
  | scalar hshape => simp [isIndirect, hshape] at hindirect
  | optional hshape htext => simp [isIndirect, hshape, htext] at hindirect
  | text hshape =>
    unfold build
    rw [decodeStrategy_text hshape]
    apply referred_reaches rfl
    apply (Builder.createString_reaches _ hb).mono (Nat.le_refl _)
    rintro ⟨b', off⟩ ⟨hextends, hle, hvector, -⟩
    exact ⟨hextends, hle, hvector⟩
  | @optionalText s hshape htext =>
    unfold build
    rw [decodeStrategy_optional hshape, htext, if_pos rfl]
    cases s with
    | none => exact ⟨Builder.Extends.refl b, Nat.le_add_right _ _, rfl⟩
    | some s =>
      apply referred_reaches rfl
      apply (Builder.createString_reaches s hb).mono (Nat.le_refl _)
      rintro ⟨b', off⟩ ⟨hextends, hle, hvector, -⟩
      exact ⟨hextends, hle, hvector⟩
  | @texts ss hshape htext =>
    unfold build
    rw [decodeStrategy_sequence hshape, htext, if_pos rfl]
    apply referred_reaches rfl
    apply (Builder.createStringVector_reaches (ss.getD []) hb).mono
    · simp only [Value.objectCost]
      omega
    · rintro ⟨b', off⟩ ⟨hextends, hle, htexts, -⟩
      refine ⟨hextends, ?_, htexts⟩
      simp only [Value.objectCost] at hle ⊢
      omega
  | sequence hshape htext => exact buildSequence_reaches _ hknown hshape htext hb

def Committed (t : FieldType) (i : Nat) (v : Value) (b b' : Builder) : Prop :=
  if t.present v then Slotted b b' i t.width ∧ t.HoldsField v b'.written b'.offset else b' = b

theorem committed_of_not_present {t : FieldType} {i : Nat} {v : Value} {b : Builder}
    (h : t.present v = false) : t.Committed i v b b := by
  unfold Committed
  rw [h]
  rfl

theorem width_of_not_isIndirect {t : FieldType} (h : t.isIndirect = false) :
    t.width = t.scalar.size := by
  unfold width
  rw [h]
  rfl

theorem slotAlways_committed {t : FieldType} {i x : Nat} {v : Value} {b : Builder}
    (hknown : t.isKnown = true) (hindirect : t.isIndirect = false) (hi : i < b.vtable.size)
    (hinline : v.inline? = some x) (hpresent : t.present v = true) :
    Reaches (b.offset + 16) (b.slotAlways t.scalar i x) (t.Committed i v b) := by
  have hvalid := isValid_of_isKnown hknown
  have hle := Nat.le_of_dvd (by decide) (Scalar.size_dvd_of_isValid hvalid)
  apply (Builder.slotAlways_reaches x (Scalar.size_pos_of_isValid hvalid) hi).mono (by omega)
  rintro b' ⟨hslotted, hstands⟩
  unfold Committed HoldsField
  rw [if_pos hpresent, width_of_not_isIndirect hindirect, hinline]
  exact ⟨hslotted, hstands⟩

theorem offsetSlot_committed {t : FieldType} {i : Nat} {v : Value} {off : Option Nat} {b : Builder}
    (hindirect : t.isIndirect = true) (hi : i < b.vtable.size) (hinline : v.inline? = none)
    (hbuilt : t.HoldsBuilt v b.written off) :
    Reaches (b.offset + 16) (t.commit i v off b) (t.Committed i v b) := by
  have hstrategy : t.encodeStrategy = .indirect ∨ t.encodeStrategy = .indirectPresent := by
    unfold isIndirect at hindirect
    unfold encodeStrategy
    split at hindirect
    · simp_all
    · simp_all
    · simp_all
    · contradiction
  -- whether there is an offset was decided when the object was built
  have hcommit : t.commit i v off b = (off.map (b.offsetSlot i)).getD (.ok b) := by
    unfold commit
    cases off with
    | some off => rcases hstrategy with h | h <;> rw [h] <;> rfl
    | none => rcases hstrategy with h | h <;> rw [h] <;> rfl
  rw [hcommit]
  cases off with
  | none => exact Reaches.ok (committed_of_not_present hbuilt)
  | some off =>
    obtain ⟨hpresent, hobject⟩ := hbuilt
    have hoff : off ≤ b.offset := by
      rw [b.offset_eq]
      exact hobject.le_length
    have hwidth : t.width = 4 := by
      unfold width
      rw [if_pos hindirect]
    apply (Builder.offsetSlot_reaches hoff hi).mono (by omega)
    rintro b' ⟨hslotted, hoffset⟩
    unfold Committed HoldsField
    rw [if_pos hpresent, hwidth, hinline]
    refine ⟨hslotted, off, hoffset, ?_⟩
    obtain ⟨bytes, hwritten⟩ := hslotted.written
    rw [hwritten]
    exact hobject.prepend bytes

theorem commit_reaches {t : FieldType} {i : Nat} {v : Value} {off : Option Nat} {b : Builder}
    (hknown : t.isKnown = true) (hholds : t.Holds v) (hi : i < b.vtable.size)
    (hbuilt : t.isIndirect = true → t.HoldsBuilt v b.written off) :
    Reaches (b.offset + 16) (t.commit i v off b) (t.Committed i v b) := by
  cases hholds with
  | @scalar x hshape hbits =>
    have hindirect : t.isIndirect = false := by simp [isIndirect, hshape]
    have hcommit : t.commit i (.scalar x) off b = b.slot t.scalar i x 0 := by
      unfold commit encodeStrategy
      rw [hshape]
    rw [hcommit]
    unfold Builder.slot
    rw [Scalar.sameValue_zero hbits]
    split
    · next hzero =>
      apply Reaches.ok
      apply committed_of_not_present
      simp [present, hzero]
    · next hzero =>
      apply slotAlways_committed hknown hindirect hi rfl
      simp [present, hzero]
  | @optional x hshape htext =>
    have hindirect : t.isIndirect = false := by simp [isIndirect, hshape, htext]
    have hstrategy : t.encodeStrategy = .inlinePresent := by
      unfold encodeStrategy
      rw [hshape, htext]
      rfl
    unfold commit
    rw [hstrategy]
    cases x with
    | none => exact Reaches.ok (committed_of_not_present rfl)
    | some x => exact slotAlways_committed hknown hindirect hi rfl rfl
  | text hshape =>
    have hindirect : t.isIndirect = true := by simp [isIndirect, hshape]
    exact offsetSlot_committed hindirect hi rfl (hbuilt hindirect)
  | sequence hshape =>
    have hindirect : t.isIndirect = true := by simp [isIndirect, hshape]
    exact offsetSlot_committed hindirect hi rfl (hbuilt hindirect)
  | texts hshape =>
    have hindirect : t.isIndirect = true := by simp [isIndirect, hshape]
    exact offsetSlot_committed hindirect hi rfl (hbuilt hindirect)
  | optionalText hshape htext =>
    have hindirect : t.isIndirect = true := by simp [isIndirect, hshape, htext]
    exact offsetSlot_committed hindirect hi rfl (hbuilt hindirect)

theorem read_of_absent {t : FieldType} {r : Reader} {slot : UInt16}
    (h : ∀ width, r.field? slot width = none) : t.read r slot t.default = t.default := by
  have hlookup := Reader.lookup?_of_absent h
  have hvector := Reader.vector?_of_absent h
  have helements := Reader.elements?_of_absent h
  have hbytes := Reader.bytes?_of_absent h
  unfold read
  split
  · next hdefault => simp [Reader.get, hlookup, hdefault]
  · next hdefault => simp [Reader.char, Reader.lookupChar?, hlookup, hdefault]
  · simp [hlookup]
  · simp [Reader.lookupChar?, hlookup]
  · simp [Reader.text?, hvector]
  · simp [Reader.text?, hvector]
  · unfold read.sequence?
    split
    · simp [hbytes]
    · simp [helements]
  · simp [Reader.signedBytes?, hbytes]
  · simp [Reader.codePoints?, helements]
  · simp [Reader.strings?, hvector]
  · rfl

section

variable {t : FieldType} {r : Reader} {slot : UInt16} {w : List UInt8} {off : Nat}

theorem lookup?_of_stands {s : Scalar} {x : Nat} (hbytes : r.bytes = w.toArray)
    (hfield : ∀ width ≤ off, r.field? slot width = some (w.length - off))
    (hstands : StandsAt w off (leBytes s.size x)) (hx : s.holds x = true) :
    r.lookup? s slot = some x := by
  have hle := hstands.length_le
  rw [length_leBytes] at hle
  rw [Reader.lookup?_eq_some hbytes (hfield _ hle) hstands (Scalar.lt_of_holds hx),
    Scalar.ofStored_of_holds hx]

theorem lookupChar?_of_stands {x : Nat} (hbytes : r.bytes = w.toArray)
    (hfield : ∀ width ≤ off, r.field? slot width = some (w.length - off))
    (hstands : StandsAt w off (leBytes Scalar.char.size x)) (hx : Scalar.char.holds x = true) :
    r.lookupChar? slot = (some x).filter (·.isValidChar) := by
  have hlookup : r.lookup? .u32 slot = some x := lookup?_of_stands hbytes hfield hstands hx
  unfold Reader.lookupChar?
  rw [hlookup, funext isCodePoint_eq]

theorem read_scalar {x : Nat} (hshape : t.shape = .scalar) (hx : t.scalar.holds x = true)
    (hpresent : t.present (.scalar x) = true) (hbytes : r.bytes = w.toArray)
    (hfield : ∀ width ≤ off, r.field? slot width = some (w.length - off))
    (h : t.HoldsField (.scalar x) w off) :
    t.read r slot t.default = t.canonical (.scalar x) := by
  simp only [present, Bool.not_eq_true'] at hpresent
  have hdefault : t.default = .scalar 0 := by
    unfold default
    rw [hshape]
  unfold read canonical
  rw [decodeStrategy_scalar hshape, hdefault]
  by_cases hchar : t.scalar = .char
  · have hstands : StandsAt w off (leBytes Scalar.char.size x) := by
      rw [← hchar]
      exact h
    rw [hchar] at hx
    rw [if_pos hchar, hchar]
    dsimp only
    unfold Reader.char Scalar.canonical
    rw [lookupChar?_of_stands hbytes hfield hstands hx, Option.filter_some]
    simp only [decide_eq_true_eq]
    split
    · rfl
    · rfl
  · rw [if_neg hchar]
    dsimp only
    unfold Reader.get
    rw [lookup?_of_stands hbytes hfield h hx, Scalar.canonical_of_not_isZero hchar hpresent]
    rfl

theorem read_optional {x : Nat} (hshape : t.shape = .optional) (htext : t.text = false)
    (hx : t.scalar.holds x = true) (hbytes : r.bytes = w.toArray)
    (hfield : ∀ width ≤ off, r.field? slot width = some (w.length - off))
    (h : t.HoldsField (.optional (some x)) w off) :
    t.read r slot t.default = t.canonical (.optional (some x)) := by
  have hdefault : t.default = .optional none := by
    unfold default
    rw [hshape, htext]
    rfl
  unfold read canonical
  rw [decodeStrategy_optional hshape, htext, if_neg (by decide), hdefault]
  by_cases hchar : t.scalar = .char
  · have hstands : StandsAt w off (leBytes Scalar.char.size x) := by
      rw [← hchar]
      exact h
    rw [hchar] at hx
    rw [if_pos hchar]
    dsimp only
    rw [if_pos hchar, lookupChar?_of_stands hbytes hfield hstands hx, Option.filter_some]
    simp only [decide_eq_true_eq]
    split
    · rfl
    · rfl
  · rw [if_neg hchar]
    dsimp only
    rw [if_neg hchar, lookup?_of_stands hbytes hfield h hx]
    rfl

theorem text?_of_holdsField {s : List UInt8} {v : Value} (h : t.HoldsField v w off)
    (hbytes : r.bytes = w.toArray)
    (hfield : ∀ width ≤ off, r.field? slot width = some (w.length - off))
    (hinline : v.inline? = none)
    (hobject : ∀ target, t.HoldsObject v w target → HoldsVector w target s.length s) :
    r.text? slot = (some s).filter (·.toByteArray.IsValidUTF8) := by
  unfold HoldsField at h
  rw [hinline] at h
  obtain ⟨target, hoffset, hholds⟩ := h
  have hle := hoffset.2.2.length_le
  rw [length_leBytes] at hle
  rw [Reader.text?_eq hbytes (hfield 4 hle) hoffset (hobject target hholds), Option.filter_some,
    Option.filter_some]
  simp only [Text.isUtf8_iff, decide_eq_true_eq]

theorem read_sequence {xs : Option (List Nat)} (hshape : t.shape = .sequence)
    (htext : t.text = false) (hxs : ∀ x ∈ xs.getD [], t.scalar.holds x = true)
    (hbytes : r.bytes = w.toArray)
    (hfield : ∀ width ≤ off, r.field? slot width = some (w.length - off))
    (h : t.HoldsField (.sequence xs) w off) :
    t.read r slot t.default = t.canonical (.sequence xs) := by
  obtain ⟨target, hoffset, hvector⟩ := h
  have hle := hoffset.2.2.length_le
  rw [length_leBytes] at hle
  have hfield := hfield 4 hle
  have hlt : ∀ x ∈ xs.getD [], x < Nat.pow 256 t.scalar.size := fun x hx =>
    Scalar.lt_of_holds (hxs x hx)
  have hbytesOfSize : t.scalar.size = 1 → r.bytes? slot = some (xs.getD []) := by
    intro hsize
    simp only [HoldsObject, hsize, flatMap_leBytes_one] at hvector
    rw [hsize] at hlt
    exact Reader.bytes?_eq hbytes hfield hoffset hvector hlt
  have helements : ∀ s : Scalar, s.size = t.scalar.size →
      (∀ x ∈ xs.getD [], s.ofStored x = x) → r.elements? s slot = some (xs.getD []) := by
    intro s hsize hstored
    rw [← hsize] at hlt
    simp only [HoldsObject, ← hsize] at hvector
    rw [Reader.elements?_eq hbytes hfield hoffset hvector hlt, List.map_congr_left hstored,
      List.map_id']
  have hdefault : t.default = .sequence (some []) := by
    unfold default
    rw [hshape, htext]
    rfl
  unfold read canonical
  rw [decodeStrategy_sequence hshape, htext, if_neg (by decide), hdefault]
  by_cases hchar : t.scalar = .char
  · rw [if_pos hchar]
    dsimp only
    unfold Reader.codePoints? keepCodePoints
    rw [if_pos hchar, helements .u32 (by rw [hchar]; rfl) (fun _ _ => rfl), funext isCodePoint_eq]
    rfl
  · rw [if_neg hchar]
    by_cases hsigned : t.scalar = .s8
    · rw [if_pos hsigned]
      dsimp only
      unfold Reader.signedBytes?
      rw [if_neg hchar, hbytesOfSize (by rw [hsigned]; rfl)]
      rfl
    · rw [if_neg hsigned]
      dsimp only
      rw [if_neg hchar]
      unfold read.sequence?
      split
      · next hunsigned =>
        rw [hbytesOfSize (by rw [hunsigned]; rfl)]
        rfl
      · rw [helements _ rfl (fun x hx => Scalar.ofStored_of_holds (hxs x hx))]
        rfl

theorem read_of_holdsField {v : Value} (hholds : t.Holds v) (hpresent : t.present v = true)
    (hbytes : r.bytes = w.toArray)
    (hfield : ∀ width ≤ off, r.field? slot width = some (w.length - off))
    (h : t.HoldsField v w off) : t.read r slot t.default = t.canonical v := by
  cases hholds with
  | scalar hshape hx => exact read_scalar hshape hx hpresent hbytes hfield h
  | @optional x hshape htext hx =>
    cases x with
    | none => contradiction
    | some x => exact read_optional hshape htext (hx x rfl) hbytes hfield h
  | sequence hshape htext hxs => exact read_sequence hshape htext hxs hbytes hfield h
  | @text s hshape =>
    have hdefault : t.default = .text [] := by
      unfold default
      rw [hshape]
    unfold read canonical canonicalText
    rw [decodeStrategy_text hshape, hdefault]
    dsimp only
    rw [text?_of_holdsField h hbytes hfield rfl (fun _ hobject => hobject), Option.filter_some]
    simp only [decide_eq_true_eq]
    split
    · rfl
    · rfl
  | @optionalText s hshape htext =>
    cases s with
    | none => contradiction
    | some s =>
      have hdefault : t.default = .optionalText none := by
        unfold default
        rw [hshape, htext]
        rfl
      unfold read canonical
      rw [decodeStrategy_optional hshape, htext, if_pos rfl, hdefault]
      dsimp only
      rw [text?_of_holdsField h hbytes hfield rfl (fun _ hobject => hobject), Option.filter_some]
      split
      · rfl
      · rfl
  | @texts ss hshape htext =>
    obtain ⟨target, hoffset, htexts⟩ := h
    have hle := hoffset.2.2.length_le
    rw [length_leBytes] at hle
    have hreadable : ∀ text ∈ ss.getD [], readableText text = canonicalText text := by
      intro text _
      unfold readableText canonicalText
      simp only [Text.isUtf8_iff]
    unfold read canonical
    rw [decodeStrategy_sequence hshape, htext, if_pos rfl]
    dsimp only
    rw [Reader.strings?_eq hbytes (hfield 4 hle) hoffset htexts, List.map_congr_left hreadable]
    rfl

end

end FieldType

end RecordCodec
