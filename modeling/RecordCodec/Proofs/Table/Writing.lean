import RecordCodec.Proofs.Table.Growth

/-!
This module contains what the writing operations of a builder do to what is written: each puts some
bytes in front of it and leaves the rest of the builder alone.
-/

namespace RecordCodec.Table

structure Wrote (b b' : Builder) (align : Nat) (bytes : List UInt8) : Prop where
  written : b'.written = bytes ++ b.written
  minAlign : b'.minAlign = max b.minAlign align
  vtable : b'.vtable = b.vtable
  objectEnd : b'.objectEnd = b.objectEnd
  vtables : b'.vtables = b.vtables
  isNested : b'.isNested = b.isNested

theorem Builder.offset_eq (b : Builder) : b.offset = b.written.length := by
  simp [offset, written]

theorem Builder.written_put (b : Builder) (bytes : List UInt8) :
    (b.put bytes).written = bytes ++ b.written := by
  simp [written, put]

namespace Wrote

variable {b b' b'' : Builder} {align align' : Nat} {xs ys : List UInt8}

theorem put (b : Builder) (bytes : List UInt8) : Wrote b (b.put bytes) 0 bytes where
  written := b.written_put bytes
  minAlign := (Nat.max_zero b.minAlign).symm
  vtable := rfl
  objectEnd := rfl
  vtables := rfl
  isNested := rfl

theorem refl (b : Builder) : Wrote b b 0 [] :=
  ⟨rfl, (Nat.max_zero b.minAlign).symm, rfl, rfl, rfl, rfl⟩

theorem trans (h : Wrote b b' align xs) (h' : Wrote b' b'' align' ys) :
    Wrote b b'' (max align align') (ys ++ xs) where
  written := by rw [h'.written, h.written, List.append_assoc]
  minAlign := by rw [h'.minAlign, h.minAlign, Nat.max_assoc]
  vtable := by rw [h'.vtable, h.vtable]
  objectEnd := by rw [h'.objectEnd, h.objectEnd]
  vtables := by rw [h'.vtables, h.vtables]
  isNested := by rw [h'.isNested, h.isNested]

theorem then_put (h : Wrote b b' align xs) (ys : List UInt8) :
    Wrote b (b'.put ys) align (ys ++ xs) := by
  have := h.trans (put b' ys)
  rw [Nat.max_zero] at this
  exact this

theorem of_align_le (h : Wrote b b' align xs) (halign : align ≤ b.minAlign) : Wrote b b' 0 xs where
  written := h.written
  minAlign := by
    rw [h.minAlign]
    omega
  vtable := h.vtable
  objectEnd := h.objectEnd
  vtables := h.vtables
  isNested := h.isNested

theorem offset (h : Wrote b b' align xs) : b'.offset = xs.length + b.offset := by
  rw [b'.offset_eq, h.written, List.length_append, b.offset_eq]

theorem standsAt_left (h : Wrote b b' align (xs ++ ys)) : StandsAt b'.written b'.offset xs := by
  have hlength : (xs ++ ys).length + b.written.length = xs.length + (ys ++ b.written).length := by
    rw [List.length_append, List.length_append, Nat.add_assoc]
  rw [h.offset, h.written, b.offset_eq, List.append_assoc, hlength]
  apply StandsAt.here

end Wrote

/--
What is written in `b` stands in `b'` as well, no wider alignment than that of the widest scalar
was used since, and the rest of the builder is the same.
-/
structure Builder.Extends (b b' : Builder) : Prop where
  written : ∃ bytes, b'.written = bytes ++ b.written
  minAlign : b.minAlign ∣ 8 → b'.minAlign ∣ 8
  minAlign_le : b.minAlign ≤ b'.minAlign
  vtable : b'.vtable = b.vtable
  objectEnd : b'.objectEnd = b.objectEnd
  vtables : b'.vtables = b.vtables
  isNested : b'.isNested = b.isNested

theorem max_dvd {m n k : Nat} (hm : m ∣ k) (hn : n ∣ k) : max m n ∣ k := by
  rcases Nat.le_total m n with hle | hle
  · rw [Nat.max_eq_right hle]
    exact hn
  · rw [Nat.max_eq_left hle]
    exact hm

theorem Wrote.extends {b b' : Builder} {align : Nat} {bytes : List UInt8}
    (h : Wrote b b' align bytes) (halign : align = 0 ∨ align ∣ 8) : b.Extends b' where
  written := ⟨bytes, h.written⟩
  minAlign := by
    intro hdvd
    rw [h.minAlign]
    rcases halign with rfl | halign
    · rw [Nat.max_zero]
      exact hdvd
    · exact max_dvd hdvd halign
  minAlign_le := by
    rw [h.minAlign]
    exact Nat.le_max_left ..
  vtable := h.vtable
  objectEnd := h.objectEnd
  vtables := h.vtables
  isNested := h.isNested

namespace Builder

theorem Extends.refl (b : Builder) : b.Extends b :=
  (Wrote.refl b).extends (.inl rfl)

theorem Extends.trans {b b' b'' : Builder} (h : b.Extends b') (h' : b'.Extends b'') :
    b.Extends b'' where
  written := by
    obtain ⟨xs, hxs⟩ := h.written
    obtain ⟨ys, hys⟩ := h'.written
    exact ⟨ys ++ xs, by rw [hys, hxs, List.append_assoc]⟩
  minAlign := fun hdvd => h'.minAlign (h.minAlign hdvd)
  minAlign_le := Nat.le_trans h.minAlign_le h'.minAlign_le
  vtable := by rw [h'.vtable, h.vtable]
  objectEnd := by rw [h'.objectEnd, h.objectEnd]
  vtables := by rw [h'.vtables, h.vtables]
  isNested := by rw [h'.isNested, h.isNested]

structure Keeps (b b' : Builder) : Prop where
  written : ∃ bytes, b'.written = bytes ++ b.written
  minAlign_le : b.minAlign ≤ b'.minAlign

theorem Extends.keeps {b b' : Builder} (h : b.Extends b') : b.Keeps b' :=
  ⟨h.written, h.minAlign_le⟩

theorem prep_reaches (b : Builder) {size : Nat} (additional : Nat) (hsize : 0 < size) :
    Reaches (b.offset + 2 * size + additional) (b.prep size additional) fun b' =>
      Wrote b b' size (List.replicate (Layout.padding (b.offset + additional) size) 0) ∧
      b'.offset + size + additional < 0x80000000 := by
  have hpad := Layout.padding_lt (b.offset + additional) hsize
  unfold prep
  apply Reaches.bind ((grow_reaches _ b.capacity).mono (by omega) (fun _ h => h))
  intro capacity hroom
  have hcapacity := capacity.isLt
  have hput := (Wrote.put b
    (List.replicate (Layout.padding (b.offset + additional) size) 0)).offset
  rw [List.length_replicate] at hput
  apply Reaches.pure
  refine ⟨⟨b.written_put _, rfl, rfl, rfl, rfl, rfl⟩, ?_⟩
  show (b.put _).offset + size + additional < 0x80000000
  omega

theorem prependNumber_reaches (b : Builder) {width : Nat} (n : Nat) (hwidth : 0 < width) :
    Reaches (b.offset + 2 * width) (b.prependNumber width n) fun b' =>
      Wrote b b' width (leBytes width n ++ List.replicate (Layout.padding b.offset width) 0) ∧
      b'.offset < 0x80000000 := by
  unfold prependNumber
  apply Reaches.bind (b.prep_reaches 0 hwidth)
  rintro b₁ ⟨hwrote, hroom⟩
  apply Reaches.pure
  refine ⟨hwrote.then_put _, ?_⟩
  rw [(Wrote.put b₁ _).offset, length_leBytes]
  omega

theorem prependOffset_reaches (b : Builder) {off : Nat} (hoff : off ≤ b.offset) :
    Reaches (b.offset + 8) (b.prependOffset off) fun b' =>
      Wrote b b' 4 (leBytes 4 (b'.offset - off) ++
        List.replicate (Layout.padding b.offset 4) 0) ∧
      b'.offset < 0x80000000 := by
  unfold prependOffset
  apply Reaches.bind (b.prep_reaches 0 (by decide))
  rintro b₁ ⟨hwrote, hroom⟩
  have hle : off ≤ b₁.offset := by
    rw [hwrote.offset]
    omega
  have hput := (Wrote.put b₁ (leBytes 4 (b₁.offset - off + 4))).offset
  rw [length_leBytes] at hput
  simp only [hle, ↓reduceIte]
  apply Reaches.pure
  constructor
  · have hdistance : 4 + b₁.offset - off = b₁.offset - off + 4 := by omega
    rw [hput, hdistance]
    exact hwrote.then_put _
  · rw [hput]
    omega

end Builder

end RecordCodec.Table
