import RecordCodec.Proofs.Table.Vectors

/-!
This module contains what closing an object and finishing a buffer leave in it: the vtable, the
distance to it in front of the fields, and the position of the object at the start of the buffer.
-/

namespace RecordCodec.Table.Builder

theorem toList_foldl_setIfInBounds (tail : Array UInt8) (bytes old front back : List UInt8)
    (k off : Nat) (htail : tail.toList.reverse = front ++ (old ++ back))
    (hlen : bytes.length = old.length) (hoff : (old ++ back).length + k = off) :
    ((bytes.zipIdx k).foldl (fun tail byte => tail.setIfInBounds (off - 1 - byte.2) byte.1)
      tail).toList.reverse = front ++ (bytes ++ back) := by
  induction bytes generalizing tail old front k with
  | nil =>
    have hold : old = [] := by
      apply List.eq_nil_of_length_eq_zero
      exact hlen.symm
    rw [hold] at htail
    exact htail
  | cons x bytes ih =>
    cases old with
    | nil => simp at hlen
    | cons o old =>
      rw [List.zipIdx_cons, List.foldl_cons]
      simp only [List.cons_append, List.length_cons] at hoff
      have hindex : off - 1 - k = (old ++ back).reverse.length := by
        rw [List.length_reverse]
        omega
      have htoList : tail.toList = (old ++ back).reverse ++ o :: front.reverse := by
        rw [← List.reverse_reverse tail.toList, htail]
        simp
      rw [ih _ old (front ++ [x])]
      · simp
      · rw [Array.toList_setIfInBounds, htoList, hindex, List.set_append_right _ _ (Nat.le_refl _)]
        simp
      · simpa using hlen
      · omega

theorem written_patch {b : Builder} {old front back : List UInt8} (bytes : List UInt8)
    (h : b.written = front ++ (old ++ back)) (hlen : bytes.length = old.length) :
    (b.patch (old ++ back).length bytes).written = front ++ (bytes ++ back) := by
  unfold patch
  apply toList_foldl_setIfInBounds b.tail bytes old front back 0
  · exact h
  · exact hlen
  · rfl

theorem minAlign_patch (b : Builder) (off : Nat) (bytes : List UInt8) :
    (b.patch off bytes).minAlign = b.minAlign := rfl

theorem vtable_eq_writtenFields_append (b : Builder) :
    ∃ k, b.vtable.toList = b.writtenFields ++ List.replicate k 0 := by
  refine ⟨(b.vtable.toList.reverse.takeWhile (· == 0)).length, ?_⟩
  have hzeros : (b.vtable.toList.reverse.takeWhile (· == 0)).reverse =
      List.replicate (b.vtable.toList.reverse.takeWhile (· == 0)).length 0 := by
    rw [List.eq_replicate_iff]
    constructor
    · rw [List.length_reverse]
    · intro x hx
      have := List.all_takeWhile (p := (· == 0)) (l := b.vtable.toList.reverse)
      rw [List.all_eq_true] at this
      simpa using this x (List.mem_reverse.1 hx)
  unfold writtenFields
  rw [← hzeros, ← List.reverse_append, List.takeWhile_append_dropWhile, List.reverse_reverse]

theorem length_writtenFields_le (b : Builder) : b.writtenFields.length ≤ b.vtable.size := by
  obtain ⟨k, hk⟩ := b.vtable_eq_writtenFields_append
  rw [← Array.length_toList, hk, List.length_append]
  omega

theorem getElem?_writtenFields {b : Builder} {i : Nat} (h : i < b.writtenFields.length) :
    b.writtenFields[i]? = b.vtable[i]? := by
  obtain ⟨k, hk⟩ := b.vtable_eq_writtenFields_append
  rw [← Array.getElem?_toList, hk, List.getElem?_append_left h]

theorem eq_zero_of_length_writtenFields_le {b : Builder} {i field : Nat}
    (h : b.writtenFields.length ≤ i) (hfield : b.vtable[i]? = some field) : field = 0 := by
  obtain ⟨k, hk⟩ := b.vtable_eq_writtenFields_append
  rw [← Array.getElem?_toList, hk, List.getElem?_append_right h, List.getElem?_replicate] at hfield
  split at hfield
  · cases hfield
    rfl
  · contradiction

theorem exists_of_length_writtenFields {b : Builder} {n : Nat}
    (h : b.writtenFields.length = n + 1) : ∃ field, b.vtable[n]? = some field ∧ field ≠ 0 := by
  have hlast := List.head?_dropWhile_not (· == 0) b.vtable.toList.reverse
  have hget := getElem?_writtenFields (b := b) (i := n) (by omega)
  unfold writtenFields at h hget
  cases hdrop : b.vtable.toList.reverse.dropWhile (· == 0) with
  | nil =>
    rw [hdrop] at h
    contradiction
  | cons field fields =>
    rw [hdrop, List.reverse_cons] at h hget
    rw [hdrop] at hlast
    rw [List.length_append, List.length_singleton, Nat.add_right_cancel_iff] at h
    rw [← h, List.getElem?_concat_length] at hget
    refine ⟨field, ?_, by simpa using hlast⟩
    rw [← h]
    exact hget.symm

theorem writeVtable_reaches {b : Builder} (objectSize : Nat) (entries : List Nat)
    (hdvd : 2 ∣ b.offset) (halign : 2 ≤ b.minAlign) :
    Reaches (b.offset + 2 * entries.length + 6) (b.writeVtable objectSize entries) fun b' =>
      Wrote b b' 0 (leBytes 2 (2 * entries.length + 4) ++
        (leBytes 2 objectSize ++ entries.flatMap (leBytes 2))) := by
  unfold writeVtable
  apply Reaches.bind ((prepend_elements_reaches (s := .u16) entries (by decide) hdvd
    halign).mono (by simp only [Scalar.size]; omega) (fun _ h => h))
  intro b₁ hwrote₁
  have hoffset₁ := hwrote₁.offset
  rw [length_flatMap_leBytes] at hoffset₁
  simp only [Scalar.size] at hoffset₁ hwrote₁
  have hpad₁ : Layout.padding b₁.offset 2 = 0 := by
    apply Layout.padding_eq_zero
    omega
  have halign₁ : 2 ≤ b₁.minAlign := by
    rw [hwrote₁.minAlign]
    omega
  apply Reaches.bind ((b₁.prependNumber_reaches objectSize (show 0 < 2 by decide)).mono
    (by omega) (fun _ h => h))
  rintro b₂ ⟨hwrote₂, -⟩
  rw [hpad₁, List.replicate_zero, List.append_nil] at hwrote₂
  have hoffset₂ := hwrote₂.offset
  rw [length_leBytes] at hoffset₂
  have hpad₂ : Layout.padding b₂.offset 2 = 0 := by
    apply Layout.padding_eq_zero
    omega
  have halign₂ : 2 ≤ b₂.minAlign := by
    rw [hwrote₂.minAlign]
    omega
  apply (b₂.prependNumber_reaches _ (show 0 < 2 by decide)).mono (by omega)
  rintro b₃ ⟨hwrote₃, -⟩
  rw [hpad₂, List.replicate_zero, List.append_nil] at hwrote₃
  exact (hwrote₁.trans (hwrote₂.of_align_le halign₁)).trans (hwrote₃.of_align_le halign₂)

def vtableBytes (b : Builder) (object : Nat) : List UInt8 :=
  leBytes 2 (2 * b.writtenFields.length + 4) ++ (leBytes 2 (object - b.objectEnd) ++
    (b.writtenFields.map (entry object)).flatMap (leBytes 2))

theorem length_vtableBytes (b : Builder) (object : Nat) :
    (b.vtableBytes object).length = 2 * b.writtenFields.length + 4 := by
  unfold vtableBytes
  simp only [List.length_append, length_leBytes, length_flatMap_leBytes, List.length_map]
  omega

def objectOffset (b : Builder) : Nat :=
  b.offset + Layout.padding b.offset 4 + 4

theorem endObject_reaches {b : Builder} (hb : b.isNested = true) (hvtables : b.vtables = []) :
    Reaches (b.offset + 2 * b.vtable.size + 16) b.endObject fun (b', object) =>
      object = b.objectOffset ∧ b'.isNested = false ∧ b'.minAlign = max b.minAlign 4 ∧
      b'.written = b.vtableBytes object ++ (leBytes 4 (b.vtableBytes object).length ++
        (List.replicate (Layout.padding b.offset 4) 0 ++ b.written)) := by
  have hfields := b.length_writtenFields_le
  have hfour := Layout.padding_lt b.offset (show 0 < 4 by decide)
  unfold endObject
  rw [requireNested_eq hb]
  apply Reaches.ok_bind
  apply Reaches.bind ((b.prependOffset_reaches (Nat.zero_le _)).mono (by omega) (fun _ h => h))
  rintro b₁ ⟨hwrote₁, hroom₁⟩
  have hoffset₁ := hwrote₁.offset
  simp only [List.length_append, length_leBytes, List.length_replicate] at hoffset₁
  have hobject : b₁.offset = b.objectOffset := by
    unfold objectOffset
    omega
  have hdvd₁ : 4 ∣ b₁.offset := by
    have := Layout.dvd_add_padding b.offset (show 0 < 4 by decide)
    omega
  have halign₁ : 2 ≤ b₁.minAlign := by
    rw [hwrote₁.minAlign]
    omega
  have hwritten₁ : b₁.writtenFields = b.writtenFields := by
    unfold writtenFields
    rw [hwrote₁.vtable]
  simp only [hwrote₁.vtables, hvtables, List.find?_nil, hwritten₁, hwrote₁.objectEnd]
  apply Reaches.bind ((writeVtable_reaches (b₁.offset - b.objectEnd)
    (b.writtenFields.map (entry b₁.offset)) (by omega) halign₁).mono
    (by rw [List.length_map]; omega) (fun _ h => h))
  intro b₂ hwrote₂
  have hvtable : Wrote b₁ b₂ 0 (b.vtableBytes b₁.offset) := by
    rw [List.length_map] at hwrote₂
    exact hwrote₂
  have hoffset₂ := hvtable.offset
  -- the distance to the vtable takes the place of the zero that was written for it
  have hdistance : b₂.offset - b₁.offset = (b.vtableBytes b₁.offset).length := by omega
  have hwritten : b₂.written = b.vtableBytes b₁.offset ++ (leBytes 4 (b₁.offset - 0) ++
      (List.replicate (Layout.padding b.offset 4) 0 ++ b.written)) := by
    rw [hvtable.written, hwrote₁.written, List.append_assoc]
  have hlength : (leBytes 4 (b₁.offset - 0) ++
      (List.replicate (Layout.padding b.offset 4) 0 ++ b.written)).length = b₁.offset := by
    rw [← List.append_assoc, ← hwrote₁.written, offset_eq]
  have hpatch := written_patch (leBytes 4 (b.vtableBytes b₁.offset).length) hwritten
    (by simp)
  rw [hlength] at hpatch
  have hminAlign : b₂.minAlign = max b.minAlign 4 := by
    rw [hvtable.minAlign, hwrote₁.minAlign, Nat.max_zero]
  apply Reaches.pure
  rw [hdistance]
  dsimp only
  refine ⟨hobject, rfl, ?_, ?_⟩
  · rw [minAlign_patch]
    exact hminAlign
  · unfold written at hpatch ⊢
    exact hpatch

theorem finish_reaches {b : Builder} {root : Nat} (hb : b.isNested = false)
    (hroot : root ≤ b.offset) (halign : b.minAlign ∣ 8) (hfour : 4 ∣ b.minAlign) :
    Reaches (b.offset + 24) (b.finish root) fun b' =>
      b'.isFinished = true ∧ b'.offset < 0x80000000 ∧ b.minAlign ∣ b'.offset ∧
      b'.written = leBytes 4 (b'.offset - root) ++
        (List.replicate (Layout.padding (b.offset + 4) b.minAlign) 0 ++ b.written) := by
  have hpos : 0 < b.minAlign := Nat.pos_of_dvd_of_pos halign (by decide)
  have hle : b.minAlign ≤ 8 := Nat.le_of_dvd (by decide) halign
  have hpad := Layout.padding_lt (b.offset + 4) hpos
  unfold finish
  rw [requireNotNested_eq hb]
  apply Reaches.ok_bind
  apply Reaches.bind ((b.prep_reaches 4 hpos).mono (by omega) (fun _ h => h))
  rintro b₁ ⟨hwrote₁, -⟩
  have hoffset₁ := hwrote₁.offset
  rw [List.length_replicate] at hoffset₁
  have hdvd : b.minAlign ∣ b₁.offset + 4 := by
    have := Layout.dvd_add_padding (b.offset + 4) hpos
    have hsum : b₁.offset + 4 = b.offset + 4 + Layout.padding (b.offset + 4) b.minAlign := by omega
    rw [hsum]
    exact this
  have hpad₁ : Layout.padding b₁.offset 4 = 0 := by
    apply Layout.padding_eq_zero
    have := Nat.dvd_trans hfour hdvd
    omega
  apply Reaches.bind ((b₁.prependOffset_reaches (show root ≤ b₁.offset by omega)).mono (by omega)
    (fun _ h => h))
  rintro b₂ ⟨hwrote₂, hroom₂⟩
  rw [hpad₁, List.replicate_zero, List.append_nil] at hwrote₂
  have hoffset₂ := hwrote₂.offset
  rw [length_leBytes] at hoffset₂
  apply Reaches.pure
  refine ⟨rfl, hroom₂, ?_, ?_⟩
  · show b.minAlign ∣ b₂.offset
    rw [hoffset₂, Nat.add_comm]
    exact hdvd
  · show b₂.written = leBytes 4 (b₂.offset - root) ++ _
    rw [hwrote₂.written, hwrote₁.written]

end RecordCodec.Table.Builder
