import RecordCodec.Proofs.Table.Closing

/-!
This module contains what the reader of a finished buffer finds: the object that was closed last,
and each of its fields by way of the vtable. `Finished` has the whole shape of such a buffer.
-/

namespace RecordCodec.Table

open Builder

structure Finished (b b' : Builder) : Prop where
  isFinished : b'.isFinished = true
  room : b'.offset < 0x80000000
  dvd_offset : max b.minAlign 4 ∣ b'.offset
  written : ∃ pad, b'.written = leBytes 4 (b'.offset - b.objectOffset) ++ (List.replicate pad 0 ++
    (b.vtableBytes b.objectOffset ++ (leBytes 4 (b.vtableBytes b.objectOffset).length ++
      (List.replicate (Layout.padding b.offset 4) 0 ++ b.written))))

theorem Builder.finishObject_reaches {b : Builder} (hb : b.isNested = true)
    (hvtables : b.vtables = []) (halign : b.minAlign ∣ 8) :
    Reaches (b.offset + 4 * b.vtable.size + 48) b.finishObject fun b' => Finished b b' := by
  have hfields := b.length_writtenFields_le
  have hpad := Layout.padding_lt b.offset (show 0 < 4 by decide)
  unfold finishObject
  apply Reaches.bind ((endObject_reaches hb hvtables).mono (by omega) (fun _ h => h))
  rintro ⟨b₁, object⟩ ⟨hobject, hnested, hminAlign, hwritten⟩
  subst hobject
  have hoffset₁ : b₁.offset = (2 * b.writtenFields.length + 4) + b.objectOffset := by
    rw [b₁.offset_eq, hwritten]
    simp only [List.length_append, length_leBytes, List.length_replicate, length_vtableBytes]
    unfold objectOffset
    rw [b.offset_eq]
    omega
  have halign₁ : b₁.minAlign ∣ 8 ∧ 4 ∣ b₁.minAlign := by
    rw [hminAlign]
    have hle : b.minAlign ≤ 8 := Nat.le_of_dvd (by decide) halign
    revert halign
    revert hle
    generalize b.minAlign = m
    revert m
    decide
  have hobject : b.objectOffset ≤ b.offset + 7 := by
    unfold objectOffset
    omega
  apply (finish_reaches hnested (show b.objectOffset ≤ b₁.offset by omega) halign₁.1
    halign₁.2).mono
  · omega
  · rintro b' ⟨hfinished, hroom, hdvd, hwritten'⟩
    rw [hwritten] at hwritten'
    rw [hminAlign] at hdvd
    exact ⟨hfinished, hroom, hdvd, _, hwritten'⟩

namespace Finished

variable {b b' : Builder}

theorem standsAt_root (h : Finished b b') :
    StandsAt b'.written b'.offset (leBytes 4 (b'.offset - b.objectOffset)) := by
  obtain ⟨pad, hwritten⟩ := h.written
  refine ⟨[], _, hwritten, ?_⟩
  rw [← hwritten, b'.offset_eq]

theorem standsAt_vtable (h : Finished b b') :
    StandsAt b'.written (b.objectOffset + (2 * b.writtenFields.length + 4))
      (b.vtableBytes b.objectOffset) := by
  obtain ⟨pad, hwritten⟩ := h.written
  rw [← List.append_assoc] at hwritten
  refine ⟨_, _, hwritten, ?_⟩
  simp only [List.length_append, length_leBytes, List.length_replicate, length_vtableBytes]
  rw [← b.offset_eq]
  unfold objectOffset
  omega

theorem standsAt_object (h : Finished b b') :
    StandsAt b'.written b.objectOffset (leBytes 4 (2 * b.writtenFields.length + 4)) := by
  obtain ⟨pad, hwritten⟩ := h.written
  rw [← List.append_assoc, ← List.append_assoc, length_vtableBytes] at hwritten
  refine ⟨_, _, hwritten, ?_⟩
  simp only [List.length_append, length_leBytes, List.length_replicate]
  rw [← b.offset_eq]
  unfold objectOffset
  omega

theorem written_append (h : Finished b b') : ∃ front, b'.written = front ++ b.written := by
  obtain ⟨pad, hwritten⟩ := h.written
  simp only [← List.append_assoc] at hwritten
  exact ⟨_, hwritten⟩

theorem objectOffset_le (h : Finished b b') :
    b.objectOffset + (2 * b.writtenFields.length + 4) ≤ b'.offset := by
  rw [b'.offset_eq]
  exact h.standsAt_vtable.le_length

end Finished

def finishedReader (b b' : Builder) : Reader where
  bytes := b'.written.toArray
  table := b'.offset - b.objectOffset
  vtable := b'.offset - (b.objectOffset + (2 * b.writtenFields.length + 4))
  vtableSize := 2 * b.writtenFields.length + 4

namespace Finished

variable {b b' : Builder}

theorem load?_vtableSize (h : Finished b b') (hsize : b.vtable.size ≤ Layout.maxFields) :
    load? b'.written.toArray (finishedReader b b').vtable 2 =
      some (2 * b.writtenFields.length + 4) := by
  have hfields := b.length_writtenFields_le
  have hmax : Layout.maxFields = 32765 := rfl
  have hlength := b'.offset_eq
  have hoffset := h.objectOffset_le
  apply h.standsAt_vtable.left.load?_leBytes
  · simp only [finishedReader]
    omega
  · have : Nat.pow 256 2 = 0x10000 := rfl
    omega

theorem load?_objectSize (h : Finished b b') :
    load? b'.written.toArray ((finishedReader b b').vtable + 2) 2 =
      some ((b.objectOffset - b.objectEnd) % 0x10000) := by
  have hlength := b'.offset_eq
  have hoffset := h.objectOffset_le
  have hobject := h.standsAt_vtable.right.left
  rw [hobject.load? _ (length_leBytes 2 _), leValue_leBytes_mod]
  simp only [length_leBytes, finishedReader]
  omega

theorem ofBytes (h : Finished b b') (hsize : b.vtable.size ≤ Layout.maxFields) :
    Reader.ofBytes b'.written.toArray = finishedReader b b' := by
  have hfields := b.length_writtenFields_le
  have hmax : Layout.maxFields = 32765 := rfl
  have hlength := b'.offset_eq
  have hoffset := h.objectOffset_le
  have hroom := h.room
  have hroot : load? b'.written.toArray 0 4 = some (b'.offset - b.objectOffset) := by
    apply h.standsAt_root.load?_leBytes
    · omega
    · have : Nat.pow 256 4 = 0x100000000 := rfl
      omega
  have hback : load? b'.written.toArray (b'.offset - b.objectOffset) 4 =
      some (2 * b.writtenFields.length + 4) := by
    apply h.standsAt_object.load?_leBytes
    · omega
    · have : Nat.pow 256 4 = 0x100000000 := rfl
      omega
  have hvtableSize : load? b'.written.toArray
      (b'.offset - (b.objectOffset + (2 * b.writtenFields.length + 4))) 2 =
      some (2 * b.writtenFields.length + 4) := h.load?_vtableSize hsize
  have hvtable : ((b'.offset - b.objectOffset : Nat) : Int) -
      signed 4 (2 * b.writtenFields.length + 4) =
      ((b'.offset - (b.objectOffset + (2 * b.writtenFields.length + 4)) : Nat) : Int) := by
    rw [signed_four (by omega)]
    omega
  unfold Reader.ofBytes Reader.locate?
  rw [hroot, Option.bind_eq_bind, Option.bind_some, hback, Option.bind_some, hvtable,
    ← Option.bind_eq_bind, guard_bind_of (by omega)]
  dsimp only
  rw [Int.toNat_natCast, guard_bind_of (by simp only [List.size_toArray]; omega), hvtableSize,
    Option.bind_eq_bind, Option.bind_some, guard_bind_of]
  · rfl
  · simp only [List.size_toArray, Bool.and_eq_true, decide_eq_true_eq]
    omega

theorem load?_entry (h : Finished b b') {i : Nat} (hi : i < b.writtenFields.length) :
    ∃ field, b.vtable[i]? = some field ∧
      load? b'.written.toArray ((finishedReader b b').vtable + (4 + 2 * i)) 2 =
        some (entry b.objectOffset field % 0x10000) := by
  have hlength := b'.offset_eq
  have hoffset := h.objectOffset_le
  have hget := getElem?_writtenFields hi
  rw [List.getElem?_eq_getElem hi] at hget
  refine ⟨b.writtenFields[i], hget.symm, ?_⟩
  have hentries := h.standsAt_vtable
  unfold vtableBytes at hentries
  rw [← List.append_assoc] at hentries
  have hentry := hentries.right.flatMap_leBytes (i := i) (x := entry b.objectOffset
    b.writtenFields[i]) (by rw [List.getElem?_map, List.getElem?_eq_getElem hi]; rfl)
  rw [hentry.load? _ (length_leBytes 2 _), leValue_leBytes_mod]
  simp only [List.length_append, length_leBytes, finishedReader]
  omega

theorem field?_eq_none (h : Finished b b') {slot : UInt16} {i : Nat}
    (hslot : slot.toNat = 4 + 2 * i) (hzero : ∀ field, b.vtable[i]? = some field → field = 0)
    (width : Nat) : (finishedReader b b').field? slot width = none := by
  unfold Reader.field?
  rw [hslot]
  by_cases hi : i < b.writtenFields.length
  · obtain ⟨field, hfield, hload⟩ := h.load?_entry hi
    have hbytes : (finishedReader b b').bytes = b'.written.toArray := rfl
    rw [hzero field hfield] at hload
    rw [guard_bind_of (by simp only [finishedReader]; omega), hbytes, hload]
    rfl
  · rw [guard_bind_of_not]
    simp only [finishedReader]
    omega

theorem field?_eq_some (h : Finished b b') {slot : UInt16} {i field width : Nat}
    (hslot : slot.toNat = 4 + 2 * i) (hfield : b.vtable[i]? = some field) (hpos : 0 < field)
    (hle : field ≤ b.offset) (hdistance : b.objectOffset - field < 0x10000)
    (hwidth : width ≤ field) :
    (finishedReader b b').field? slot width = some (b'.offset - field) := by
  have hlength := b'.offset_eq
  have hoffset := h.objectOffset_le
  have hobject : b.offset + 4 ≤ b.objectOffset := by
    unfold objectOffset
    omega
  have hi : i < b.writtenFields.length := by
    apply Nat.lt_of_not_le
    intro hle'
    have := eq_zero_of_length_writtenFields_le hle' hfield
    omega
  obtain ⟨field', hfield', hload⟩ := h.load?_entry hi
  rw [hfield] at hfield'
  cases hfield'
  have hentry : entry b.objectOffset field % 0x10000 = b.objectOffset - field := by
    unfold entry
    rw [if_neg (by simpa using Nat.ne_of_gt hpos)]
    apply Nat.mod_eq_of_lt
    exact hdistance
  have hbytes : (finishedReader b b').bytes = b'.written.toArray := rfl
  have hposition : (finishedReader b b').table + (b.objectOffset - field) = b'.offset - field := by
    simp only [finishedReader]
    omega
  unfold Reader.field?
  rw [hslot, guard_bind_of (by simp only [finishedReader]; omega), hbytes, hload, hentry]
  rw [Option.bind_eq_bind, Option.bind_some, hposition]
  rw [guard_bind_of (by simp; omega), guard_bind_of]
  · rfl
  · simp only [List.size_toArray]
    omega

end Finished

end RecordCodec.Table
