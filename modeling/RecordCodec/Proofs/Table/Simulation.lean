import RecordCodec.Proofs.Codec.Stored
import RecordCodec.Proofs.Planner.Optimality

/-!
This module contains the agreement of layouts with builders: a layout counts from zero, a builder
from wherever the object is opened, and both come to the same size and the same padding, whatever
the order of the fields is.
-/

namespace RecordCodec.Table

/--
Values of the given widths were written in front of `w`, one after the other. Each of them is
aligned, with less padding behind it than it is wide, and there are `inserted` bytes of padding in
all.
-/
inductive Inserted (w : List UInt8) : List Nat → Nat → List UInt8 → Prop
  | nil : Inserted w [] 0 w
  | snoc {widths : List Nat} {inserted pad : Nat} {w' value : List UInt8}
    (h : Inserted w widths inserted w') (hpad : pad < value.length)
    (hdvd : value.length ∣ (value ++ (List.replicate pad 0 ++ w')).length) :
    Inserted w (widths ++ [value.length]) (inserted + pad)
      (value ++ (List.replicate pad 0 ++ w'))

def Aligned (b b' : Builder) (width : Nat) : Prop :=
  ∃ value, value.length = width ∧
    b'.written = value ++ (List.replicate (Layout.padding b.offset width) 0 ++ b.written)

theorem Builder.setSlot_aligned {b b₁ : Builder} {i width : Nat} {value : List UInt8}
    (hi : i < b.vtable.size) (hvalue : value.length = width)
    (h : Wrote b b₁ width (value ++ List.replicate (Layout.padding b.offset width) 0)) :
    ∃ b', b₁.setSlot i = .ok b' ∧ Slotted b b' i width ∧ Aligned b b' width := by
  obtain ⟨b', hset, hslotted, hwritten⟩ := setSlot_of_wrote hi hvalue h
  refine ⟨b', hset, hslotted, value, hvalue, ?_⟩
  rw [hwritten, h.written, List.append_assoc]

end RecordCodec.Table

namespace RecordCodec

open RecordCodec.Table

/--
Write a field into the open object in any case: a scalar, given by its bit pattern, or an object
outside of it, given by its offset.
-/
def FieldType.write (t : FieldType) (index content : Nat) (b : Builder) :
    Except BuilderError Builder :=
  if t.isIndirect then b.offsetSlot index content else b.slotAlways t.scalar index content

theorem FieldType.write_reaches {t : FieldType} {b : Builder} {i content : Nat}
    (hknown : t.isKnown = true) (hi : i < b.vtable.size)
    (hcontent : t.isIndirect = true → content ≤ b.offset) :
    Reaches 0x40000000 (t.write i content b) fun b' =>
      Slotted b b' i t.width ∧ Aligned b b' t.width := by
  unfold write
  split
  · next hindirect =>
    have hwidth : t.width = 4 := if_pos hindirect
    unfold Builder.offsetSlot
    rw [hwidth]
    apply Reaches.bind (b.prependOffset_reaches (hcontent hindirect)).limit
    rintro b₁ ⟨hwrote, -⟩
    obtain ⟨b', hset, h⟩ := Builder.setSlot_aligned hi (length_leBytes 4 _) hwrote
    rw [hset]
    exact h
  · next hinline =>
    have hwidth : t.width = t.scalar.size := if_neg hinline
    have hpos := Scalar.size_pos_of_isValid (isValid_of_isKnown hknown)
    unfold Builder.slotAlways Builder.prepend
    rw [hwidth]
    apply Reaches.bind (b.prependNumber_reaches content hpos).limit
    rintro b₁ ⟨hwrote, -⟩
    obtain ⟨b', hset, h⟩ := Builder.setSlot_aligned hi (length_leBytes _ content) hwrote
    rw [hset]
    exact h

def Table.Builder.writeFields (b : Builder) (count : Nat) (types : List FieldType)
    (contents : Nat → Nat) (order : List Nat) : Except BuilderError Builder := do
  order.foldlM step (← b.startObject count)
where
  step (b : Builder) (i : Nat) : Except BuilderError Builder :=
    match types[i]? with
    | some t => t.write i (contents i) b
    | none => .ok b

theorem Layout.laidOut_append {types : List FieldType} {i : Nat} {t : FieldType} (done : List Nat)
    (ht : types[i]? = some t) :
    laidOut types (done ++ [i]) = (laidOut types done).commit t.width := by
  unfold laidOut ofWidths
  rw [List.map_append, List.map_singleton, List.foldl_append, widthAt_eq ht]
  rfl

namespace Table

structure Follows (types : List FieldType) (b : Builder) (done : List Nat) (b' : Builder) :
    Prop where
  offset : b'.offset = b.offset + (Layout.laidOut types done).size
  inserted : Inserted b.written (done.map (Layout.widthAt types))
    (Layout.laidOut types done).padding b'.written

theorem Follows.commit {types : List FieldType} {b b₁ b₂ : Builder} {done : List Nat}
    {i : Nat} {t : FieldType} (h : Follows types b done b₁) (hdvd : 8 ∣ b.offset)
    (ht : types[i]? = some t) (hknown : t.isKnown = true) (hslotted : Slotted b₁ b₂ i t.width)
    (haligned : Aligned b₁ b₂ t.width) : Follows types b (done ++ [i]) b₂ := by
  have hpos := FieldType.width_pos_of_isKnown hknown
  have hpad : Layout.padding b₁.offset t.width =
      Layout.padding (Layout.laidOut types done).size t.width := by
    rw [h.offset]
    exact Layout.padding_add_of_dvd _ (Nat.dvd_trans (FieldType.width_dvd_of_isKnown hknown) hdvd)
  have hcommit := Layout.laidOut_append done ht
  rw [Layout.Info.commit_of_pos _ hpos, ← hpad] at hcommit
  constructor
  · rw [hcommit, hslotted.offset, h.offset]
    dsimp only
    omega
  · obtain ⟨value, hvalue, hwritten⟩ := haligned
    have hend : t.width ∣ b₂.offset := by
      rw [hslotted.offset]
      exact Nat.dvd_add (Layout.dvd_add_padding _ hpos) (Nat.dvd_refl _)
    rw [hcommit, List.map_append, List.map_singleton, Layout.widthAt_eq ht, hwritten, ← hvalue]
    apply h.inserted.snoc
    · rw [hvalue]
      exact Layout.padding_lt _ hpos
    · rw [hvalue, ← hwritten, ← b₂.offset_eq]
      exact hend

theorem foldlM_step_follows {types : List FieldType} {contents : Nat → Nat} {b : Builder}
    {order : List Nat} (hknown : ∀ t ∈ types, t.isKnown = true)
    (hcount : types.length ≤ b.vtable.size) (horder : ∀ i ∈ order, i < types.length)
    (hcontents : ∀ i ∈ order, ∀ t, types[i]? = some t → t.isIndirect = true →
      contents i ≤ b.offset) (hdvd : 8 ∣ b.offset) :
    Reaches 0x40000000 (order.foldlM (Builder.writeFields.step types contents) b)
      (Follows types b order) := by
  refine (Reaches.foldlM (fun rest b' => ∃ done, done ++ rest = order ∧
    b'.vtable.size = b.vtable.size ∧ Follows types b done b') ?step order b
    ⟨[], rfl, rfl, rfl, .nil⟩).mono (Nat.le_refl _) ?all
  case all =>
    rintro b' ⟨done, hdone, -, hfollows⟩
    rw [List.append_nil] at hdone
    rw [← hdone]
    exact hfollows
  case step =>
    rintro i rest b₁ ⟨done, hdone, hsize, hfollows⟩
    have hmem : i ∈ order := by
      rw [← hdone]
      exact List.mem_append_right _ (List.mem_cons_self ..)
    have hi := horder i hmem
    have ht := List.getElem?_eq_getElem hi
    have hknown' := hknown _ (List.getElem_mem hi)
    have hoffset := hfollows.offset
    unfold Builder.writeFields.step
    rw [ht]
    apply (FieldType.write_reaches hknown' (by omega) ?_).mono (Nat.le_refl _)
    · rintro b₂ ⟨hslotted, haligned⟩
      refine ⟨done ++ [i], ?_, ?_, hfollows.commit hdvd ht hknown' hslotted haligned⟩
      · rw [List.append_assoc]
        exact hdone
      · rw [hslotted.vtable, Array.size_setIfInBounds, hsize]
    · intro hindirect
      have := hcontents i hmem _ ht hindirect
      omega

theorem Builder.writeFields_follows_layout (types : List FieldType) (order : List Nat) {count : Nat}
    {contents : Nat → Nat} {b : Builder} (hknown : ∀ t ∈ types, t.isKnown = true)
    (horder : ∀ i ∈ order, i < types.length) (hcount : types.length ≤ count)
    (hcontents : ∀ i ∈ order, ∀ t, types[i]? = some t → t.isIndirect = true →
      contents i ≤ b.offset)
    (hnested : b.isNested = false) (hdvd : 8 ∣ b.offset)
    (hgrowth : b.writeFields count types contents order ≠ .error .tooLarge) :
    ∃ info b', Layout.calculate? types (order.map Int.ofNat) = some info ∧
      b.writeFields count types contents order = .ok b' ∧
      b'.offset = b.offset + info.size ∧
      Inserted b.written (order.map (Layout.widthAt types)) info.padding b'.written := by
  have hreaches : Reaches 0x40000000 (b.writeFields count types contents order)
      (Follows types b order) := by
    have hsize : types.length ≤ (Array.replicate count 0).size := by
      rw [Array.size_replicate]
      exact hcount
    unfold writeFields startObject
    rw [requireNotNested_eq hnested]
    apply (foldlM_step_follows (b := { b with
      isNested := true, vtable := Array.replicate count 0, objectEnd := b.offset }) hknown hsize horder
      hcontents hdvd).mono (Nat.le_refl _)
    intro b' h
    exact ⟨h.offset, h.inserted⟩
  obtain ⟨b', hrun, hfollows⟩ := hreaches.exists_ok hgrowth
  exact ⟨_, b', Layout.calculate?_eq horder, hrun, hfollows.offset, hfollows.inserted⟩

def Builder.greeting : Builder :=
  let b := Builder.new ⟨0, by decide⟩
  (b.createString [0x68, 0x69]).toOption.elim b Prod.fst

theorem Builder.writeFields_follows_layout_greeting :
    ∃ info b', Layout.calculate? [.ofText, .ofScalar .char, .ofScalar .u64, .ofScalar .bool]
        [3, 0, 2] = some info ∧
      greeting.writeFields 4 [.ofText, .ofScalar .char, .ofScalar .u64, .ofScalar .bool] (fun _ => 8)
        [3, 0, 2] = .ok b' ∧
      b'.offset = greeting.offset + info.size ∧
      Inserted greeting.written [1, 4, 8] info.padding b'.written := by
  have hok : (greeting.writeFields 4 [.ofText, .ofScalar .char, .ofScalar .u64, .ofScalar .bool]
      (fun _ => 8) [3, 0, 2]).isOk = true := by decide
  have hoffset : greeting.offset = 8 := by decide
  apply writeFields_follows_layout [.ofText, .ofScalar .char, .ofScalar .u64, .ofScalar .bool]
    [3, 0, 2]
  · decide
  · decide
  · decide
  · intro i _ t _ _
    exact Nat.le_of_eq hoffset.symm
  · decide
  · exact ⟨1, hoffset⟩
  · intro herror
    rw [herror] at hok
    contradiction

end Table

end RecordCodec
