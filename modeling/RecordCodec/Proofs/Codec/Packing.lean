import RecordCodec.Proofs.Codec.Alignment

/-!
This module contains the packing law of flattened structs. The objects of a struct end at a multiple
of 4, and the fields that are present follow them without a gap, whichever they are. All padding of a
table is in front of the first field that is present and behind the last, and the sizes in the vtable
count it. The size of the object has 16 bits, which the largest tables do not fit into.
-/

namespace RecordCodec.Table

def EndsAtOffset (x : Except BuilderError (Builder × Nat)) : Prop :=
  ∀ b off, x = .ok (b, off) → off = b.offset

theorem EndsAtOffset.bind {x : Except BuilderError α} {f : α → Except BuilderError (Builder × Nat)}
    (h : ∀ a, EndsAtOffset (f a)) : EndsAtOffset (x >>= f) := by
  intro b off hok
  obtain ⟨a, -, ha⟩ := exists_of_bind_eq_ok hok
  exact h a b off ha

namespace Builder

theorem endsAtOffset_endVector (b : Builder) (count : Nat) : EndsAtOffset (b.endVector count) := by
  apply EndsAtOffset.bind
  intro _ b' off hok
  cases hok
  rfl

theorem endsAtOffset_createBytes (b : Builder) (bytes : List UInt8) :
    EndsAtOffset (b.createBytes bytes) :=
  .bind fun _ => .bind fun _ => endsAtOffset_endVector _ _

theorem endsAtOffset_createVector (b : Builder) (s : Scalar) (elems : List Nat) :
    EndsAtOffset (b.createVector s elems) := by
  unfold createVector
  split
  · exact b.endsAtOffset_createBytes _
  · exact .bind fun _ => .bind fun _ => endsAtOffset_endVector _ _

end Builder

theorem Creation.endsAtOffset_run (c : Creation) (b : Builder) : EndsAtOffset (c.run b) := by
  cases c with
  | string text => exact .bind fun _ => .bind fun _ => Builder.endsAtOffset_endVector _ _
  | strings texts =>
    exact .bind fun _ => .bind fun _ => .bind fun _ => Builder.endsAtOffset_endVector _ _
  | codePoints codes => exact b.endsAtOffset_createVector .u32 codes
  | signedBytes elems => exact b.endsAtOffset_createBytes _
  | vector elem elems => exact b.endsAtOffset_createVector elem elems

theorem Creation.run_dvd_offset {c : Creation} {b : Builder} (hc : c.elemSize ∣ 8)
    (hb : b.isNested = false) :
    Reaches 0x40000000 (c.run b) fun (b', _) => b.Extends b' ∧ 4 ∣ b'.offset := by
  apply (Creation.run_aligned hc hb).with_eq.mono (Nat.le_refl _)
  rintro ⟨b', off⟩ ⟨hrun, hextends, haligned⟩
  refine ⟨hextends, ?_⟩
  rw [← c.endsAtOffset_run b b' off hrun]
  exact haligned.1.dvd

end RecordCodec.Table

namespace RecordCodec

open RecordCodec.Table

theorem FieldType.build_dvd_offset {t : FieldType} (hknown : t.isKnown = true) (v : Value)
    {b : Builder} (hb : b.isNested = false) (hdvd : 4 ∣ b.offset) :
    Reaches 0x40000000 (t.build v b) fun (b', _) => b.Extends b' ∧ 4 ∣ b'.offset := by
  rw [← run_make?]
  cases hc : t.creation? v with
  | none => exact Reaches.ok ⟨Builder.Extends.refl b, hdvd⟩
  | some c =>
    show Reaches _ ((some <$> Calls.make c).run b) _
    rw [Calls.run_map, Calls.run_make]
    apply Reaches.bind (Creation.run_dvd_offset (elemSize_dvd_of_creation? hknown hc) hb)
    rintro ⟨b', off⟩ hmade
    exact Reaches.ok hmade

namespace Binding

variable {bd : Binding} {struct : Array Value} {base : Nat} {b o b' : Builder}

theorem buildObjects_dvd_offset (hp : bd.plan.WellFormed) (hb : b.isNested = false)
    (hdvd : 4 ∣ b.offset) :
    Reaches 0x40000000 (bd.buildObjects struct b) fun (b', _) => 4 ∣ b'.offset := by
  unfold buildObjects
  apply (Reaches.foldlM (fun _ (state : Builder × Array (Option Nat)) =>
    b.Extends state.1 ∧ 4 ∣ state.1.offset) ?step _ _ ?start).mono (Nat.le_refl _) (fun _ h => h.2)
  case start => exact ⟨Builder.Extends.refl b, hdvd⟩
  case step =>
    rintro i _ ⟨b₁, offs⟩ ⟨hextends, hdvd₁⟩
    have hb₁ : b₁.isNested = false := by rw [hextends.isNested, hb]
    unfold buildObjects.step
    cases hf : bd.plan.fields[i]? with
    | none => exact Reaches.ok ⟨hextends, hdvd₁⟩
    | some f =>
      apply Reaches.bind (FieldType.build_dvd_offset (hp.isKnown hf) (bd.value struct i) hb₁ hdvd₁)
      rintro ⟨b₂, off⟩ ⟨hextends₂, hdvd₂⟩
      exact Reaches.ok ⟨hextends.trans hextends₂, hdvd₂⟩

theorem objectEnd_of_openTable (hfits : bd.Fits struct) (h : bd.openTable struct b = .ok o) :
    ∃ b₀ offs, bd.buildObjects struct b.reset = .ok (b₀, offs) ∧ o.objectEnd = b₀.offset := by
  obtain ⟨⟨b₀, offs⟩, hbuild, hrest⟩ := exists_of_bind_eq_ok h
  have hbuilt := (buildObjects_reaches hfits rfl).result hbuild
  have hnested : b₀.isNested = false := hbuilt.extends_.isNested
  dsimp only at hrest
  unfold Builder.startObject at hrest
  rw [Builder.requireNotNested_eq hnested] at hrest
  obtain ⟨-, hend, -⟩ := (commitFields_reaches hfits hbuilt rfl (Nat.one_dvd 8)).result hrest
  exact ⟨b₀, offs, hbuild, hend⟩

/--
All fields of the table that is open in `o` are committed. They follow the objects of the struct,
which end at a multiple of 4, behind no more than the padding of the first field.
-/
structure FollowsObjects (bd : Binding) (struct : Array Value) (o : Builder) : Prop where
  opened : bd.Opened struct (o.objectEnd + bd.firstPadding struct o.objectEnd bd.plan.commit) o
  dvd_objectEnd : 4 ∣ o.objectEnd

theorem followsObjects_of_openTable (hfits : bd.Fits struct) (h : bd.openTable struct b = .ok o) :
    bd.FollowsObjects struct o := by
  obtain ⟨b₀, offs, hbuild, hend⟩ := objectEnd_of_openTable hfits h
  refine ⟨((openTable_reaches hfits b).result h).2, ?_⟩
  rw [hend]
  exact (buildObjects_dvd_offset (b := b.reset) hfits.wellFormed rfl (Nat.dvd_zero 4)).result hbuild

def present (bd : Binding) (struct : Array Value) : List Nat :=
  bd.plan.commit.filter (bd.presentAt struct)

theorem mem_present (hfits : bd.Fits struct) {i : Nat} :
    i ∈ bd.present struct ↔ i < bd.plan.fields.size ∧ bd.presentAt struct i = true := by
  unfold present
  rw [List.mem_filter, hfits.wellFormed.mem_commit]

theorem firstPadding_cases (hfits : bd.Fits struct) {start : Nat} (hdvd : 4 ∣ start) :
    bd.firstPadding struct start bd.plan.commit = 0 ∨
    bd.firstPadding struct start bd.plan.commit = 4 ∧
      ∃ i, (bd.present struct).head? = some i ∧ bd.plan.widthAt i = 8 := by
  unfold firstPadding present
  cases hhead : (bd.plan.commit.filter (bd.presentAt struct)).head? with
  | none => exact .inl rfl
  | some i =>
    have hi := (mem_present hfits).1 (List.mem_of_head? hhead)
    have hwidth := hfits.wellFormed.widthAt_dvd hi.1
    rw [Option.map_some, Option.getD_some]
    have hcases : ∀ width ≤ 8, width ∣ 8 → width ∣ 4 ∨ width = 8 := by decide
    rcases hcases _ (Nat.le_of_dvd (by decide) hwidth) hwidth with hnarrow | hwide
    · exact .inl (Layout.padding_eq_zero (Nat.dvd_trans hnarrow hdvd))
    · rw [hwide]
      unfold Layout.padding
      by_cases hstart : 8 ∣ start
      · left
        omega
      · right
        exact ⟨by omega, i, rfl, hwide⟩

namespace Opened

theorem getElem?_of_mem_present (h : bd.Opened struct base o) {is js : List Nat} {i : Nat}
    (hpresent : bd.present struct = is ++ i :: js) :
    o.vtable[i]? = some (base + Layout.total (is.map bd.plan.widthAt) + bd.plan.widthAt i) := by
  obtain ⟨front, back, hcommit, rfl, hback⟩ := List.filter_eq_append_iff.1 hpresent
  obtain ⟨gap, rest, rfl, hgap, hi, -⟩ := List.filter_eq_cons_iff.1 hback
  have hused : bd.used struct (front ++ gap) = bd.used struct front := by
    unfold used
    rw [List.filter_append, List.filter_eq_nil_iff.2 hgap, List.append_nil]
  rw [← List.append_assoc] at hcommit
  rw [h.getElem?_of_present hcommit hi, hused]
  rfl

theorem length_writtenFields (h : bd.Opened struct base o) (hfits : bd.Fits struct) :
    o.writtenFields.length = ((bd.present struct).max?.map (· + 1)).getD 0 := by
  have hsize := h.size_eq
  have hle : ∀ n, o.writtenFields.length = n + 1 → n ∈ bd.present struct := by
    intro n hn
    obtain ⟨field, hfield, hne⟩ := Builder.exists_of_length_writtenFields hn
    obtain ⟨hlt, -⟩ := Array.getElem?_eq_some_iff.1 hfield
    rw [hsize] at hlt
    refine (mem_present hfits).2 ⟨hlt, ?_⟩
    cases hpresent : bd.presentAt struct n with
    | true => rfl
    | false =>
      rw [h.getElem?_of_absent hlt hpresent] at hfield
      cases hfield
      contradiction
  have hlt : ∀ i ∈ bd.present struct, i < o.writtenFields.length := by
    intro i hi
    obtain ⟨is, js, hsplit⟩ := List.append_of_mem hi
    have hwidth := hfits.wellFormed.widthAt_pos ((mem_present hfits).1 hi).1
    apply Nat.lt_of_not_le
    intro hlength
    have hzero := Builder.eq_zero_of_length_writtenFields_le hlength
      (h.getElem?_of_mem_present hsplit)
    omega
  cases hmax : (bd.present struct).max? with
  | none =>
    rw [List.max?_eq_none_iff] at hmax
    rw [hmax] at hle
    cases hn : o.writtenFields.length with
    | zero => rfl
    | succ n => exact absurd (hle n hn) List.not_mem_nil
  | some m =>
    obtain ⟨hm, hall⟩ := List.max?_eq_some_iff.1 hmax
    have hm' := hlt m hm
    cases hn : o.writtenFields.length with
    | zero => omega
    | succ n =>
      have hn' := hall n (hle n hn)
      rw [Option.map_some, Option.getD_some]
      omega

end Opened

/--
The field with an index stands in a buffer at a position: the reader finds it there, and it holds the
value of the struct.
-/
def StandsInline (bd : Binding) (struct : Array Value) (bytes : Array UInt8) (i pos : Nat) : Prop :=
  ∃ f, bd.plan.fields[i]? = some f ∧
    (Reader.ofBytes bytes).field? f.slot f.type.width = some pos ∧
    f.type.HoldsField (bd.value struct i) bytes.toList (bytes.size - pos)

/--
The table of a struct in a buffer has no padding between its fields, and the sizes in its vtable are
those of its fields as `stored` makes them. There may be padding behind the last field and, of 4
bytes, in front of the first one that was committed.
-/
structure IsPacked (bd : Binding) (struct : Array Value) (bytes : Array UInt8)
    (stored : Nat → Nat) : Prop where
  adjacent : ∀ is i j js, bd.present struct = is ++ i :: j :: js →
    ∃ pos, bd.StandsInline struct bytes j pos ∧
      bd.StandsInline struct bytes i (pos + bd.plan.widthAt j)
  objectSize : ∃ first last,
    (first = 0 ∨ first = 4 ∧ ∃ i, (bd.present struct).head? = some i ∧ bd.plan.widthAt i = 8) ∧
    last < 4 ∧ 4 ∣ Layout.total ((bd.present struct).map bd.plan.widthAt) + last ∧
    load? bytes ((Reader.ofBytes bytes).vtable + 2) 2 =
      some (stored (4 + Layout.total ((bd.present struct).map bd.plan.widthAt) + first + last))
  vtableSize : load? bytes (Reader.ofBytes bytes).vtable 2 =
    some (((bd.present struct).max?.map (6 + 2 * ·)).getD 4)
  vtableSize_le : ((bd.present struct).max?.map (6 + 2 * ·)).getD 4 ≤ bd.plan.vtableSize

namespace Opened

theorem standsInline (h : bd.Opened struct base o) (hfinished : Finished o b')
    (hfits : bd.Fits struct) (hsize : bd.plan.layout.size ≤ 65528)
    (hreader : Reader.ofBytes b'.written.toArray = finishedReader o b') {is js : List Nat} {i : Nat}
    (hpresent : bd.present struct = is ++ i :: js) :
    bd.StandsInline struct b'.written.toArray i
      (b'.offset - (base + Layout.total (is.map bd.plan.widthAt) + bd.plan.widthAt i)) := by
  have hmem : i ∈ bd.present struct := by
    rw [hpresent]
    exact List.mem_append_right _ (List.mem_cons_self ..)
  obtain ⟨hi, hpresent'⟩ := (mem_present hfits).1 hmem
  have hf := Array.getElem?_eq_getElem hi
  obtain ⟨off, hoff, hne, hwidth, hfield⟩ :=
    h.exists_offset_of_present hfinished hfits hsize hf hpresent'
  have hoff' := h.getElem?_of_mem_present hpresent
  rw [hoff, Option.some.injEq] at hoff'
  rw [← hoff']
  have hle := h.offset_le hf hoff hne
  have hobject := hfinished.objectOffset_le
  obtain ⟨front, hwritten⟩ := hfinished.written_append
  have hback : b'.written.toArray.size - (b'.offset - off) = off := by
    rw [List.size_toArray, ← b'.offset_eq]
    unfold Builder.objectOffset at hobject
    omega
  refine ⟨_, hf, ?_, ?_⟩
  · rw [hreader]
    rw [Plan.widthAt_eq hf] at hwidth
    exact hfield _ hwidth
  · rw [hback, List.toList_toArray, hwritten]
    exact (h.holdsField hf hoff hne).prepend front

theorem offset_eq_total (h : bd.Opened struct base o) :
    o.offset = base + Layout.total ((bd.present struct).map bd.plan.widthAt) :=
  h.offset_eq

theorem adjacent (h : bd.Opened struct base o) (hfinished : Finished o b')
    (hfits : bd.Fits struct) (hsize : bd.plan.layout.size ≤ 65528)
    (hreader : Reader.ofBytes b'.written.toArray = finishedReader o b') {is js : List Nat}
    {i j : Nat} (hpresent : bd.present struct = is ++ i :: j :: js) :
    ∃ pos, bd.StandsInline struct b'.written.toArray j pos ∧
      bd.StandsInline struct b'.written.toArray i (pos + bd.plan.widthAt j) := by
  have hpresent' : bd.present struct = (is ++ [i]) ++ j :: js := by
    rw [hpresent, List.append_assoc, List.singleton_append]
  have hi := h.standsInline hfinished hfits hsize hreader hpresent
  have hj := h.standsInline hfinished hfits hsize hreader hpresent'
  refine ⟨_, hj, ?_⟩
  have hoffset := h.offset_eq_total
  have hobject := hfinished.objectOffset_le
  unfold Builder.objectOffset at hobject
  simp only [hpresent, List.map_append, List.map_cons, List.map_nil, Layout.total_append,
    Layout.total_cons, Layout.total_nil] at hoffset ⊢
  -- the field that is committed next stands in front, by its own width
  have hposition : b'.offset - (base + (Layout.total (is.map bd.plan.widthAt) +
      (bd.plan.widthAt i + 0)) + bd.plan.widthAt j) + bd.plan.widthAt j =
      b'.offset - (base + Layout.total (is.map bd.plan.widthAt) + bd.plan.widthAt i) := by
    omega
  rw [hposition]
  exact hi

theorem vtableSize_eq (h : bd.Opened struct base o) (hfits : bd.Fits struct) :
    2 * o.writtenFields.length + 4 = ((bd.present struct).max?.map (6 + 2 * ·)).getD 4 := by
  rw [h.length_writtenFields hfits]
  cases hmax : (bd.present struct).max? with
  | none => rfl
  | some m =>
    rw [Option.map_some, Option.getD_some, Option.map_some, Option.getD_some]
    omega

end Opened

namespace FollowsObjects

theorem objectSize_eq (h : bd.FollowsObjects struct o) (hfits : bd.Fits struct) :
    o.objectOffset - o.objectEnd = 4 + Layout.total ((bd.present struct).map bd.plan.widthAt) +
      bd.firstPadding struct o.objectEnd bd.plan.commit +
      Layout.padding (Layout.total ((bd.present struct).map bd.plan.widthAt)) 4 := by
  have hoffset := h.opened.offset_eq_total
  have hfour : 4 ∣ o.objectEnd + bd.firstPadding struct o.objectEnd bd.plan.commit := by
    apply Nat.dvd_add h.dvd_objectEnd
    rcases firstPadding_cases hfits h.dvd_objectEnd with hfirst | ⟨hfirst, -⟩
    · omega
    · omega
  have hlast := Layout.padding_add_of_dvd
    (Layout.total ((bd.present struct).map bd.plan.widthAt)) hfour
  rw [← hoffset] at hlast
  unfold Builder.objectOffset
  omega

theorem objectSize_lt (h : bd.FollowsObjects struct o) (hfits : bd.Fits struct)
    (hsize : bd.plan.layout.size ≤ 65524) : o.objectOffset - o.objectEnd < 0x10000 := by
  have hused : Layout.total ((bd.present struct).map bd.plan.widthAt) ≤ bd.plan.layout.size :=
    used_commit_le hfits
  have hlast := Layout.dvd_add_padding
    (Layout.total ((bd.present struct).map bd.plan.widthAt)) (show 0 < 4 by decide)
  have hlt := Layout.padding_lt
    (Layout.total ((bd.present struct).map bd.plan.widthAt)) (show 0 < 4 by decide)
  have hfirst : bd.firstPadding struct o.objectEnd bd.plan.commit ≤ 4 := by
    rcases firstPadding_cases hfits h.dvd_objectEnd with hfirst | ⟨hfirst, -⟩
    · omega
    · omega
  rw [h.objectSize_eq hfits]
  omega

theorem isPacked (h : bd.FollowsObjects struct o) (hfinished : Finished o b')
    (hfits : bd.Fits struct) (hsize : bd.plan.layout.size ≤ 65528)
    (hreader : Reader.ofBytes b'.written.toArray = finishedReader o b') (stored : Nat → Nat)
    (hstored : (o.objectOffset - o.objectEnd) % 0x10000 = stored (o.objectOffset - o.objectEnd)) :
    bd.IsPacked struct b'.written.toArray stored where
  adjacent := fun is i j js hpresent => h.opened.adjacent hfinished hfits hsize hreader hpresent
  objectSize := by
    refine ⟨_, _, firstPadding_cases hfits h.dvd_objectEnd,
      Layout.padding_lt _ (show 0 < 4 by decide),
      Layout.dvd_add_padding _ (show 0 < 4 by decide), ?_⟩
    rw [← h.objectSize_eq hfits, ← hstored, hreader]
    exact hfinished.load?_objectSize
  vtableSize := by
    rw [hreader, ← h.opened.vtableSize_eq hfits]
    apply hfinished.load?_vtableSize
    rw [h.opened.size_eq]
    exact hfits.wellFormed.size_le
  vtableSize_le := by
    have hlength := o.length_writtenFields_le
    rw [h.opened.size_eq] at hlength
    rw [← h.opened.vtableSize_eq hfits]
    unfold Plan.vtableSize Layout.metadataSize Layout.slotSize
    omega

theorem not_isPacked (h : bd.FollowsObjects struct o) (hfinished : Finished o b')
    (hfits : bd.Fits struct)
    (hreader : Reader.ofBytes b'.written.toArray = finishedReader o b')
    (hlarge : 0x10000 ≤ o.objectOffset - o.objectEnd) :
    ¬bd.IsPacked struct b'.written.toArray id := by
  intro hpacked
  obtain ⟨first, last, hfirst, -, -, hload⟩ := hpacked.objectSize
  rw [hreader, hfinished.load?_objectSize, Option.some.injEq] at hload
  have hsize := h.objectSize_eq hfits
  have hpadding := Layout.padding_lt
    (Layout.total ((bd.present struct).map bd.plan.widthAt)) (show 0 < 4 by decide)
  have hlt := Nat.mod_lt (o.objectOffset - o.objectEnd) (show 0 < 0x10000 by decide)
  dsimp only [id] at hload
  rcases firstPadding_cases hfits h.dvd_objectEnd with hpad | ⟨hpad, -⟩
  · omega
  · omega

end FollowsObjects

theorem exists_openTable {p : Plan} (hp : p.WellFormed) (hbound : Bound p bd)
    (hstruct : bd.isStruct struct = true) (hgrowth : bd.flatten struct b ≠ .error .tooLarge) :
    ∃ o b', bd.openTable struct b = .ok o ∧ bd.flatten struct b = .ok b' ∧
      b'.finishedBytes = .ok b'.written ∧ Finished o b' ∧
      Reader.ofBytes b'.written.toArray = finishedReader o b' := by
  obtain ⟨b', -, -, hflatten, hbytes, -⟩ := exists_finished hp hbound hstruct hgrowth
  have hbind := hflatten
  rw [flatten_eq] at hbind
  obtain ⟨o, hopen, -⟩ := exists_of_bind_eq_ok hbind
  obtain ⟨base, -, hfinished, hreader⟩ := exists_opened hp hbound hstruct hopen hflatten
  exact ⟨o, b', hopen, hflatten, hbytes, hfinished, hreader⟩

end Binding

theorem Plan.WellFormed.widthAt_of_head {p : Plan} (hp : p.WellFormed) {i k : Nat}
    (hi : p.commit.head? = some i) (hk : k < p.fields.size) (hwidth : p.widthAt k = 8) :
    p.widthAt i = 8 := by
  obtain ⟨js, hcommit⟩ := List.head?_eq_some_iff.1 hi
  obtain ⟨front, back, hsplit⟩ := List.append_of_mem (hp.mem_commit.2 hk)
  have hdvd := Plan.widthAt_dvd_align hp hsplit
  rw [hp.layout_align_of_cons hcommit, hwidth] at hdvd
  exact Nat.dvd_antisymm (hp.widthAt_dvd (hp.mem_commit.1 (List.mem_of_head? hi))) hdvd

/--
A record of a sequence, whose object ends in the middle of a wide field, a short field that fills up
the table, and wide fields.
-/
def tallRecord (count : Nat) : Record where
  name := "Tall"
  fields := ⟨"b", "list<u8>"⟩ :: ⟨"c", "u32"⟩ :: (wideRecord count).fields

def tallTypes (count : Nat) : List FieldType :=
  .sequence (.ofScalar .u8) :: .ofScalar .u32 :: List.replicate count (.ofScalar .u64)

theorem head?_of_mem_wideRecord {count : Nat} {name : String}
    (h : name ∈ (wideRecord count).fields.map (·.name)) : name.toList.head? = some 'a' := by
  unfold wideRecord at h
  rw [List.map_map] at h
  obtain ⟨n, -, rfl⟩ := List.mem_map.1 h
  dsimp only [Function.comp_apply]
  rw [String.toList_ofList]
  rfl

theorem head?_of_mem_exported_wideRecord {count : Nat} {name : String}
    (h : name ∈ ((wideRecord count).fields.map (·.name)).map Naming.exported) :
    name.toList.head? = some 'A' := by
  unfold wideRecord at h
  rw [List.map_map, List.map_map] at h
  obtain ⟨n, -, rfl⟩ := List.mem_map.1 h
  dsimp only [Function.comp_apply]
  rw [exported_replicate, String.toList_ofList]
  rfl

theorem nodup_cons_cons {first second : String} {names : List String} {c : Char}
    (hnodup : names.Nodup) (hnames : ∀ name ∈ names, name.toList.head? = some c)
    (hne : first ≠ second) (hfirst : first.toList.head? ≠ some c)
    (hsecond : second.toList.head? ≠ some c) : (first :: second :: names).Nodup := by
  rw [List.nodup_cons, List.nodup_cons, List.mem_cons]
  refine ⟨?_, fun hmem => hsecond (hnames _ hmem), hnodup⟩
  rintro (heq | hmem)
  · exact hne heq
  · exact hfirst (hnames _ hmem)

theorem assemble_tallRecord {count : Nat} (h : count + 2 ≤ Layout.maxFields) :
    ∃ p, assemble (tallRecord count) = .ok p ∧
      p.fields.toList.map (·.name) = (tallRecord count).fields.map (·.name) ∧
      p.fields.toList.map (·.type) = tallTypes count := by
  have hlength : (tallRecord count).fields.length = count + 2 :=
    congrArg (· + 2) (length_wideRecord count)
  have hassemble : assemble (tallRecord count) = .ok (Plan.ofFields (tallRecord count).name
      (fieldsFrom 0 (tallRecord count).fields (tallTypes count))) := by
    apply assemble_eq_ok
    · show Naming.isIdentifier "Tall" = true
      decide
    · rw [hlength]
      exact h
    · intro d hd
      rcases List.mem_cons.1 hd with rfl | hd
      · decide
      · rcases List.mem_cons.1 hd with rfl | hd
        · decide
        · exact isIdentifier_wideRecord count d hd
    · exact nodup_cons_cons (nodup_wideRecord count) (fun _ => head?_of_mem_wideRecord) (by decide)
        (by decide) (by decide)
    · have hsequence : typeOfText "list<u8>" = .ok (.sequence (.ofScalar .u8)) :=
        typeOfText_name (t := .sequence (.ofScalar .u8)) (by decide)
      have hscalar : typeOfText "u32" = .ok (.ofScalar .u32) :=
        typeOfText_name (t := .ofScalar .u32) (by decide)
      unfold tallRecord tallTypes
      rw [List.map_cons, List.map_cons, List.map_cons, List.map_cons, typeOfText_wideRecord,
        hsequence, hscalar]
  refine ⟨_, hassemble, ?_⟩
  apply map_fieldsFrom
  rw [hlength]
  unfold tallTypes
  simp

theorem nodup_exported_tallRecord (count : Nat) :
    (((tallRecord count).fields.map (·.name)).map Naming.exported).Nodup :=
  nodup_cons_cons (nodup_exported_wideRecord count) (fun _ => head?_of_mem_exported_wideRecord)
    (by decide) (by decide) (by decide)

theorem layout_size_of_tall {count : Nat} {p : Plan} (hp : p.WellFormed)
    (htypes : p.fields.toList.map (·.type) = tallTypes count) : p.layout.size = 8 * (count + 1) := by
  have hwidths : (tallTypes count).map FieldType.width = 4 :: 4 :: List.replicate count 8 := by
    unfold tallTypes
    rw [List.map_cons, List.map_cons, List.map_replicate]
    rfl
  rw [hp.layout_size_eq_total, htypes, hwidths, Layout.total_cons, Layout.total_cons,
    Layout.total_replicate]
  omega

theorem indirect_of_tall {count : Nat} {p : Plan} (hp : p.WellFormed)
    (htypes : p.fields.toList.map (·.type) = tallTypes count) : p.indirect = [0] := by
  have hrest : ((List.replicate count (FieldType.ofScalar .u64)).zipIdx 2).filter
      (·.1.isIndirect) = [] := by
    rw [List.filter_eq_nil_iff]
    rintro ⟨t, i⟩ hmem
    rw [List.eq_of_mem_replicate (List.fst_mem_of_mem_zipIdx hmem)]
    decide
  rw [hp.indirect_eq, htypes]
  unfold tallTypes
  rw [List.zipIdx_cons, List.zipIdx_cons, List.filter_cons_of_pos (by decide),
    List.filter_cons_of_neg (by decide), hrest]
  rfl

namespace Binding

theorem objectEnd_of_tall {count : Nat} {p : Plan} {bd : Binding} {o : Builder}
    (hp : p.WellFormed) (hbound : Bound p bd)
    (htypes : p.fields.toList.map (·.type) = tallTypes count)
    (hopen : bd.openTable bd.full (Builder.new 0) = .ok o) : o.objectEnd = 4 := by
  have hbuild : ∀ made, (FieldType.sequence (.ofScalar .u8)).build
      (FieldType.sequence (.ofScalar .u8)).unset.filled (Builder.new 0).reset = .ok made →
      made.1.offset = 4 := by
    intro made hmade
    have hoffset : ((FieldType.sequence (.ofScalar .u8)).build
      (FieldType.sequence (.ofScalar .u8)).unset.filled (Builder.new 0).reset).toOption.map
      (·.1.offset) = some 4 := by decide
    rw [hmade] at hoffset
    exact Option.some.inj hoffset
  have hfirst := congrArg (·[0]?) htypes
  simp only [Plan.WellFormed.getElem?_types] at hfirst
  obtain ⟨f, hf, htype⟩ := Option.map_eq_some_iff.1 hfirst
  obtain ⟨b₀, offs, hobjects, hend⟩ :=
    objectEnd_of_openTable (hbound.fits hp bd.isStruct_full) hopen
  have hvalue := hbound.value_full hf
  obtain rfl := hbound.plan
  unfold buildObjects at hobjects
  rw [indirect_of_tall hp htypes, List.foldlM_cons] at hobjects
  obtain ⟨state, hstep, hstate⟩ := exists_of_bind_eq_ok hobjects
  cases hstate
  unfold buildObjects.step at hstep
  simp only [hf, hvalue, htype] at hstep
  obtain ⟨made, hmade, hstate⟩ := exists_of_bind_eq_ok hstep
  cases hstate
  rw [hend]
  exact hbuild made hmade

theorem present_full {p : Plan} {bd : Binding} (hp : p.WellFormed) (hbound : Bound p bd) :
    bd.present bd.full = bd.plan.commit := by
  obtain rfl := hbound.plan
  apply List.filter_eq_self.2
  intro i hi
  exact hbound.presentAt_full hp (Array.getElem?_eq_getElem (hp.mem_commit.1 hi))

theorem firstPadding_of_tall {count : Nat} {p : Plan} {bd : Binding} (hp : p.WellFormed)
    (hbound : Bound p bd) (htypes : p.fields.toList.map (·.type) = tallTypes (count + 1)) :
    bd.firstPadding bd.full 4 bd.plan.commit = 4 := by
  have hpresent : bd.plan.commit.filter (bd.presentAt bd.full) = bd.plan.commit :=
    present_full hp hbound
  obtain rfl := hbound.plan
  have hwide : bd.plan.widthAt 2 = 8 := by
    rw [Plan.WellFormed.widthAt_eq_widthAt_types, htypes]
    rfl
  have hsize : 2 < bd.plan.fields.size := by
    have hlength := congrArg List.length htypes
    unfold tallTypes at hlength
    rw [List.length_map, Array.length_toList, List.length_cons, List.length_cons,
      List.length_replicate] at hlength
    omega
  unfold firstPadding
  rw [hpresent]
  cases hhead : bd.plan.commit.head? with
  | none =>
    rw [List.head?_eq_none_iff] at hhead
    have hmem := hp.mem_commit.2 hsize
    rw [hhead] at hmem
    contradiction
  | some i =>
    rw [Option.map_some, Option.getD_some, hp.widthAt_of_head hhead hsize hwide]
    rfl

theorem flatten_isPacked {r : Record} {p : Plan} {type : Option HostType} {bd : Binding}
    (hp : assemble r = .ok p) (hsize : p.layout.size ≤ 65528)
    (hbd : Binding.ofPlan (some p) type = .ok bd) {struct : Array Value}
    (hstruct : bd.isStruct struct = true) (b : Builder)
    (hgrowth : bd.flatten struct b ≠ .error .tooLarge) :
    ∃ b' bytes, bd.flatten struct b = .ok b' ∧ b'.finishedBytes = .ok bytes ∧
      bd.IsPacked struct bytes.toArray (· % 0x10000) ∧
      (p.layout.size ≤ 65524 → bd.IsPacked struct bytes.toArray id) := by
  have hwellFormed := wellFormed_of_assemble hp
  have hbound := bound_of_ofPlan hbd
  have hfits := hbound.fits hwellFormed hstruct
  obtain ⟨o, b', hopen, hflatten, hbytes, hfinished, hreader⟩ :=
    exists_openTable hwellFormed hbound hstruct hgrowth
  have hfollows := followsObjects_of_openTable hfits hopen
  rw [← hbound.plan] at hsize ⊢
  refine ⟨b', b'.written, hflatten, hbytes, ?_, ?_⟩
  · exact hfollows.isPacked hfinished hfits hsize hreader _ rfl
  · intro hroom
    apply hfollows.isPacked hfinished hfits hsize hreader
    exact Nat.mod_eq_of_lt (hfollows.objectSize_lt hfits hroom)

theorem not_isPacked_tallRecord :
    ∃ p bd b' bytes, assemble (tallRecord 8190) = .ok p ∧ p.layout.size = 65528 ∧
      Binding.dynamic p = .ok bd ∧ bd.isStruct bd.full = true ∧
      bd.flatten bd.full (Builder.new 0) = .ok b' ∧ b'.finishedBytes = .ok bytes ∧
      bd.IsPacked bd.full bytes.toArray (· % 0x10000) ∧ ¬bd.IsPacked bd.full bytes.toArray id := by
  obtain ⟨p, hp, hnames, htypes⟩ := assemble_tallRecord (show 8190 + 2 ≤ Layout.maxFields by decide)
  obtain ⟨bd, hbd⟩ := exists_dynamic_of_names hp hnames (nodup_exported_tallRecord 8190)
  obtain ⟨type, htype⟩ := exists_ofPlan_of_dynamic hbd
  have hwellFormed := wellFormed_of_assemble hp
  have hbound := bound_of_ofPlan htype
  have hfits := hbound.fits hwellFormed bd.isStruct_full
  have hsize : p.layout.size = 65528 := layout_size_of_tall hwellFormed htypes
  have hgrowth := flatten_full_ne_tooLarge hfits (Builder.new 0)
  obtain ⟨b', bytes, hflatten, hbytes, hpacked, -⟩ := flatten_isPacked hp (by omega) htype
    bd.isStruct_full (Builder.new 0) hgrowth
  refine ⟨p, bd, b', bytes, hp, hsize, hbd, bd.isStruct_full, hflatten, hbytes, hpacked, ?_⟩
  obtain ⟨o, b'', hopen, hflatten', hbytes', hfinished, hreader⟩ :=
    exists_openTable hwellFormed hbound bd.isStruct_full hgrowth
  rw [hflatten] at hflatten'
  cases hflatten'
  rw [hbytes] at hbytes'
  cases hbytes'
  have hfollows := followsObjects_of_openTable hfits hopen
  have htotal : Layout.total ((bd.present bd.full).map bd.plan.widthAt) = 65528 := by
    rw [present_full hwellFormed hbound, ← hfits.wellFormed.layout_size, hbound.plan, hsize]
  apply hfollows.not_isPacked hfinished hfits hreader
  rw [hfollows.objectSize_eq hfits, objectEnd_of_tall hwellFormed hbound htypes hopen,
    firstPadding_of_tall hwellFormed hbound htypes, htotal]
  decide

end Binding

end RecordCodec
