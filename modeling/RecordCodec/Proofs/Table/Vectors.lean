import RecordCodec.Proofs.Table.Writing

/-!
This module contains what the creation of vectors leaves in a buffer. `HoldsVector`, `HoldsOffset`
and `HoldsTexts` say that a vector of bytes, an offset and a vector of texts stand somewhere,
`AlignedVector` and `AlignedTexts` that they stand where their alignment allows. Nothing written
later takes that away.
-/

namespace RecordCodec.Table

def HoldsVector (w : List UInt8) (off count : Nat) (bytes : List UInt8) : Prop :=
  count < 0x80000000 ∧ StandsAt w off (leBytes 4 count ++ bytes)

def HoldsOffset (w : List UInt8) (off target : Nat) : Prop :=
  target < off ∧ off < 0x80000000 ∧ StandsAt w off (leBytes 4 (off - target))

structure HoldsTexts (w : List UInt8) (off : Nat) (texts : List (List UInt8)) : Prop where
  header : HoldsVector w off texts.length []
  fits : 4 + 4 * texts.length ≤ off
  elems : ∀ i text, texts[i]? = some text →
    ∃ target, HoldsOffset w (off - 4 - 4 * i) target ∧ HoldsVector w target text.length text

structure AlignedVector (b : Builder) (off count align : Nat) : Prop where
  header : HoldsVector b.written off count []
  dvd : 4 ∣ off
  dvd_first : align ∣ off - 4
  four_le : 4 ≤ b.minAlign
  le_minAlign : align ≤ b.minAlign

def AlignedTexts (b : Builder) (off : Nat) (texts : List (List UInt8)) : Prop :=
  ∀ (i : Nat) text, texts[i]? = some text →
    ∃ target, HoldsOffset b.written (off - 4 - 4 * i) target ∧
      AlignedVector b target text.length 1

section

variable {w : List UInt8} {off : Nat}

theorem HoldsVector.prepend {count : Nat} {bytes : List UInt8} (h : HoldsVector w off count bytes)
    (xs : List UInt8) : HoldsVector (xs ++ w) off count bytes :=
  ⟨h.1, h.2.prepend xs⟩

theorem HoldsVector.of_wrote {b b' : Builder} {align count : Nat} {bytes pad : List UInt8}
    (hcount : count < 0x80000000) (h : Wrote b b' align (leBytes 4 count ++ (bytes ++ pad))) :
    HoldsVector b'.written b'.offset count bytes := by
  rw [← List.append_assoc] at h
  exact ⟨hcount, h.standsAt_left⟩

theorem HoldsVector.le_length {count : Nat} {bytes : List UInt8}
    (h : HoldsVector w off count bytes) : off ≤ w.length :=
  h.2.le_length

theorem HoldsVector.fits {count : Nat} {bytes : List UInt8} (h : HoldsVector w off count bytes) :
    4 + bytes.length ≤ off := by
  have := h.2.length_le
  rw [List.length_append, length_leBytes] at this
  exact this

theorem HoldsOffset.prepend {target : Nat} (h : HoldsOffset w off target) (xs : List UInt8) :
    HoldsOffset (xs ++ w) off target :=
  ⟨h.1, h.2.1, h.2.2.prepend xs⟩

theorem HoldsTexts.prepend {texts : List (List UInt8)} (h : HoldsTexts w off texts)
    (xs : List UInt8) : HoldsTexts (xs ++ w) off texts where
  header := h.header.prepend xs
  fits := h.fits
  elems := by
    intro i text htext
    obtain ⟨target, hoffset, hvector⟩ := h.elems i text htext
    exact ⟨target, hoffset.prepend xs, hvector.prepend xs⟩

theorem AlignedVector.of_wrote {b b' : Builder} {align count : Nat} {bytes : List UInt8}
    (hcount : count < 0x80000000) (h : Wrote b b' (max 4 align) (leBytes 4 count ++ bytes))
    (hfour : 4 ∣ bytes.length + b.offset) (hfirst : align ∣ bytes.length + b.offset) :
    AlignedVector b' b'.offset count align := by
  have hoffset := h.offset
  rw [List.length_append, length_leBytes] at hoffset
  have hminAlign := h.minAlign
  refine ⟨⟨hcount, ?_⟩, by omega, ?_, by omega, by omega⟩
  · rw [List.append_nil]
    exact h.standsAt_left
  · have hstart : b'.offset - 4 = bytes.length + b.offset := by omega
    rw [hstart]
    exact hfirst

theorem AlignedVector.keep {b b' : Builder} {count align : Nat} (h : AlignedVector b off count align)
    (hkeeps : b.Keeps b') : AlignedVector b' off count align where
  header := by
    obtain ⟨bytes, hwritten⟩ := hkeeps.written
    rw [hwritten]
    exact h.header.prepend bytes
  dvd := h.dvd
  dvd_first := h.dvd_first
  four_le := Nat.le_trans h.four_le hkeeps.minAlign_le
  le_minAlign := Nat.le_trans h.le_minAlign hkeeps.minAlign_le

theorem AlignedTexts.keep {b b' : Builder} {texts : List (List UInt8)}
    (h : AlignedTexts b off texts) (hkeeps : b.Keeps b') : AlignedTexts b' off texts := by
  intro i text htext
  obtain ⟨target, hoffset, hvector⟩ := h i text htext
  obtain ⟨bytes, hwritten⟩ := hkeeps.written
  refine ⟨target, ?_, hvector.keep hkeeps⟩
  rw [hwritten]
  exact hoffset.prepend bytes

end

def vectorPadding (offset size align : Nat) : Nat :=
  let pad := Layout.padding (offset + size) 4
  pad + Layout.padding (offset + pad + size) align

theorem vectorPadding_lt (offset size : Nat) {align : Nat} (h : 0 < align) :
    vectorPadding offset size align < 4 + align := by
  have hfour := Layout.padding_lt (offset + size) (show 0 < 4 by decide)
  have halign := Layout.padding_lt (offset + Layout.padding (offset + size) 4 + size) h
  unfold vectorPadding
  simp only
  omega

theorem dvd_add_vectorPadding (offset size : Nat) {align : Nat} (h : align ∣ 8) :
    4 ∣ offset + size + vectorPadding offset size align ∧
      align ∣ offset + size + vectorPadding offset size align := by
  have hpos := Nat.pos_of_dvd_of_pos h (by decide)
  have hfour := Layout.dvd_add_padding (offset + size) (show 0 < 4 by decide)
  have halign := Layout.dvd_add_padding (offset + Layout.padding (offset + size) 4 + size) hpos
  have hsum : offset + size + vectorPadding offset size align =
      offset + Layout.padding (offset + size) 4 + size +
        Layout.padding (offset + Layout.padding (offset + size) 4 + size) align := by
    unfold vectorPadding
    simp only
    omega
  rw [hsum]
  refine ⟨?_, halign⟩
  have hcases : ∀ m ≤ 8, m ∣ 8 → 4 ∣ m ∨ m ∣ 4 := by decide
  rcases hcases align (Nat.le_of_dvd (by decide) h) h with hwide | hnarrow
  · exact Nat.dvd_trans hwide halign
  · have hzero : Layout.padding (offset + Layout.padding (offset + size) 4 + size) align = 0 := by
      apply Layout.padding_eq_zero
      apply Nat.dvd_trans hnarrow
      omega
    rw [hzero]
    omega

def textsCost (texts : List (List UInt8)) : Nat :=
  texts.foldr (fun text cost => text.length + 9 + cost) 0

namespace Builder

theorem requireNotNested_eq {b : Builder} (h : b.isNested = false) :
    b.requireNotNested = .ok () := by
  unfold requireNotNested
  rw [h]
  rfl

theorem requireNested_eq {b : Builder} (h : b.isNested = true) : b.requireNested = .ok () := by
  unfold requireNested
  rw [h]
  rfl

theorem startVector_reaches {b : Builder} (elemSize count : Nat) {align : Nat}
    (hb : b.isNested = false) (halign : 0 < align) :
    Reaches (b.offset + elemSize * count + 2 * align + 8) (b.startVector elemSize count align)
      fun b' =>
        Wrote { b with isNested := true } b' (max 4 align)
          (List.replicate (vectorPadding b.offset (elemSize * count) align) 0) ∧
        b'.offset + elemSize * count < 0x80000000 ∧ align ∣ b'.offset + elemSize * count := by
  unfold startVector
  rw [requireNotNested_eq hb]
  apply Reaches.ok_bind
  have hoffset : ({ b with isNested := true } : Builder).offset = b.offset := rfl
  have hfour := Layout.padding_lt (b.offset + elemSize * count) (show 0 < 4 by decide)
  apply Reaches.bind ((prep_reaches { b with isNested := true } (elemSize * count)
    (show 0 < 4 by decide)).mono (by omega) (fun _ h => h))
  rintro b₁ ⟨hwrote₁, hroom₁⟩
  have hoffset₁ := hwrote₁.offset
  rw [List.length_replicate, hoffset] at hoffset₁
  apply (b₁.prep_reaches (elemSize * count) halign).mono
  · omega
  · rintro b₂ ⟨hwrote₂, hroom₂⟩
    have hoffset₂ := hwrote₂.offset
    rw [List.length_replicate] at hoffset₂
    refine ⟨?_, by omega, ?_⟩
    · have hpad : b₁.offset + elemSize * count =
          b.offset + Layout.padding (b.offset + elemSize * count) 4 + elemSize * count := by omega
      have htrans := hwrote₁.trans hwrote₂
      rw [List.replicate_append_replicate, hoffset, hpad, Nat.add_comm (Layout.padding _ align)]
        at htrans
      exact htrans
    · have hdvd := Layout.dvd_add_padding (b₁.offset + elemSize * count) halign
      have hsum : b₂.offset + elemSize * count = b₁.offset + elemSize * count +
          Layout.padding (b₁.offset + elemSize * count) align := by omega
      rw [hsum]
      exact hdvd

theorem endVector_of_wrote {b b₁ : Builder} {align : Nat} {bytes : List UInt8} (count : Nat)
    (hb : b.isNested = false) (h : Wrote { b with isNested := true } b₁ align bytes) :
    ∃ b', b₁.endVector count = .ok (b', b'.offset) ∧
      Wrote b b' align (leBytes 4 count ++ bytes) := by
  have hnested : b₁.isNested = true := h.isNested
  have hput := h.then_put (leBytes 4 count)
  refine ⟨{ b₁.put (leBytes 4 count) with isNested := false }, ?_, ?_⟩
  · unfold endVector
    rw [requireNested_eq hnested]
    rfl
  · exact ⟨hput.written, hput.minAlign, hput.vtable, hput.objectEnd, hput.vtables, hb.symm⟩

theorem createBytes_reaches {b : Builder} (bytes : List UInt8) (hb : b.isNested = false) :
    Reaches (b.offset + bytes.length + 8) (b.createBytes bytes) fun (b', off) =>
      off = b'.offset ∧ bytes.length < 0x80000000 ∧
      Wrote b b' 4 (leBytes 4 bytes.length ++
        (bytes ++ List.replicate (Layout.padding (b.offset + bytes.length) 4) 0)) := by
  unfold createBytes
  rw [requireNotNested_eq hb]
  apply Reaches.ok_bind
  have hoffset : ({ b with isNested := true } : Builder).offset = b.offset := rfl
  apply Reaches.bind ((prep_reaches { b with isNested := true } bytes.length
    (show 0 < 4 by decide)).mono (by omega) (fun _ h => h))
  rintro b₁ ⟨hwrote, hroom⟩
  rw [hoffset] at hwrote
  obtain ⟨b', hend, hwrote'⟩ := endVector_of_wrote bytes.length hb (hwrote.then_put bytes)
  rw [hend]
  exact ⟨rfl, by omega, hwrote'⟩

theorem createString_reaches {b : Builder} (text : List UInt8) (hb : b.isNested = false) :
    Reaches (b.offset + (text.length + 9)) (b.createString text) fun (b', off) =>
      b.Extends b' ∧ b'.offset ≤ b.offset + (text.length + 9) ∧
      HoldsVector b'.written off text.length text ∧ AlignedVector b' off text.length 1 := by
  unfold createString
  rw [requireNotNested_eq hb]
  apply Reaches.ok_bind
  have hoffset : ({ b with isNested := true } : Builder).offset = b.offset := rfl
  have hpad := Layout.padding_lt (b.offset + (text.length + 1)) (show 0 < 4 by decide)
  have hdvd := Layout.dvd_add_padding (b.offset + (text.length + 1)) (show 0 < 4 by decide)
  apply Reaches.bind ((prep_reaches { b with isNested := true } (text.length + 1)
    (show 0 < 4 by decide)).mono (by omega) (fun _ h => h))
  rintro b₁ ⟨hwrote, hroom⟩
  rw [hoffset] at hwrote
  obtain ⟨b', hend, hwrote'⟩ :=
    endVector_of_wrote text.length hb ((hwrote.then_put [0]).then_put text)
  have hoffset' := hwrote'.offset
  simp only [List.length_append, length_leBytes, List.length_replicate, List.length_cons,
    List.length_nil] at hoffset'
  rw [hend]
  apply Reaches.ok
  refine ⟨hwrote'.extends (by decide), by omega, HoldsVector.of_wrote (by omega) hwrote', ?_⟩
  apply AlignedVector.of_wrote (by omega) hwrote'
  · simp only [List.length_append, List.length_replicate, List.length_cons, List.length_nil]
    omega
  · exact Nat.one_dvd _

theorem prepend_elements_reaches {b : Builder} {s : Scalar} (elems : List Nat) (hs : 0 < s.size)
    (hdvd : s.size ∣ b.offset) (halign : s.size ≤ b.minAlign) :
    Reaches (b.offset + s.size * elems.length + s.size)
      (elems.foldrM (fun x b => b.prepend s x) b) fun b' =>
        Wrote b b' 0 (elems.flatMap (leBytes s.size)) := by
  apply Reaches.foldrM (fun done b' => Wrote b b' 0 (done.flatMap (leBytes s.size)))
  · intro x done b₁ hsuffix hwrote
    have hlength := hsuffix.length_le
    rw [List.length_cons] at hlength
    have hmul := Nat.mul_le_mul_left s.size hlength
    rw [Nat.mul_add, Nat.mul_one] at hmul
    have hoffset := hwrote.offset
    rw [length_flatMap_leBytes] at hoffset
    -- every element before this one has the same width, so no padding is needed
    have hpad : Layout.padding b₁.offset s.size = 0 := by
      apply Layout.padding_eq_zero
      rw [hoffset]
      exact Nat.dvd_add (Nat.dvd_mul_right _ _) hdvd
    unfold prepend
    apply (b₁.prependNumber_reaches x hs).mono (by omega)
    rintro b₂ ⟨hwrote₂, -⟩
    rw [hpad, List.replicate_zero, List.append_nil] at hwrote₂
    rw [List.flatMap_cons]
    apply hwrote.trans (hwrote₂.of_align_le _)
    rw [hwrote.minAlign]
    omega
  · exact Wrote.refl b

theorem createElements_reaches {b : Builder} {s : Scalar} (elems : List Nat) (hs : 0 < s.size)
    (hb : b.isNested = false) :
    Reaches (b.offset + s.size * elems.length + 2 * s.size + 8) (b.createElements s elems)
      fun (b', off) =>
        off = b'.offset ∧ elems.length < 0x80000000 ∧
        Wrote b b' (max 4 s.size) (leBytes 4 elems.length ++ (elems.flatMap (leBytes s.size) ++
          List.replicate (vectorPadding b.offset (s.size * elems.length) s.size) 0)) := by
  have hpad := vectorPadding_lt b.offset (s.size * elems.length) hs
  unfold createElements
  apply Reaches.bind (startVector_reaches s.size elems.length hb hs)
  rintro b₁ ⟨hwrote₁, hroom, hdvd⟩
  have hoffset : ({ b with isNested := true } : Builder).offset = b.offset := rfl
  have hoffset₁ := hwrote₁.offset
  rw [List.length_replicate, hoffset] at hoffset₁
  have hdvd₁ : s.size ∣ b₁.offset := (Nat.dvd_add_left (Nat.dvd_mul_right _ _)).1 hdvd
  have halign : s.size ≤ b₁.minAlign := by
    rw [hwrote₁.minAlign]
    omega
  apply Reaches.bind ((prepend_elements_reaches elems hs hdvd₁ halign).mono (by omega)
    (fun _ h => h))
  intro b₂ hwrote₂
  have hwrote := hwrote₁.trans hwrote₂
  rw [Nat.max_zero] at hwrote
  obtain ⟨b', hend, hwrote'⟩ := endVector_of_wrote elems.length hb hwrote
  have hcount : elems.length ≤ s.size * elems.length := Nat.le_mul_of_pos_left _ hs
  rw [hend]
  exact ⟨rfl, by omega, hwrote'⟩

theorem createStrings_reaches {b : Builder} (texts : List (List UInt8)) (hb : b.isNested = false) :
    Reaches (b.offset + textsCost texts) (b.createStrings texts) fun (b', offs) =>
      b.Extends b' ∧ b'.offset ≤ b.offset + textsCost texts ∧ offs.length = texts.length ∧
      ∀ (i : Nat) text, texts[i]? = some text →
        ∃ off, offs[i]? = some off ∧ HoldsVector b'.written off text.length text ∧
          AlignedVector b' off text.length 1 := by
  induction texts generalizing b with
  | nil =>
    unfold createStrings
    apply Reaches.ok
    refine ⟨Extends.refl b, by simp, rfl, ?_⟩
    intro i text htext
    simp at htext
  | cons text texts ih =>
    have hcost : textsCost (text :: texts) = text.length + 9 + textsCost texts := rfl
    rw [hcost]
    unfold createStrings
    apply Reaches.bind ((createString_reaches text hb).mono (by omega) (fun _ h => h))
    rintro ⟨b₁, off⟩ ⟨hextends₁, hle₁, hvector, haligned⟩
    simp only at hle₁ ⊢
    have hb₁ : b₁.isNested = false := by rw [hextends₁.isNested, hb]
    apply Reaches.bind ((ih hb₁).mono (by omega) (fun _ h => h))
    rintro ⟨b₂, offs⟩ ⟨hextends, hle, hlen, helems⟩
    apply Reaches.pure
    dsimp only
    refine ⟨hextends₁.trans hextends, by omega, by simp [hlen], ?_⟩
    intro i text' htext'
    cases i with
    | zero =>
      cases htext'
      refine ⟨off, rfl, ?_, haligned.keep hextends.keeps⟩
      obtain ⟨bytes, hwritten⟩ := hextends.written
      rw [hwritten]
      exact hvector.prepend bytes
    | succ i => exact helems i text' htext'

structure HoldsOffsets (b b' : Builder) (offs : List Nat) : Prop where
  wrote : ∃ bytes, Wrote b b' 0 bytes
  offset : b'.offset = b.offset + 4 * offs.length
  elems : ∀ (i : Nat) off, offs[i]? = some off → HoldsOffset b'.written (b'.offset - 4 * i) off

theorem prepend_offsets_reaches {b : Builder} (offs : List Nat) (hdvd : 4 ∣ b.offset)
    (halign : 4 ≤ b.minAlign) (hoffs : ∀ off ∈ offs, off ≤ b.offset) :
    Reaches (b.offset + 4 * offs.length + 4) (offs.foldrM (fun off b => b.prependOffset off) b)
      fun b' => HoldsOffsets b b' offs := by
  apply Reaches.foldrM (fun done b' => HoldsOffsets b b' done)
  · intro off done b₁ hsuffix hdone
    have hlength := hsuffix.length_le
    rw [List.length_cons] at hlength
    obtain ⟨bytes, hwrote₁⟩ := hdone.wrote
    have hoffset := hdone.offset
    have hoff : off ≤ b.offset := hoffs off (hsuffix.subset (List.mem_cons_self ..))
    have hpad : Layout.padding b₁.offset 4 = 0 := by
      apply Layout.padding_eq_zero
      omega
    apply (b₁.prependOffset_reaches (show off ≤ b₁.offset by omega)).mono (by omega)
    rintro b₂ ⟨hwrote, hroom⟩
    rw [hpad, List.replicate_zero, List.append_nil] at hwrote
    have halign₁ : 4 ≤ b₁.minAlign := by
      rw [hwrote₁.minAlign]
      omega
    have hoffset₂ := hwrote.offset
    rw [length_leBytes] at hoffset₂
    refine ⟨⟨_, hwrote₁.trans (hwrote.of_align_le halign₁)⟩, ?_, ?_⟩
    · rw [List.length_cons]
      omega
    · intro i off' hoff'
      cases i with
      | zero =>
        cases hoff'
        rw [Nat.mul_zero, Nat.sub_zero]
        refine ⟨by omega, hroom, ?_⟩
        rw [← List.append_nil (leBytes 4 _)] at hwrote
        exact hwrote.standsAt_left
      | succ i =>
        have hholds := (hdone.elems i off' hoff').prepend (leBytes 4 (b₂.offset - off))
        have hposition : b₂.offset - 4 * (i + 1) = b₁.offset - 4 * i := by omega
        rw [hwrote.written, hposition]
        exact hholds
  · refine ⟨⟨[], Wrote.refl b⟩, rfl, ?_⟩
    intro i off hoff
    simp at hoff

theorem createStringVector_reaches {b : Builder} (texts : List (List UInt8))
    (hb : b.isNested = false) :
    Reaches (b.offset + textsCost texts + 4 * texts.length + 16) (b.createStringVector texts)
      fun (b', off) =>
        b.Extends b' ∧ b'.offset ≤ b.offset + textsCost texts + 4 * texts.length + 12 ∧
        HoldsTexts b'.written off texts ∧ AlignedVector b' off texts.length 4 ∧
        AlignedTexts b' off texts := by
  unfold createStringVector
  apply Reaches.bind ((createStrings_reaches texts hb).mono (by omega) (fun _ h => h))
  rintro ⟨b₁, offs⟩ ⟨hextends₁, hle₁, hlen, htexts⟩
  have hb₁ : b₁.isNested = false := by rw [hextends₁.isNested, hb]
  simp only at hle₁ hlen ⊢
  apply Reaches.bind ((startVector_reaches 4 offs.length hb₁ (show 0 < 4 by decide)).mono
    (by omega) (fun _ h => h))
  rintro b₂ ⟨hwrote₂, hroom, hdvd⟩
  have hpad := vectorPadding_lt b₁.offset (4 * offs.length) (show 0 < 4 by decide)
  have hoffset : ({ b₁ with isNested := true } : Builder).offset = b₁.offset := rfl
  have hoffset₂ := hwrote₂.offset
  rw [List.length_replicate, hoffset] at hoffset₂
  have halign : 4 ≤ b₂.minAlign := by
    rw [hwrote₂.minAlign]
    omega
  -- every text was written before the vector was opened
  have hoffs : ∀ off ∈ offs, off ≤ b₂.offset := by
    intro off hmem
    obtain ⟨i, hi, hget⟩ := List.getElem_of_mem hmem
    have hi' : i < texts.length := by omega
    obtain ⟨off', hoff', hholds, -⟩ := htexts i _ (List.getElem?_eq_getElem hi')
    rw [List.getElem?_eq_getElem hi, hget] at hoff'
    cases hoff'
    have := hholds.le_length
    rw [← offset_eq] at this
    omega
  apply Reaches.bind ((prepend_offsets_reaches offs (by omega) halign hoffs).mono (by omega)
    (fun _ h => h))
  intro b₃ hholds
  obtain ⟨bytes, hwrote₃⟩ := hholds.wrote
  obtain ⟨b', hend, hwrote'⟩ := endVector_of_wrote offs.length hb₁ (hwrote₂.trans hwrote₃)
  have hoffset' := hwrote'.offset
  have hoffset₃ := hholds.offset
  have hlength₃ := hwrote₃.offset
  simp only [List.length_append, length_leBytes, List.length_replicate] at hoffset'
  have hwritten : b'.written = leBytes 4 offs.length ++ b₃.written := by
    rw [hwrote'.written, hwrote₃.written, hwrote₂.written, List.append_assoc, List.append_assoc]
    rfl
  have hextends := hwrote'.extends (by decide)
  have helem : ∀ (i off : Nat), offs[i]? = some off →
      HoldsOffset b'.written (b'.offset - 4 - 4 * i) off := by
    intro i off hoff
    have hposition : b'.offset - 4 - 4 * i = b₃.offset - 4 * i := by omega
    rw [hwritten, hposition]
    exact (hholds.elems i off hoff).prepend _
  rw [hend]
  apply Reaches.ok
  dsimp only
  rw [hlen] at hwrote'
  refine ⟨hextends₁.trans hextends, by omega, ⟨⟨by omega, ?_⟩, by omega, ?_⟩, ?_, ?_⟩
  · rw [List.append_nil]
    exact hwrote'.standsAt_left
  · intro i text htext
    obtain ⟨off, hoff, hvector, -⟩ := htexts i text htext
    refine ⟨off, helem i off hoff, ?_⟩
    rw [hwrote'.written]
    exact hvector.prepend _
  · have hfour : 4 ∣ (bytes ++ List.replicate (vectorPadding b₁.offset (4 * texts.length) 4) 0).length
        + b₁.offset := by
      rw [List.length_append, List.length_replicate, ← hlen]
      omega
    exact AlignedVector.of_wrote (by omega) hwrote' hfour hfour
  · intro i text htext
    obtain ⟨off, hoff, -, haligned⟩ := htexts i text htext
    exact ⟨off, helem i off hoff, haligned.keep hextends.keeps⟩

end Builder

end RecordCodec.Table
