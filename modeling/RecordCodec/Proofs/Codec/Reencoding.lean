import RecordCodec.Proofs.Codec.RoundTrip

/-!
This module contains the values that come out of buffers. Whatever the buffer has, they are
canonical, and a struct of them can be written and read again without a change but for the sign of
its zeros.
-/

namespace RecordCodec

open RecordCodec.Table

def Scalar.isNegativeZero (s : Scalar) (bits : Nat) : Bool :=
  match s with
  | f32 => bits == 0x80000000
  | f64 => bits == 0x8000000000000000
  | _ => false

theorem Scalar.canonical_of_isValidChar {s : Scalar} {x : Nat} (h : s = char → x.isValidChar) :
    s.canonical x = if s.isNegativeZero x then 0 else x := by
  unfold canonical isNegativeZero
  cases s with
  | f32 => simp only [beq_iff_eq]
  | f64 => simp only [beq_iff_eq]
  | char => simp [h rfl]
  | _ => rfl

namespace Table.Reader

variable {r : Reader} {slot : UInt16}

theorem isValidChar_of_lookupChar? {x : Nat} (h : r.lookupChar? slot = some x) :
    x.isValidChar := by
  have hcode := (Option.filter_eq_some_iff.1 h).2
  rw [isCodePoint_eq] at hcode
  exact of_decide_eq_true hcode

theorem isValidChar_of_codePoints? {xs : List Nat} (h : r.codePoints? slot = some xs) :
    ∀ x ∈ xs, x.isValidChar := by
  obtain ⟨codes, -, rfl⟩ := Option.map_eq_some_iff.1 h
  intro x hx
  have hcode := (List.mem_filter.1 hx).2
  rw [isCodePoint_eq] at hcode
  exact of_decide_eq_true hcode

theorem isValidUTF8_of_text? {s : List UInt8} (h : r.text? slot = some s) :
    s.toByteArray.IsValidUTF8 := by
  unfold text? at h
  rw [Option.bind_eq_bind, Option.bind_eq_some_iff] at h
  obtain ⟨⟨data, count⟩, -, h⟩ := h
  exact Text.isUtf8_iff.1 (Option.filter_eq_some_iff.1 h).2

theorem isValidUTF8_of_strings? {ss : List (List UInt8)} (h : r.strings? slot = some ss) :
    ∀ s ∈ ss, s.toByteArray.IsValidUTF8 := by
  unfold strings? at h
  rw [Option.bind_eq_bind, Option.bind_eq_some_iff] at h
  obtain ⟨⟨base, count⟩, -, h⟩ := h
  obtain ⟨-, helems⟩ := getElem?_of_mapM_range_eq_some h
  intro s hs
  obtain ⟨i, hi⟩ := List.getElem?_of_mem hs
  obtain ⟨⟨data, length⟩, -, helem⟩ := Option.bind_eq_some_iff.1 (helems i s hi)
  cases helem
  split
  · next hutf8 => exact Text.isUtf8_iff.1 hutf8
  · decide

end Table.Reader

namespace FieldType

def IsCanonical (t : FieldType) (v : Value) : Prop :=
  match v with
  | .scalar x => t.scalar = .char → x.isValidChar
  | .text s => s.toByteArray.IsValidUTF8
  | .sequence xs => ∃ elems, xs = some elems ∧ (t.scalar = .char → ∀ x ∈ elems, x.isValidChar)
  | .texts ss => ∃ elems, ss = some elems ∧ ∀ s ∈ elems, s.toByteArray.IsValidUTF8
  | .optional x => t.scalar = .char → ∀ y ∈ x, y.isValidChar
  | .optionalText s => ∀ y ∈ s, y.toByteArray.IsValidUTF8
  | .other => False

def isNegativeZero (t : FieldType) (v : Value) : Bool :=
  match v with
  | .scalar x => t.scalar.isNegativeZero x
  | _ => false

variable {t : FieldType} {r : Reader} {slot : UInt16} {v : Value}

theorem isCanonical_default (t : FieldType) : t.IsCanonical t.default := by
  have hempty : (List.toByteArray []).IsValidUTF8 := by decide
  unfold default
  split
  · exact hempty
  · split
    · exact ⟨[], rfl, by simp⟩
    · exact ⟨[], rfl, by simp⟩
  · split
    · exact nofun
    · exact nofun
  · intro _
    decide

theorem ne_char_of_decodeStrategy
    (h : t.decodeStrategy ∈ [.scalar, .scalarOptional, .sequence, .signedBytes]) :
    t.scalar ≠ .char := by
  intro hchar
  unfold decodeStrategy at h
  rw [hchar] at h
  cases hshape : t.shape with
  | _ =>
    cases htext : t.text with
    | _ => simp [hshape, htext] at h

theorem isCanonical_of_found? (h : t.found? r slot = some v) : t.IsCanonical v := by
  have hnot := @ne_char_of_decodeStrategy t
  unfold found? at h
  cases hstrategy : t.decodeStrategy with
  | scalar =>
    rw [hstrategy] at h hnot
    obtain ⟨x, -, rfl⟩ := Option.map_eq_some_iff.1 h
    exact fun hchar => absurd hchar (hnot (by decide))
  | scalarOptional =>
    rw [hstrategy] at h hnot
    obtain ⟨x, -, rfl⟩ := Option.map_eq_some_iff.1 h
    exact fun hchar => absurd hchar (hnot (by decide))
  | char =>
    rw [hstrategy] at h
    obtain ⟨x, hx, rfl⟩ := Option.map_eq_some_iff.1 h
    exact fun _ => Reader.isValidChar_of_lookupChar? hx
  | charOptional =>
    rw [hstrategy] at h
    obtain ⟨x, hx, rfl⟩ := Option.map_eq_some_iff.1 h
    rintro - y ⟨⟩
    exact Reader.isValidChar_of_lookupChar? hx
  | text =>
    rw [hstrategy] at h
    obtain ⟨s, hs, rfl⟩ := Option.map_eq_some_iff.1 h
    exact Reader.isValidUTF8_of_text? hs
  | textOptional =>
    rw [hstrategy] at h
    obtain ⟨s, hs, rfl⟩ := Option.map_eq_some_iff.1 h
    rintro y ⟨⟩
    exact Reader.isValidUTF8_of_text? hs
  | sequence =>
    rw [hstrategy] at h hnot
    obtain ⟨xs, -, rfl⟩ := Option.map_eq_some_iff.1 h
    exact ⟨xs, rfl, fun hchar => absurd hchar (hnot (by decide))⟩
  | signedBytes =>
    rw [hstrategy] at h hnot
    obtain ⟨xs, -, rfl⟩ := Option.map_eq_some_iff.1 h
    exact ⟨xs, rfl, fun hchar => absurd hchar (hnot (by decide))⟩
  | charSequence =>
    rw [hstrategy] at h
    obtain ⟨xs, hxs, rfl⟩ := Option.map_eq_some_iff.1 h
    exact ⟨xs, rfl, fun _ => Reader.isValidChar_of_codePoints? hxs⟩
  | textSequence =>
    rw [hstrategy] at h
    obtain ⟨ss, hss, rfl⟩ := Option.map_eq_some_iff.1 h
    exact ⟨ss, rfl, Reader.isValidUTF8_of_strings? hss⟩

theorem filter_eq_self {q : α → Bool} {x : Option α} (h : ∀ a ∈ x, q a = true) :
    x.filter q = x := by
  cases x with
  | none => rfl
  | some a => rw [Option.filter_some, if_pos (h a rfl)]

theorem canonical_of_isCanonical (h : t.IsCanonical v) :
    t.canonical v = if t.isNegativeZero v then .scalar 0 else v := by
  cases v with
  | scalar x =>
    unfold canonical isNegativeZero
    dsimp only
    rw [Scalar.canonical_of_isValidChar h]
    split <;> rfl
  | text s => exact congrArg Value.text (if_pos h)
  | sequence xs =>
    obtain ⟨elems, rfl, hchar⟩ := h
    have helems : (if t.scalar = .char then elems.filter (·.isValidChar) else elems) = elems := by
      split
      · next hscalar => exact List.filter_eq_self.2 fun x hx => decide_eq_true (hchar hscalar x hx)
      · rfl
    exact congrArg (Value.sequence ∘ some) helems
  | texts ss =>
    obtain ⟨elems, rfl, hutf8⟩ := h
    have helems : elems.map canonicalText = elems := by
      calc elems.map canonicalText
        _ = elems.map id := List.map_congr_left fun s hs => if_pos (hutf8 s hs)
        _ = elems := List.map_id elems
    exact congrArg (Value.texts ∘ some) helems
  | optional x =>
    have helem : (if t.scalar = .char then x.filter (·.isValidChar) else x) = x := by
      split
      · next hscalar => exact filter_eq_self fun y hy => decide_eq_true (h hscalar y hy)
      · rfl
    exact congrArg Value.optional helem
  | optionalText s =>
    have helem : s.filter (·.toByteArray.IsValidUTF8) = s :=
      filter_eq_self fun y hy => decide_eq_true (h y hy)
    exact congrArg Value.optionalText helem
  | other => exact h.elim

end FieldType

namespace Binding

theorem Bound.isCanonical_inflate {p : Plan} {bd : Binding} (h : Bound p bd) (hp : p.WellFormed)
    (hseparate : bd.IsSeparate) (bytes : Array UInt8) {i : Nat} {f : Field}
    (hf : p.fields[i]? = some f) : f.type.IsCanonical (bd.value (bd.inflate bytes) i) := by
  rw [h.value_inflate hp hseparate bytes hf,
    FieldType.read_eq (FieldType.holds_default (hp.isKnown hf))]
  cases hfound : f.type.found? (Reader.ofBytes bytes) f.slot with
  | none => exact f.type.isCanonical_default
  | some v => exact FieldType.isCanonical_of_found? hfound

theorem inflated_survives_flatten {record : Record} {p : Plan} {type : Option HostType}
    {bd : Binding} (hp : assemble record = .ok p) (hbd : ofPlan (some p) type = .ok bd)
    (hseparate : bd.IsSeparate) (bytes : Array UInt8) :
    bd.isStruct (bd.inflate bytes) = true ∧
    (∀ (i : Nat) f, p.fields[i]? = some f →
      f.type.IsCanonical (bd.value (bd.inflate bytes) i)) ∧
    (p.layout.size ≤ 65528 → ∀ b, bd.flatten (bd.inflate bytes) b ≠ .error .tooLarge →
      ∃ b' again, bd.flatten (bd.inflate bytes) b = .ok b' ∧ b'.finishedBytes = .ok again ∧
        bd.isStruct (bd.inflate again.toArray) = true ∧
        (∀ (i : Nat) f, p.fields[i]? = some f → bd.value (bd.inflate again.toArray) i =
          if f.type.isNegativeZero (bd.value (bd.inflate bytes) i) then .scalar 0
          else bd.value (bd.inflate bytes) i) ∧
        ∀ j, bd.IsFree j → (bd.inflate again.toArray)[j]? = (bd.inflate bytes)[j]?) := by
  have hwellFormed := wellFormed_of_assemble hp
  have hbound := bound_of_ofPlan hbd
  have hfilling := hbound.filling_inflate hwellFormed hseparate
  have hcanonical : ∀ (i : Nat) f, p.fields[i]? = some f →
      f.type.IsCanonical (bd.value (bd.inflate bytes) i) :=
    fun i f hf => hbound.isCanonical_inflate hwellFormed hseparate bytes hf
  refine ⟨(hfilling bytes).isStruct, hcanonical, ?_⟩
  intro hsize b hgrowth
  obtain ⟨b', again, hflatten, hbytes, hread, -⟩ :=
    hbound.exists_decodable hwellFormed hsize (hfilling bytes).isStruct hgrowth
  refine ⟨b', again, hflatten, hbytes, (hfilling _).isStruct, ?_, ?_⟩
  · intro i f hf
    rw [hbound.value_inflate hwellFormed hseparate _ hf, hread i f hf]
    exact FieldType.canonical_of_isCanonical (hcanonical i f hf)
  · intro j hj
    rw [(hfilling _).rest j hj, (hfilling bytes).rest j hj]

def probeRecord : Record where
  name := "Probe"
  fields := [⟨"ratio", "f64"⟩, ⟨"mark", "char"⟩, ⟨"title", "string"⟩, ⟨"words", "list<string>"⟩,
    ⟨"marks", "list<char>"⟩, ⟨"note", "option<string>"⟩]

def probePlan : Plan :=
  Plan.ofFields probeRecord.name (fieldsFrom 0 probeRecord.fields
    [.ofScalar .f64, .ofScalar .char, .ofText, .sequence .ofText, .sequence (.ofScalar .char),
      .optional .ofText])

theorem assemble_probeRecord : assemble probeRecord = .ok probePlan :=
  assemble_of_names (by decide)

def probeBuffer : Array UInt8 :=
  #[20, 0, 0, 0,
    -- the vtable
    16, 0, 32, 0, 24, 0, 4, 0, 8, 0, 12, 0, 16, 0, 20, 0,
    -- the table
    16, 0, 0, 0, 0, 0xd8, 0, 0, 36, 0, 0, 0, 20, 0, 0, 0, 44, 0, 0, 0, 24, 0, 0, 0,
    0, 0, 0, 0, 0, 0, 0, 0x80,
    -- the vector of texts, and the texts
    2, 0, 0, 0, 16, 0, 0, 0, 4, 0, 0, 0,
    1, 0, 0, 0, 0xff, 0, 0, 0, 1, 0, 0, 0, 0x61, 0, 0, 0,
    -- the vector of characters
    2, 0, 0, 0, 0x61, 0, 0, 0, 0xff, 0xdf, 0, 0]

def probe : Array Value :=
  #[.scalar 0x8000000000000000, .scalar 0, .text [], .texts (some [[0x61], []]),
    .sequence (some [0x61]), .optionalText none]

theorem inflated_survives_flatten_probe :
    ∃ bd, Binding.dynamic probePlan = .ok bd ∧ bd.inflate probeBuffer = probe ∧
      ∃ b' again, bd.flatten (bd.inflate probeBuffer) (Builder.new 0) = .ok b' ∧
        b'.finishedBytes = .ok again ∧ bd.value (bd.inflate again.toArray) 0 = .scalar 0 ∧
        bd.value (bd.inflate again.toArray) 3 = .texts (some [[0x61], []]) := by
  have hp := wellFormed_of_assemble assemble_probeRecord
  obtain ⟨bd, hbd⟩ : ∃ bd, Binding.dynamic probePlan = .ok bd := exists_dynamic hp (by decide)
  have hdynamic := isDynamic_of_dynamic hp hbd
  obtain ⟨type, htype⟩ := exists_ofPlan_of_dynamic hbd
  have hinflate : bd.inflate probeBuffer = probe := by
    rw [hdynamic.inflate_eq hp]
    decide +kernel
  obtain ⟨hstruct, -, hagain⟩ := inflated_survives_flatten assemble_probeRecord htype
    hdynamic.isSeparate probeBuffer
  have hgrowth : bd.flatten (bd.inflate probeBuffer) (Builder.new 0) ≠ .error .tooLarge := by
    apply flatten_ne_tooLarge (hdynamic.bound.fits hp hstruct)
    rw [hinflate]
    decide
  obtain ⟨b', again, hflatten, hbytes, -, hvalues, -⟩ := hagain (by decide) _ hgrowth
  refine ⟨bd, hbd, hinflate, b', again, hflatten, hbytes, ?_, ?_⟩
  · rw [hvalues 0 _ rfl, hdynamic.value_eq (by decide), hinflate]
    decide
  · rw [hvalues 3 _ rfl, hdynamic.value_eq (by decide), hinflate]
    decide

end Binding

end RecordCodec
