import RecordCodec.Codec.Literal
import RecordCodec.Proofs.Codec.Values
import RecordCodec.Proofs.Number.Reading
import RecordCodec.Proofs.Text.Parts
import RecordCodec.Proofs.Text.Trim

/-!
This module contains integers and truth values as they are entered and shown. The text of a value is
read as its bit pattern, which is shown as the text again, and the text of a number that is out of
range is refused.
-/

namespace RecordCodec

open RecordCodec.Table RecordCodec.Text RecordCodec.Number

namespace Scalar

def isSigned : Scalar → Bool
  | s8 | s16 | s32 | s64 => true
  | _ => false

def isUnsigned : Scalar → Bool
  | u8 | u16 | u32 | u64 => true
  | _ => false

def inRange (s : Scalar) (n : Int) : Bool :=
  if s.isSigned then
    decide (-(Nat.pow 2 (8 * s.size - 1) : Nat) ≤ n ∧ n < (Nat.pow 2 (8 * s.size - 1) : Nat))
  else decide (0 ≤ n ∧ n < (Nat.pow 2 (8 * s.size) : Nat))

end Scalar

inductive Atom where
  | bool (b : Bool)
  | int (n : Int)
  deriving DecidableEq, Repr

namespace Atom

def text : Atom → String
  | bool true => "true"
  | bool false => "false"
  | int n => toString n

def isOf : Atom → Scalar → Bool
  | bool _, s => s == .bool
  | int _, s => s.isSigned || s.isUnsigned

def inRange : Atom → Scalar → Bool
  | bool _, _ => true
  | int n, s => s.inRange n

def bits : Atom → Scalar → Nat
  | bool b, _ => b.toNat
  | int n, s => unsigned s.size n

end Atom

inductive Datum where
  | one (x : Atom)
  | maybe (x : Option Atom)
  | many (xs : List Atom)
  deriving DecidableEq, Repr

namespace Datum

def text : Datum → String
  | one x => x.text
  | maybe x => (x.map Atom.text).getD ""
  | many xs => ",".intercalate (xs.map Atom.text)

def shown : Datum → String
  | one x => x.text
  | maybe x => (x.map fun x => "some(" ++ x.text ++ ")").getD "none"
  | many xs => "[" ++ ", ".intercalate (xs.map Atom.text) ++ "]"

def shape : Datum → Shape
  | one _ => .scalar
  | maybe _ => .optional
  | many _ => .sequence

def atoms : Datum → List Atom
  | one x => [x]
  | maybe x => x.toList
  | many xs => xs

def isOf (d : Datum) (t : FieldType) : Bool :=
  t.shape == d.shape && !t.text && (t.scalar == .bool || t.scalar.isSigned || t.scalar.isUnsigned) &&
    d.atoms.all (·.isOf t.scalar)

def inRange (d : Datum) (t : FieldType) : Bool :=
  d.atoms.all (·.inRange t.scalar)

def value (d : Datum) (t : FieldType) : Value :=
  match d with
  | one x => .scalar (x.bits t.scalar)
  | maybe x => .optional (x.map (·.bits t.scalar))
  | many xs => .sequence (some (xs.map (·.bits t.scalar)))

end Datum

def Entry.ofText (text : String) : Entry :=
  text.toList.map .char

/-! Numbers and their bit patterns. -/

namespace Table

theorem unsigned_of_lt {width : Nat} {n : Int} (hn : 0 ≤ n)
    (hlt : n < (Nat.pow 2 (8 * width) : Nat)) : unsigned width n = n.natAbs := by
  unfold unsigned
  rw [Int.emod_eq_of_lt hn hlt]
  omega

theorem signed_unsigned {width : Nat} (hwidth : 0 < width) {n : Int}
    (hlow : -(Nat.pow 2 (8 * width - 1) : Nat) ≤ n) (hhigh : n < (Nat.pow 2 (8 * width - 1) : Nat)) :
    signed width (unsigned width n) = n := by
  have hdouble : Nat.pow 2 (8 * width) = 2 * Nat.pow 2 (8 * width - 1) := by
    obtain ⟨k, hk⟩ : ∃ k, 8 * width = k + 1 := ⟨8 * width - 1, by omega⟩
    rw [hk]
    exact Nat.pow_succ'
  by_cases hneg : n < 0
  · have hbits : unsigned width n = (n + (Nat.pow 2 (8 * width) : Nat)).toNat := by
      unfold unsigned
      rw [← Int.add_emod_right, Int.emod_eq_of_lt (by omega) (by omega)]
    unfold signed
    rw [hbits, if_neg (by omega)]
    omega
  · rw [unsigned_of_lt (by omega) (by omega)]
    unfold signed
    rw [if_pos (by omega)]
    omega

end Table

namespace Scalar

variable {s : Scalar}

theorem size_pos_of_isSigned (h : s.isSigned = true) : 0 < s.size := by
  cases s with
  | s8 | s16 | s32 | s64 => decide
  | _ => cases h

theorem read_of_isSigned (h : s.isSigned = true) (entry : Entry) :
    s.read entry = ((readSigned (8 * s.size) entry.chars).mapError (.number "ParseInt" entry)).map
      (unsigned s.size) := by
  cases s with
  | s8 | s16 | s32 | s64 => rfl
  | _ => cases h

theorem read_of_isUnsigned (h : s.isUnsigned = true) (entry : Entry) :
    s.read entry = (readUnsigned (8 * s.size) entry.chars).mapError (.number "ParseUint" entry) := by
  cases s with
  | u8 | u16 | u32 | u64 => rfl
  | _ => cases h

theorem render_of_isSigned (h : s.isSigned = true) (bits : Nat) :
    s.render bits = toString (signed s.size bits) := by
  cases s with
  | s8 | s16 | s32 | s64 => rfl
  | _ => cases h

theorem render_of_isUnsigned (h : s.isUnsigned = true) (bits : Nat) :
    s.render bits = toString bits := by
  cases s with
  | u8 | u16 | u32 | u64 => rfl
  | _ => cases h

theorem inRange_of_isSigned (h : s.isSigned = true) (n : Int) :
    s.inRange n = true ↔
      -(Nat.pow 2 (8 * s.size - 1) : Nat) ≤ n ∧ n < (Nat.pow 2 (8 * s.size - 1) : Nat) := by
  unfold inRange
  rw [if_pos h, decide_eq_true_eq]

theorem inRange_of_isUnsigned (h : s.isUnsigned = true) (n : Int) :
    s.inRange n = true ↔ 0 ≤ n ∧ n < (Nat.pow 2 (8 * s.size) : Nat) := by
  have hsigned : ¬ s.isSigned = true := by
    cases s with
    | u8 | u16 | u32 | u64 => decide
    | _ => cases h
  unfold inRange
  rw [if_neg hsigned, decide_eq_true_eq]

end Scalar

theorem Entry.chars_ofText (text : String) : (ofText text).chars = text.toList := by
  unfold chars ofText
  rw [List.map_map]
  exact List.map_id _

namespace Scalar

variable {s : Scalar}

theorem read_decimal_of_isSigned (h : s.isSigned = true) (n : Int) :
    s.read (.ofText (toString n)) =
      if s.inRange n then .ok (unsigned s.size n)
      else .error (.number "ParseInt" (.ofText (toString n)) .outOfRange) := by
  have hpos := size_pos_of_isSigned h
  rw [read_of_isSigned h, Entry.chars_ofText, readSigned_decimal (by omega)]
  simp only [inRange_of_isSigned h]
  split
  · rfl
  · rfl

theorem read_decimal_of_isUnsigned (h : s.isUnsigned = true) (n : Int) :
    s.read (.ofText (toString n)) =
      if s.inRange n then .ok (unsigned s.size n)
      else .error (.number "ParseUint" (.ofText (toString n))
        (if n < 0 then .malformed else .outOfRange)) := by
  rw [read_of_isUnsigned h, Entry.chars_ofText, toList_toString_int]
  simp only [inRange_of_isUnsigned h]
  by_cases hneg : n < 0
  · rw [if_pos hneg, if_pos hneg, readUnsigned_minus, if_neg (by omega)]
    rfl
  · rw [if_neg hneg, if_neg hneg, readUnsigned_toDigits]
    by_cases hlt : n.natAbs < Nat.pow 2 (8 * s.size)
    · rw [if_pos hlt, if_pos (by omega), unsigned_of_lt (by omega) (by omega)]
      rfl
    · rw [if_neg hlt, if_neg (by omega)]
      rfl

theorem render_unsigned (h : s.isSigned = true ∨ s.isUnsigned = true) {n : Int}
    (hn : s.inRange n = true) : s.render (unsigned s.size n) = toString n := by
  rcases h with h | h
  · rw [inRange_of_isSigned h] at hn
    rw [render_of_isSigned h, signed_unsigned (size_pos_of_isSigned h) hn.1 hn.2]
  · rw [inRange_of_isUnsigned h] at hn
    obtain ⟨m, rfl⟩ := Int.eq_ofNat_of_zero_le hn.1
    rw [render_of_isUnsigned h, unsigned_of_lt hn.1 hn.2]
    rfl

end Scalar

namespace Atom

variable {x : Atom} {s : Scalar}

theorem isSigned_or_isUnsigned {n : Int} (h : (int n).isOf s = true) :
    s.isSigned = true ∨ s.isUnsigned = true :=
  Bool.or_eq_true_iff.1 h

theorem read_ofText (h : x.isOf s = true) (hrange : x.inRange s = true) :
    s.read (.ofText x.text) = .ok (x.bits s) := by
  cases x with
  | bool b =>
    obtain rfl : s = .bool := beq_iff_eq.1 h
    cases b with
    | false => rfl
    | true => rfl
  | int n =>
    unfold inRange at hrange
    rcases isSigned_or_isUnsigned h with h | h
    · exact (Scalar.read_decimal_of_isSigned h n).trans (if_pos hrange)
    · exact (Scalar.read_decimal_of_isUnsigned h n).trans (if_pos hrange)

theorem exists_read_eq_error (h : x.isOf s = true) (hrange : x.inRange s = false) :
    ∃ e, s.read (.ofText x.text) = .error e := by
  cases x with
  | bool b => cases hrange
  | int n =>
    unfold inRange at hrange
    have hnot : ¬ s.inRange n = true := Bool.eq_false_iff.1 hrange
    rcases isSigned_or_isUnsigned h with h | h
    · exact ⟨_, (Scalar.read_decimal_of_isSigned h n).trans (if_neg hnot)⟩
    · exact ⟨_, (Scalar.read_decimal_of_isUnsigned h n).trans (if_neg hnot)⟩

theorem render_bits (h : x.isOf s = true) (hrange : x.inRange s = true) :
    s.render (x.bits s) = x.text := by
  cases x with
  | bool b =>
    obtain rfl : s = .bool := beq_iff_eq.1 h
    cases b with
    | false => rfl
    | true => rfl
  | int n => exact Scalar.render_unsigned (isSigned_or_isUnsigned h) hrange

/-! Texts of atoms have neither white space nor commas. -/

theorem printable_of_mem_text {c : Char} (h : c ∈ x.text.toList) :
    32 < c.toNat ∧ c.toNat < 127 ∧ c ≠ ',' := by
  cases x with
  | bool b =>
    have hall : (Atom.bool b).text.toList.all
        (fun c => 32 < c.toNat ∧ c.toNat < 127 ∧ c ≠ ',') = true := by
      cases b <;> decide
    exact of_decide_eq_true (List.all_eq_true.1 hall c h)
  | int n =>
    have hc : c = '-' ∨ c.isDigit = true := by
      change c ∈ (toString n).toList at h
      rw [toList_toString_int] at h
      split at h
      · rcases List.mem_cons.1 h with rfl | h
        · exact .inl rfl
        · exact .inr (isDigit_of_mem_decimal h)
      · exact .inr (isDigit_of_mem_decimal h)
    rcases hc with rfl | hdigit
    · decide
    · have hbounds := hdigit
      simp only [Char.isDigit, Bool.and_eq_true, decide_eq_true_eq, UInt32.le_iff_toNat_le] at hbounds
      have hlow : 48 ≤ c.toNat := hbounds.1
      have hhigh : c.toNat ≤ 57 := hbounds.2
      refine ⟨by omega, by omega, ?_⟩
      rintro rfl
      exact absurd hdigit (by decide)

theorem text_ne_nil (x : Atom) : x.text.toList ≠ [] := by
  cases x with
  | bool b => cases b <;> decide
  | int n =>
    show (toString n).toList ≠ []
    rw [toList_toString_int]
    split
    · exact List.cons_ne_nil _ _
    · exact Nat.toDigits_ne_nil

end Atom

/-! Entries. -/

theorem Text.isBlank_of_printable : ∀ n < 127, 32 < n → isBlank (Char.ofNat n) = false := by
  decide

theorem Text.mem_intercalate {sep x : α} {parts : List (List α)}
    (h : x ∈ [sep].intercalate parts) : x = sep ∨ ∃ part ∈ parts, x ∈ part := by
  induction parts with
  | nil => cases h
  | cons part parts ih =>
    cases parts with
    | nil =>
      rw [List.intercalate_singleton] at h
      exact .inr ⟨part, List.mem_cons_self, h⟩
    | cons next parts =>
      rw [List.intercalate_cons_cons, List.append_assoc, List.singleton_append, List.mem_append,
        List.mem_cons] at h
      rcases h with h | rfl | h
      · exact .inr ⟨part, List.mem_cons_self, h⟩
      · exact .inl rfl
      · rcases ih h with rfl | ⟨other, hother, hx⟩
        · exact .inl rfl
        · exact .inr ⟨other, List.mem_cons_of_mem part hother, hx⟩

theorem Text.splitAtAll_map {p : β → Bool} {f : α → β} (xs : List α) :
    splitAtAll p (xs.map f) = (splitAtAll (fun x => p (f x)) xs).map (List.map f) := by
  induction xs with
  | nil => rfl
  | cons x xs ih =>
    rw [List.map_cons, splitAtAll, splitAtAll, ih]
    split
    · rfl
    · cases splitAtAll (fun x => p (f x)) xs with
      | nil => rfl
      | cons part parts => rfl

namespace Entry

theorem trim_ofText {text : String} (h : ∀ c ∈ text.toList, 32 < c.toNat ∧ c.toNat < 127) :
    (ofText text).trim = ofText text := by
  have hblank : ∀ x ∈ ofText text, isBlank x = false := by
    intro x hx
    obtain ⟨c, hc, rfl⟩ := List.mem_map.1 hx
    obtain ⟨hlow, hhigh⟩ := h c hc
    have hnone := Text.isBlank_of_printable c.toNat hhigh hlow
    rwa [Char.ofNat_toNat] at hnone
  have hdrop : ∀ xs : Entry, (∀ x ∈ xs, isBlank x = false) → xs.dropWhile isBlank = xs := by
    intro xs hxs
    apply List.dropWhile_eq_self_iff.2
    intro hlength
    rw [hxs _ (List.getElem_mem hlength)]
    exact Bool.false_ne_true
  unfold trim
  rw [hdrop _ hblank, hdrop _ fun x hx => hblank x (List.mem_reverse.1 hx), List.reverse_reverse]

theorem trim_atom (x : Atom) : (ofText x.text).trim = ofText x.text := by
  apply trim_ofText
  intro c hc
  obtain ⟨hlow, hhigh, -⟩ := Atom.printable_of_mem_text hc
  exact ⟨hlow, hhigh⟩

theorem isEmpty_atom (x : Atom) : (ofText x.text).isEmpty = false := by
  rw [List.isEmpty_eq_false_iff]
  exact fun h => x.text_ne_nil (List.map_eq_nil_iff.1 h)

theorem splitAtAll_ofText {xs : List Atom} (h : xs ≠ []) :
    splitAtAll FieldType.isComma (ofText (",".intercalate (xs.map Atom.text))) =
      xs.map fun x => ofText x.text := by
  have hsplit : splitAtAll (· == ',') ([','].intercalate (xs.map fun x => x.text.toList)) =
      xs.map fun x => x.text.toList := by
    apply splitAtAll_intercalate (by simpa using h)
    intro part hpart hcomma
    obtain ⟨x, -, rfl⟩ := List.mem_map.1 hpart
    exact (Atom.printable_of_mem_text hcomma).2.2 rfl
  unfold ofText
  rw [String.toList_intercalate, List.map_map, splitAtAll_map]
  show (splitAtAll (· == ',') ([','].intercalate (xs.map fun x => x.text.toList))).map _ = _
  rw [hsplit, List.map_map]
  rfl

theorem trim_atoms (xs : List Atom) :
    (ofText (",".intercalate (xs.map Atom.text))).trim =
      ofText (",".intercalate (xs.map Atom.text)) := by
  apply trim_ofText
  intro c hc
  rw [String.toList_intercalate] at hc
  rcases mem_intercalate hc with rfl | ⟨part, hpart, hc⟩
  · decide
  · rw [List.map_map] at hpart
    obtain ⟨x, -, rfl⟩ := List.mem_map.1 hpart
    obtain ⟨hlow, hhigh, -⟩ := Atom.printable_of_mem_text hc
    exact ⟨hlow, hhigh⟩

theorem isEmpty_atoms {xs : List Atom} (h : xs ≠ []) :
    (ofText (",".intercalate (xs.map Atom.text))).isEmpty = false := by
  rw [List.isEmpty_eq_false_iff]
  intro hempty
  have hsplit := splitAtAll_ofText h
  rw [hempty] at hsplit
  -- an empty entry has one empty part, but texts of atoms are not empty
  cases xs with
  | nil => contradiction
  | cons x xs =>
    rw [List.map_cons] at hsplit
    injection hsplit with hx _
    have := isEmpty_atom x
    rw [← hx] at this
    contradiction

end Entry

namespace FieldType

variable {s : Scalar} {xs : List Atom}

theorem readElements_atoms (hof : ∀ x ∈ xs, x.isOf s = true) (hrange : ∀ x ∈ xs, x.inRange s = true)
    (index : Nat) :
    readElements s index (xs.map fun x => .ofText x.text) = .ok (xs.map (·.bits s)) := by
  induction xs generalizing index with
  | nil => rfl
  | cons x xs ih =>
    have hx := Atom.read_ofText (hof x List.mem_cons_self) (hrange x List.mem_cons_self)
    have hxs := ih (fun y hy => hof y (List.mem_cons_of_mem x hy))
      (fun y hy => hrange y (List.mem_cons_of_mem x hy)) (index + 1)
    rw [List.map_cons, readElements, Entry.trim_atom, hx, hxs]
    rfl

theorem exists_readElements_eq_error (hof : ∀ x ∈ xs, x.isOf s = true)
    (hrange : xs.all (·.inRange s) = false) (index : Nat) :
    ∃ e, readElements s index (xs.map fun x => .ofText x.text) = .error e := by
  induction xs generalizing index with
  | nil => cases hrange
  | cons x xs ih =>
    rw [List.map_cons, readElements, Entry.trim_atom]
    cases hx : x.inRange s with
    | false =>
      obtain ⟨e, he⟩ := Atom.exists_read_eq_error (hof x List.mem_cons_self) hx
      rw [he]
      exact ⟨_, rfl⟩
    | true =>
      rw [List.all_cons, hx, Bool.true_and] at hrange
      obtain ⟨e, he⟩ := ih (fun y hy => hof y (List.mem_cons_of_mem x hy)) hrange (index + 1)
      rw [Atom.read_ofText (hof x List.mem_cons_self) hx, he]
      exact ⟨e, rfl⟩

/-! What is read for a field of each shape, from an entry that is not empty. -/

section

variable {t : FieldType} {entry : Entry} (htrim : entry.trim = entry)
  (hempty : entry.isEmpty = false) (current : Value)

include htrim hempty

theorem readEntry_scalar (hshape : t.shape = .scalar) :
    t.readEntry entry current = (t.scalar.read entry).map .scalar := by
  unfold readEntry
  rw [htrim]
  dsimp only
  rw [hempty, hshape]
  rfl

theorem readEntry_optional (hshape : t.shape = .optional) (htext : t.text = false) :
    t.readEntry entry current = (t.scalar.read entry).map fun x => .optional (some x) := by
  unfold readEntry
  rw [htrim]
  dsimp only
  rw [hempty, hshape, htext]
  rfl

theorem readEntry_sequence (hshape : t.shape = .sequence) (htext : t.text = false)
    (hchar : t.scalar ≠ .char) :
    t.readEntry entry current =
      (readElements t.scalar 0 (splitAtAll isComma entry)).map fun xs => .sequence (some xs) := by
  unfold readEntry
  rw [htrim]
  dsimp only
  rw [hempty, hshape, htext, if_neg Bool.false_ne_true]
  dsimp only
  rw [if_neg Bool.false_ne_true]
  split
  · next h => exact absurd h hchar
  · rfl

end

end FieldType

namespace Datum

def entry (d : Datum) : Entry :=
  .ofText d.text

variable {d : Datum} {t : FieldType}

structure IsOf (d : Datum) (t : FieldType) : Prop where
  shape : t.shape = d.shape
  text : t.text = false
  scalar : t.scalar = .bool ∨ t.scalar.isSigned = true ∨ t.scalar.isUnsigned = true
  atoms : ∀ x ∈ d.atoms, x.isOf t.scalar = true

theorem isOf_iff : d.isOf t = true ↔ d.IsOf t := by
  unfold isOf
  simp only [Bool.and_eq_true, Bool.or_eq_true, beq_iff_eq, Bool.not_eq_true', List.all_eq_true]
  constructor
  · rintro ⟨⟨⟨hshape, htext⟩, hscalar⟩, hatoms⟩
    exact ⟨hshape, htext, or_assoc.1 hscalar, hatoms⟩
  · rintro ⟨hshape, htext, hscalar, hatoms⟩
    exact ⟨⟨⟨hshape, htext⟩, or_assoc.2 hscalar⟩, hatoms⟩

theorem IsOf.scalar_ne_char (h : d.IsOf t) : t.scalar ≠ .char := by
  intro hchar
  have hscalar := h.scalar
  rw [hchar] at hscalar
  simp [Scalar.isSigned, Scalar.isUnsigned] at hscalar

theorem IsOf.canonical_scalar (h : d.IsOf t) (bits : Nat) : t.scalar.canonical bits = bits := by
  have hscalar := h.scalar
  cases hs : t.scalar with
  | f32 | f64 | char => simp [hs, Scalar.isSigned, Scalar.isUnsigned] at hscalar
  | _ => rfl

theorem IsOf.readEntry_eq (h : d.IsOf t) (hrange : d.inRange t = true) :
    t.readEntry d.entry t.default = .ok (d.value t) := by
  have hrange := List.all_eq_true.1 hrange
  have hchar := h.scalar_ne_char
  obtain ⟨hshape, htext, -, hatoms⟩ := h
  cases d with
  | one x =>
    have hread := Atom.read_ofText (hatoms x List.mem_cons_self) (hrange x List.mem_cons_self)
    exact (FieldType.readEntry_scalar (Entry.trim_atom x) (Entry.isEmpty_atom x) _ hshape).trans
      (congrArg (Except.map _) hread)
  | maybe x =>
    cases x with
    | none =>
      unfold FieldType.default
      rw [hshape, htext]
      rfl
    | some x =>
      have hread := Atom.read_ofText (hatoms x List.mem_cons_self) (hrange x List.mem_cons_self)
      exact (FieldType.readEntry_optional (Entry.trim_atom x) (Entry.isEmpty_atom x) _ hshape
        htext).trans (congrArg (Except.map _) hread)
  | many xs =>
    by_cases hempty : xs = []
    · subst hempty
      unfold FieldType.default
      rw [hshape, htext]
      rfl
    · have hread := FieldType.readElements_atoms hatoms hrange 0
      refine (FieldType.readEntry_sequence (Entry.trim_atoms xs) (Entry.isEmpty_atoms hempty) _ hshape
        htext hchar).trans ?_
      rw [Entry.splitAtAll_ofText hempty]
      exact congrArg (Except.map _) hread

theorem IsOf.exists_readEntry_eq_error (h : d.IsOf t) (hrange : d.inRange t = false)
    (current : Value) : ∃ e, t.readEntry d.entry current = .error e := by
  have hchar := h.scalar_ne_char
  obtain ⟨hshape, htext, -, hatoms⟩ := h
  cases d with
  | one x =>
    rw [inRange, Datum.atoms, List.all_cons, List.all_nil, Bool.and_true] at hrange
    obtain ⟨e, he⟩ := Atom.exists_read_eq_error (hatoms x List.mem_cons_self) hrange
    exact ⟨e, (FieldType.readEntry_scalar (Entry.trim_atom x) (Entry.isEmpty_atom x) _ hshape).trans
      (congrArg (Except.map _) he)⟩
  | maybe x =>
    cases x with
    | none => cases hrange
    | some x =>
      rw [inRange, Datum.atoms, Option.toList_some, List.all_cons, List.all_nil, Bool.and_true]
        at hrange
      obtain ⟨e, he⟩ := Atom.exists_read_eq_error (hatoms x List.mem_cons_self) hrange
      exact ⟨e, (FieldType.readEntry_optional (Entry.trim_atom x) (Entry.isEmpty_atom x) _ hshape
        htext).trans (congrArg (Except.map _) he)⟩
  | many xs =>
    have hne : xs ≠ [] := by
      rintro rfl
      cases hrange
    obtain ⟨e, he⟩ := FieldType.exists_readElements_eq_error hatoms hrange 0
    refine ⟨e, (FieldType.readEntry_sequence (Entry.trim_atoms xs) (Entry.isEmpty_atoms hne) _ hshape
      htext hchar).trans ?_⟩
    rw [Entry.splitAtAll_ofText hne]
    exact congrArg (Except.map _) he

theorem IsOf.render_canonical (h : d.IsOf t) (hrange : d.inRange t = true) :
    t.render (t.canonical (d.value t)) = d.shown := by
  have hrange := List.all_eq_true.1 hrange
  have hrender : ∀ x ∈ d.atoms, t.scalar.render (x.bits t.scalar) = x.text := by
    intro x hx
    exact Atom.render_bits (h.atoms x hx) (hrange x hx)
  cases d with
  | one x =>
    show t.scalar.render (t.scalar.canonical (x.bits t.scalar)) = x.text
    rw [h.canonical_scalar]
    exact hrender x List.mem_cons_self
  | maybe x =>
    unfold FieldType.canonical value
    dsimp only
    rw [if_neg h.scalar_ne_char]
    cases x with
    | none => rfl
    | some x =>
      show "some(" ++ t.scalar.render (x.bits t.scalar) ++ ")" = _
      rw [hrender x List.mem_cons_self]
      rfl
  | many xs =>
    have htexts : (xs.map (·.bits t.scalar)).map t.scalar.render = xs.map Atom.text := by
      rw [List.map_map]
      exact List.map_congr_left hrender
    unfold FieldType.canonical FieldType.render value
    dsimp only
    rw [if_neg h.scalar_ne_char]
    split
    · next hchar => exact absurd hchar h.scalar_ne_char
    · show "[" ++ ", ".intercalate ((xs.map (·.bits t.scalar)).map t.scalar.render) ++ "]" = _
      rw [htexts]
      rfl

end Datum

end RecordCodec
