import RecordCodec.Codec.Binding
import RecordCodec.Proofs.Planner.CommitOrder
import RecordCodec.Proofs.Text.Utf8

/-!
This module contains the values of a type, which of them a table has a field for, and the value that
each of them stands for once it was written and read: its canonical value.
-/

namespace RecordCodec

open RecordCodec.Table

namespace Scalar

def holds (s : Scalar) (bits : Nat) : Bool :=
  match s with
  | bool => bits < 2
  | s => bits < Nat.pow 256 s.size

def isZero (s : Scalar) (bits : Nat) : Bool :=
  match s with
  | f32 => bits == 0 || bits == 0x80000000
  | f64 => bits == 0 || bits == 0x8000000000000000
  | _ => bits == 0

/--
The bit pattern that comes back for a required scalar: a negative zero loses its sign, and a number
that is no character becomes zero.
-/
def canonical (s : Scalar) (bits : Nat) : Nat :=
  match s with
  | f32 => if bits = 0x80000000 then 0 else bits
  | f64 => if bits = 0x8000000000000000 then 0 else bits
  | char => if bits.isValidChar then bits else 0
  | _ => bits

theorem lt_of_holds {s : Scalar} {bits : Nat} (h : s.holds bits = true) :
    bits < Nat.pow 256 s.size := by
  have hpow : Nat.pow 256 1 = 256 := rfl
  cases s with
  | bool =>
    simp only [holds, decide_eq_true_eq] at h
    simp only [size]
    omega
  | _ => simpa [holds] using h

theorem ofStored_of_holds {s : Scalar} {bits : Nat} (h : s.holds bits = true) :
    s.ofStored bits = bits := by
  cases s with
  | bool =>
    simp only [holds, decide_eq_true_eq] at h
    unfold ofStored
    simp only [beq_iff_eq]
    split
    · omega
    · omega
  | _ => rfl

theorem sameValue_zero {s : Scalar} {bits : Nat} (h : s.holds bits = true) :
    s.sameValue bits 0 = s.isZero bits := by
  have hlt := lt_of_holds h
  cases s with
  | f32 =>
    have hpow : Nat.pow 256 4 = 0x100000000 := rfl
    simp only [size] at hlt
    rw [Bool.eq_iff_iff]
    simp [sameValue, isZero, isNaN]
    omega
  | f64 =>
    have hpow : Nat.pow 256 8 = 0x10000000000000000 := rfl
    simp only [size] at hlt
    rw [Bool.eq_iff_iff]
    simp [sameValue, isZero, isNaN]
    omega
  | _ => rfl

theorem canonical_of_not_isZero {s : Scalar} {bits : Nat} (hchar : s ≠ char)
    (h : s.isZero bits = false) : s.canonical bits = bits := by
  unfold canonical
  cases s with
  | f32 =>
    simp only [isZero, Bool.or_eq_false_iff, beq_eq_false_iff_ne] at h
    rw [if_neg h.2]
  | f64 =>
    simp only [isZero, Bool.or_eq_false_iff, beq_eq_false_iff_ne] at h
    rw [if_neg h.2]
  | char => contradiction
  | _ => rfl

end Scalar

theorem Table.isCodePoint_eq (code : Nat) : isCodePoint code = decide code.isValidChar := by
  rw [Bool.eq_iff_iff]
  simp only [isCodePoint, Nat.isValidChar, Bool.or_eq_true, Bool.and_eq_true, decide_eq_true_eq]
  omega

def canonicalText (text : List UInt8) : List UInt8 :=
  if text.toByteArray.IsValidUTF8 then text else []

namespace FieldType

def holds (t : FieldType) (v : Value) : Bool :=
  match t.shape, v with
  | .scalar, .scalar x => t.scalar.holds x
  | .text, .text _ => true
  | .sequence, .sequence xs => !t.text && (xs.getD []).all t.scalar.holds
  | .sequence, .texts _ => t.text
  | .optional, .optional x => !t.text && x.all t.scalar.holds
  | .optional, .optionalText _ => t.text
  | _, _ => false

/--
Whether a table has a field for a value: for a required scalar unless it is zero, for what is
optional if there is something, and for texts and sequences always.
-/
def present (t : FieldType) (v : Value) : Bool :=
  match v with
  | .scalar x => !t.scalar.isZero x
  | .optional x => x.isSome
  | .optionalText x => x.isSome
  | .text _ | .sequence _ | .texts _ => true
  | .other => false

def canonical (t : FieldType) (v : Value) : Value :=
  match v with
  | .scalar x => .scalar (t.scalar.canonical x)
  | .optional x => .optional (if t.scalar = .char then x.filter (·.isValidChar) else x)
  | .text s => .text (canonicalText s)
  | .optionalText s => .optionalText (s.filter (·.toByteArray.IsValidUTF8))
  | .sequence xs =>
    .sequence (some (if t.scalar = .char then (xs.getD []).filter (·.isValidChar) else xs.getD []))
  | .texts ss => .texts (some ((ss.getD []).map canonicalText))
  | .other => .other

inductive Holds (t : FieldType) : Value → Prop
  | scalar {x : Nat} (shape : t.shape = .scalar) (bits : t.scalar.holds x = true) :
    Holds t (.scalar x)
  | text {s : List UInt8} (shape : t.shape = .text) : Holds t (.text s)
  | sequence {xs : Option (List Nat)} (shape : t.shape = .sequence) (text : t.text = false)
    (elems : ∀ x ∈ xs.getD [], t.scalar.holds x = true) : Holds t (.sequence xs)
  | texts {ss : Option (List (List UInt8))} (shape : t.shape = .sequence) (text : t.text = true) :
    Holds t (.texts ss)
  | optional {x : Option Nat} (shape : t.shape = .optional) (text : t.text = false)
    (elem : ∀ y ∈ x, t.scalar.holds y = true) : Holds t (.optional x)
  | optionalText {s : Option (List UInt8)} (shape : t.shape = .optional) (text : t.text = true) :
    Holds t (.optionalText s)

theorem holds_iff {t : FieldType} {v : Value} : t.holds v = true ↔ t.Holds v := by
  constructor
  · intro h
    unfold holds at h
    split at h
    · next hshape => exact .scalar hshape h
    · next hshape => exact .text hshape
    · next hshape =>
      rw [Bool.and_eq_true, Bool.not_eq_true', List.all_eq_true] at h
      exact .sequence hshape h.1 h.2
    · next hshape => exact .texts hshape h
    · next x hshape =>
      rw [Bool.and_eq_true, Bool.not_eq_true'] at h
      refine .optional hshape h.1 ?_
      intro y hy
      cases hy
      exact h.2
    · next hshape => exact .optionalText hshape h
    · contradiction
  · intro h
    unfold holds
    cases h with
    | scalar hshape hbits =>
      rw [hshape]
      exact hbits
    | text hshape => rw [hshape]
    | sequence hshape htext helems =>
      rw [hshape, htext]
      exact List.all_eq_true.2 helems
    | texts hshape htext =>
      rw [hshape]
      exact htext
    | @optional x hshape htext helem =>
      rw [hshape, htext]
      cases x with
      | none => rfl
      | some x => exact helem x rfl
    | optionalText hshape htext =>
      rw [hshape]
      exact htext

theorem canonical_of_not_present {t : FieldType} {v : Value} (hholds : t.Holds v)
    (h : t.present v = false) : t.canonical v = t.default := by
  unfold canonical default
  cases hholds with
  | scalar hshape hbits =>
    rw [hshape]
    simp only [present, Bool.not_eq_false'] at h
    simp only [Value.scalar.injEq]
    cases hscalar : t.scalar with
    | f32 =>
      simp [Scalar.isZero, hscalar] at h
      simp [Scalar.canonical]
      omega
    | f64 =>
      simp [Scalar.isZero, hscalar] at h
      simp [Scalar.canonical]
      omega
    | char =>
      simp [Scalar.isZero, hscalar] at h
      simp [Scalar.canonical, h]
    | _ => simpa [Scalar.isZero, Scalar.canonical, hscalar] using h
  | optional hshape htext _ =>
    simp only [present, Option.isSome_eq_false_iff, Option.isNone_iff_eq_none] at h
    subst h
    simp [hshape, htext]
  | optionalText hshape htext =>
    simp only [present, Option.isSome_eq_false_iff, Option.isNone_iff_eq_none] at h
    subst h
    simp [hshape, htext]
  | text => simp [present] at h
  | sequence => simp [present] at h
  | texts => simp [present] at h

end FieldType

end RecordCodec
