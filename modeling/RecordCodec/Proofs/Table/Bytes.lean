import RecordCodec.Table.Reader

/-!
This module contains the laws of numbers as bytes, and the positions of bytes in a buffer that is
written from its end: `StandsAt` says which bytes have a given offset, and `StandsAt.load?` what
reading there gives. A slot without a field reads as nothing.
-/

namespace RecordCodec.Table

section

variable {p : Prop} [Decidable p]

theorem guard_bind_of (h : p) (f : Unit → Option α) : (guard p >>= f) = f () := by
  unfold guard
  rw [if_pos h]
  rfl

theorem guard_bind_of_not (h : ¬p) (f : Unit → Option α) : (guard p >>= f) = none := by
  unfold guard
  rw [if_neg h]
  rfl

theorem of_guard_bind_eq_some {f : Unit → Option α} {a : α} (h : (guard p >>= f) = some a) :
    p ∧ f () = some a := by
  by_cases hp : p
  · rw [guard_bind_of hp] at h
    exact ⟨hp, h⟩
  · rw [guard_bind_of_not hp] at h
    contradiction

end

theorem leValue_lt (bytes : List UInt8) : leValue bytes < Nat.pow 256 bytes.length := by
  induction bytes with
  | nil => simp [leValue]
  | cons b bytes ih =>
    have hb : b.toNat < 256 := b.toNat_lt
    have hpow : Nat.pow 256 (bytes.length + 1) = Nat.pow 256 bytes.length * 256 := rfl
    rw [leValue, List.length_cons, hpow]
    omega

theorem leValue_leBytes_mod (width n : Nat) :
    leValue (leBytes width n) = n % Nat.pow 256 width := by
  induction width generalizing n with
  | zero => simp [leBytes, leValue, Nat.mod_one]
  | succ width ih =>
    have hpow : Nat.pow 256 (width + 1) = 256 * Nat.pow 256 width := Nat.mul_comm _ _
    have hbyte : n.toUInt8.toNat = n % 256 := by simp
    rw [leBytes, leValue, ih, hbyte, hpow, Nat.mod_mul]

theorem leValue_leBytes {width n : Nat} (h : n < Nat.pow 256 width) :
    leValue (leBytes width n) = n := by
  rw [leValue_leBytes_mod]
  apply Nat.mod_eq_of_lt
  exact h

theorem leBytes_one (n : Nat) : leBytes 1 n = [n.toUInt8] := rfl

theorem length_flatMap_leBytes (width : Nat) (xs : List Nat) :
    (xs.flatMap (leBytes width)).length = width * xs.length := by
  induction xs with
  | nil => simp
  | cons x xs ih =>
    rw [List.flatMap_cons, List.length_append, ih, length_leBytes, List.length_cons]
    rw [Nat.mul_add, Nat.mul_one, Nat.add_comm]

theorem flatMap_leBytes_one (elems : List Nat) :
    elems.flatMap (leBytes 1) = elems.map (·.toUInt8) := by
  induction elems with
  | nil => rfl
  | cons x elems ih =>
    rw [List.flatMap_cons, leBytes_one, ih]
    rfl

theorem signed_four {n : Nat} (h : n < 0x80000000) : signed 4 n = n := by
  unfold signed
  rw [if_pos]
  exact h

def StandsAt (w : List UInt8) (off : Nat) (bytes : List UInt8) : Prop :=
  ∃ front back, w = front ++ (bytes ++ back) ∧ (bytes ++ back).length = off

namespace StandsAt

variable {w xs ys bytes : List UInt8} {off : Nat}

theorem here (xs w : List UInt8) : StandsAt (xs ++ w) (xs.length + w.length) xs := by
  refine ⟨[], w, rfl, ?_⟩
  rw [List.length_append]

theorem prepend (h : StandsAt w off bytes) (xs : List UInt8) : StandsAt (xs ++ w) off bytes := by
  rcases h with ⟨front, back, hw, hlen⟩
  refine ⟨xs ++ front, back, ?_, hlen⟩
  rw [hw, List.append_assoc]

theorem left (h : StandsAt w off (xs ++ ys)) : StandsAt w off xs := by
  rcases h with ⟨front, back, hw, hlen⟩
  rw [List.append_assoc] at hw hlen
  exact ⟨front, ys ++ back, hw, hlen⟩

theorem right (h : StandsAt w off (xs ++ ys)) : StandsAt w (off - xs.length) ys := by
  rcases h with ⟨front, back, hw, hlen⟩
  rw [List.append_assoc] at hw hlen
  refine ⟨front ++ xs, back, ?_, ?_⟩
  · rw [hw, List.append_assoc]
  · rw [List.length_append] at hlen
    omega

theorem le_length (h : StandsAt w off bytes) : off ≤ w.length := by
  rcases h with ⟨front, back, hw, hlen⟩
  rw [hw, List.length_append, hlen]
  omega

theorem length_le (h : StandsAt w off bytes) : bytes.length ≤ off := by
  rcases h with ⟨front, back, hw, hlen⟩
  rw [List.length_append] at hlen
  omega

theorem extract (h : StandsAt w off bytes) :
    (w.toArray.extract (w.length - off) (w.length - off + bytes.length)).toList = bytes := by
  rcases h with ⟨front, back, hw, hlen⟩
  have hfront : w.length - off = front.length := by
    rw [hw, List.length_append, hlen]
    omega
  rw [hfront, hw]
  simp

theorem load? {pos width : Nat} (h : StandsAt w off bytes) (hpos : pos + off = w.length)
    (hwidth : bytes.length = width) : load? w.toArray pos width = some (leValue bytes) := by
  have hlen := h.length_le
  have hstart : pos = w.length - off := by omega
  unfold Table.load?
  rw [if_pos]
  · rw [hstart, ← hwidth, h.extract]
  · simp only [List.size_toArray]
    omega

theorem load?_leBytes {pos width n : Nat} (h : StandsAt w off (leBytes width n))
    (hpos : pos + off = w.length) (hn : n < Nat.pow 256 width) :
    Table.load? w.toArray pos width = some n := by
  rw [h.load? hpos (length_leBytes width n), leValue_leBytes hn]

theorem flatMap_leBytes {width : Nat} {elems : List Nat} {i x : Nat}
    (h : StandsAt w off (elems.flatMap (leBytes width))) (hx : elems[i]? = some x) :
    StandsAt w (off - width * i) (leBytes width x) := by
  induction elems generalizing off i with
  | nil => simp at hx
  | cons y elems ih =>
    rw [List.flatMap_cons] at h
    cases i with
    | zero =>
      cases hx
      rw [Nat.mul_zero, Nat.sub_zero]
      exact h.left
    | succ i =>
      have hrest := ih h.right hx
      rw [length_leBytes, Nat.sub_sub] at hrest
      rw [Nat.mul_add, Nat.mul_one, Nat.add_comm]
      exact hrest

end StandsAt

namespace Reader

theorem field?_empty (slot : UInt16) (width : Nat) : empty.field? slot width = none :=
  guard_bind_of_not (by simp [empty]) _

variable {r : Reader} {slot : UInt16}

theorem lookup?_of_absent (h : ∀ width, r.field? slot width = none) (s : Scalar) :
    r.lookup? s slot = none := by
  unfold lookup?
  rw [h]
  rfl

theorem vector?_of_absent (h : ∀ width, r.field? slot width = none) (elemSize : Nat) :
    r.vector? slot elemSize = none := by
  unfold vector?
  rw [h]
  rfl

theorem elements?_of_absent (h : ∀ width, r.field? slot width = none) (s : Scalar) :
    r.elements? s slot = none := by
  unfold elements?
  rw [vector?_of_absent h]
  rfl

theorem bytes?_of_absent (h : ∀ width, r.field? slot width = none) : r.bytes? slot = none := by
  unfold bytes?
  rw [vector?_of_absent h]
  rfl

end Reader

end RecordCodec.Table
