/-!
This module contains unsigned numbers as bytes, least significant byte first.
-/

namespace RecordCodec.Table

def leBytes : (width : Nat) → (n : Nat) → List UInt8
  | 0, _ => []
  | width + 1, n => n.toUInt8 :: leBytes width (n / 256)

def leValue : List UInt8 → Nat
  | [] => 0
  | b :: bs => b.toNat + 256 * leValue bs

@[simp]
theorem length_leBytes (width n : Nat) : (leBytes width n).length = width := by
  induction width generalizing n with
  | zero => rfl
  | succ width ih => simp [leBytes, ih]

def signed (width bits : Nat) : Int :=
  if bits < Nat.pow 2 (8 * width - 1) then bits else (bits : Int) - Nat.pow 2 (8 * width)

def unsigned (width : Nat) (n : Int) : Nat :=
  (n % Nat.pow 2 (8 * width)).toNat

end RecordCodec.Table
