/-!
This module contains sets of code points, and shifts of them, given by evenly spaced spans.
-/

namespace RecordCodec.Text

structure Span where
  lo : Nat
  hi : Nat
  step : Nat

def Span.holds (s : Span) (c : Nat) : Bool :=
  s.lo ≤ c && c ≤ s.hi && (c - s.lo) % s.step == 0

def inSpans (spans : List Span) (c : Char) : Bool :=
  spans.any (·.holds c.toNat)

structure Shift where
  lo : Nat
  hi : Nat
  step : Nat
  delta : Int

def Shift.span (s : Shift) : Span :=
  ⟨s.lo, s.hi, s.step⟩

def shiftBy (shifts : List Shift) (c : Char) : Char :=
  match shifts.find? (·.span.holds c.toNat) with
  | some s => Char.ofNat (c.toNat + s.delta).toNat
  | none => c

end RecordCodec.Text
