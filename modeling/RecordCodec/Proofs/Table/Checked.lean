import RecordCodec.Proofs.Table.Bytes

/-!
This module contains the table reader as a machine runs it. Positions are 64-bit words and every
access to the buffer is checked, so a read that goes wrong is stopped by a trap, which is not the
same as finding nothing.
-/

namespace RecordCodec.Table

inductive Trap where
  /-- An index or a slice lies outside of what it is taken from. -/
  | bounds
  | wrap
  /-- More elements are asked for than the buffer has bytes. -/
  | room
  deriving DecidableEq, Repr

abbrev Checked (α : Type) : Type :=
  OptionT (Except Trap) α

namespace Checked

def stop (t : Trap) : Checked α :=
  OptionT.mk (.error t)

def word (n : Nat) : Checked Nat :=
  if n < 0x10000000000000000 then pure n else stop .wrap

def int (n : Int) : Checked Int :=
  if -0x8000000000000000 ≤ n ∧ n < 0x8000000000000000 then pure n else stop .wrap

def length (n : Nat) : Checked Nat :=
  return (← int n).toNat

def slice (bytes : Array UInt8) (first last : Nat) : Checked (Array UInt8) :=
  if first ≤ last ∧ last ≤ bytes.size then pure (bytes.extract first last) else stop .bounds

def number (bytes : Array UInt8) (width : Nat) : Checked Nat :=
  if width ≤ bytes.size then pure (leValue (bytes.extract 0 width).toList) else stop .bounds

def peek (bytes : Array UInt8) (pos width : Nat) : Checked Nat := do
  number (← slice bytes pos bytes.size) width

def allocate (bytes : Array UInt8) (count : Nat) : Checked Unit :=
  if count ≤ bytes.size then pure () else stop .room

def locate (bytes : Array UInt8) : Checked Reader := do
  guard (4 ≤ bytes.size)
  let table ← peek bytes 0 4
  guard ((← word (table + 4)) ≤ bytes.size)
  let back ← peek bytes table 4
  let vtable ← int ((← int table) - (← int (signed 4 back)))
  guard (0 ≤ vtable)
  let vtable := vtable.toNat
  guard ((← word (vtable + 4)) ≤ bytes.size)
  let vtableSize ← peek bytes vtable 2
  guard (4 ≤ vtableSize && (← word (vtable + vtableSize)) ≤ bytes.size)
  return ⟨bytes, table, vtable, vtableSize⟩

def ofBytes (bytes : Array UInt8) : Except Trap Reader :=
  return (← (locate bytes).run).getD .empty

def field (r : Reader) (slot : UInt16) (width : Nat) : Checked Nat := do
  guard ((← word (slot.toNat + 2)) ≤ r.vtableSize)
  let off ← peek r.bytes (← word (r.vtable + slot.toNat)) 2
  guard (off != 0)
  let pos ← word (r.table + off)
  guard ((← word (pos + width)) ≤ r.bytes.size)
  return pos

def has (r : Reader) (slot : UInt16) : Except Trap Bool :=
  return (← (field r slot 0).run).isSome

def vectorAt (r : Reader) (pos elemSize : Nat) : Checked (Nat × Nat) := do
  guard ((← word (pos + 4)) ≤ r.bytes.size)
  let start ← word (pos + (← peek r.bytes pos 4))
  guard ((← word (start + 4)) ≤ r.bytes.size)
  let count ← peek r.bytes start 4
  let data ← word (start + 4)
  guard ((← word (data + (← word (count * elemSize)))) ≤ r.bytes.size)
  -- A count that is no length is refused, not converted.
  guard (count < 0x8000000000000000)
  return (data, count)

def vector (r : Reader) (slot : UInt16) (elemSize : Nat) : Checked (Array UInt8 × Nat) := do
  let (data, count) ← vectorAt r (← field r slot 4) elemSize
  let bytes ← slice r.bytes data (← word (data + (← length (count * elemSize))))
  return (bytes, count)

def lookup (r : Reader) (s : Scalar) (slot : UInt16) : Checked Nat := do
  let pos ← field r slot s.size
  return s.ofStored (← peek r.bytes pos s.size)

def get (r : Reader) (s : Scalar) (slot : UInt16) (default : Nat) : Except Trap Nat :=
  return (← (lookup r s slot).run).getD default

def lookupChar (r : Reader) (slot : UInt16) : Checked Nat := do
  let code ← lookup r .u32 slot
  guard (isCodePoint code)
  return code

def char (r : Reader) (slot : UInt16) (default : Nat) : Except Trap Nat :=
  return (← (lookupChar r slot).run).getD default

def text (r : Reader) (slot : UInt16) : Checked (List UInt8) := do
  let (data, _) ← vector r slot 1
  guard (Text.isUtf8 data.toList)
  return data.toList

def elements (r : Reader) (s : Scalar) (slot : UInt16) : Checked (List Nat) := do
  let (data, count) ← vector r slot s.size
  allocate r.bytes count
  (List.range count).mapM fun i => do
    return s.ofStored (← peek data (← length (i * s.size)) s.size)

def bytes (r : Reader) (slot : UInt16) : Checked (List Nat) := do
  let (data, _) ← vector r slot 1
  allocate r.bytes data.size
  return data.toList.map (·.toNat)

def codePoints (r : Reader) (slot : UInt16) : Checked (List Nat) := do
  let codes ← elements r .u32 slot
  allocate r.bytes codes.length
  return keepCodePoints codes

def strings (r : Reader) (slot : UInt16) : Checked (List (List UInt8)) := do
  let (base, count) ← vectorAt r (← field r slot 4) 4
  allocate r.bytes count
  (List.range count).mapM fun i => do
    let (data, length) ← vectorAt r (← word (base + (← word (i * 4)))) 1
    let elem ← slice r.bytes data (← word (data + length))
    return if Text.isUtf8 elem.toList then elem.toList else []

end Checked

end RecordCodec.Table
