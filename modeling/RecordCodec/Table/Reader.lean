import RecordCodec.Table.Object
import RecordCodec.Text.Utf8

/-!
This module contains the table reader. It reads the fields of a finished buffer by slot and treats
whatever is missing, truncated or malformed as absent, so no read fails.
-/

namespace RecordCodec.Table

def load? (bytes : Array UInt8) (pos width : Nat) : Option Nat :=
  if pos + width ≤ bytes.size then some (leValue (bytes.extract pos (pos + width)).toList) else none

structure Reader where
  bytes : Array UInt8
  table : Nat
  vtable : Nat
  vtableSize : Nat
  deriving Repr, Inhabited

namespace Reader

def empty : Reader :=
  ⟨#[], 0, 0, 0⟩

def locate? (bytes : Array UInt8) : Option Reader := do
  let table ← load? bytes 0 4
  let back ← load? bytes table 4
  let vtable := (table : Int) - signed 4 back
  guard (0 ≤ vtable)
  let vtable := vtable.toNat
  guard (vtable + 4 ≤ bytes.size)
  let vtableSize ← load? bytes vtable 2
  guard (4 ≤ vtableSize && vtable + vtableSize ≤ bytes.size)
  return ⟨bytes, table, vtable, vtableSize⟩

def ofBytes (bytes : Array UInt8) : Reader :=
  (locate? bytes).getD empty

def isValid (r : Reader) : Bool :=
  r.vtableSize != 0

def field? (r : Reader) (slot : UInt16) (width : Nat) : Option Nat := do
  guard (slot.toNat + 2 ≤ r.vtableSize)
  let off ← load? r.bytes (r.vtable + slot.toNat) 2
  guard (off != 0)
  guard (r.table + off + width ≤ r.bytes.size)
  return r.table + off

def has (r : Reader) (slot : UInt16) : Bool :=
  (r.field? slot 0).isSome

/--
Follow the offset at a position to a vector of elements of `elemSize` bytes. The result has the
position of the first element and the number of elements.
-/
def vectorAt? (r : Reader) (pos elemSize : Nat) : Option (Nat × Nat) := do
  let distance ← load? r.bytes pos 4
  let count ← load? r.bytes (pos + distance) 4
  let data := pos + distance + 4
  guard (data + count * elemSize ≤ r.bytes.size)
  return (data, count)

def vector? (r : Reader) (slot : UInt16) (elemSize : Nat) : Option (Nat × Nat) := do
  r.vectorAt? (← r.field? slot 4) elemSize

def slice (r : Reader) (pos count : Nat) : List UInt8 :=
  (r.bytes.extract pos (pos + count)).toList

def lookup? (r : Reader) (s : Scalar) (slot : UInt16) : Option Nat := do
  let pos ← r.field? slot s.size
  return s.ofStored (← load? r.bytes pos s.size)

def get (r : Reader) (s : Scalar) (slot : UInt16) (default : Nat) : Nat :=
  (r.lookup? s slot).getD default

def lookupChar? (r : Reader) (slot : UInt16) : Option Nat :=
  (r.lookup? .u32 slot).filter isCodePoint

def char (r : Reader) (slot : UInt16) (default : Nat) : Nat :=
  (r.lookupChar? slot).getD default

def text? (r : Reader) (slot : UInt16) : Option (List UInt8) := do
  let (data, count) ← r.vector? slot 1
  (some (r.slice data count)).filter Text.isUtf8

def elements? (r : Reader) (s : Scalar) (slot : UInt16) : Option (List Nat) := do
  let (data, count) ← r.vector? slot s.size
  (List.range count).mapM fun i => (load? r.bytes (data + i * s.size) s.size).map s.ofStored

def bytes? (r : Reader) (slot : UInt16) : Option (List Nat) := do
  let (data, count) ← r.vector? slot 1
  return (r.slice data count).map (·.toNat)

def signedBytes? (r : Reader) (slot : UInt16) : Option (List Nat) :=
  r.bytes? slot

def codePoints? (r : Reader) (slot : UInt16) : Option (List Nat) :=
  (r.elements? .u32 slot).map keepCodePoints

/--
The texts of the vector in a field. A text outside the buffer makes the vector absent, and one that
is not UTF-8 reads as the empty text.
-/
def strings? (r : Reader) (slot : UInt16) : Option (List (List UInt8)) := do
  let (base, count) ← r.vector? slot 4
  (List.range count).mapM fun i => do
    let (data, length) ← r.vectorAt? (base + 4 * i) 1
    let bytes := r.slice data length
    return if Text.isUtf8 bytes then bytes else []

end Reader

end RecordCodec.Table
