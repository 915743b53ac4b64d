import RecordCodec.Layout
import RecordCodec.Table.LittleEndian

/-!
This module contains the table builder. A buffer is written from its end to its start, so a position
in it is given by its distance from the end, its offset. Written bytes never move and never depend
on how much room was set aside for them.
-/

namespace RecordCodec.Table

inductive BuilderError where
  /-- An object is open, and only fields may be written. -/
  | nested
  | notNested
  | notFinished
  /-- An offset refers to something that is not written yet. -/
  | offsetOrder
  | tooLarge
  | noSuchSlot
  deriving DecidableEq, Repr

namespace BuilderError

def message? : BuilderError → Option String
  | nested => some "Incorrect creation order: object must not be nested."
  | notNested => some "Incorrect creation order: must be inside object."
  | notFinished => some "Incorrect use of FinishedBytes(): must call 'Finish' first."
  | offsetOrder => some "unreachable: off <= b.Offset()"
  | tooLarge => some "cannot grow buffer beyond 2 gigabytes"
  | noSuchSlot => none

end BuilderError

/--
The room of a buffer in bytes. Positions in a buffer are signed numbers of 32 bits, so a buffer is
smaller than 2 gigabytes.
-/
abbrev Room := Fin 0x80000000

/--
The room for a buffer of a size. A negative size is none; there is no room for a size from 2
gigabytes on.
-/
def Room.ofInt? (size : Int) : Option Room :=
  if h : size.toNat < 0x80000000 then some ⟨size.toNat, h⟩ else none

structure Builder where
  /-- The written bytes, the last byte of the buffer first. -/
  tail : Array UInt8 := #[]
  /-- The room set aside so far, which only bounds growth. -/
  capacity : Room
  minAlign : Nat := 1
  /-- The offsets of the fields of the open object; 0 for a field not written. -/
  vtable : Array Nat := #[]
  objectEnd : Nat := 0
  /-- The offsets of the vtables written so far, the latest first. -/
  vtables : List Nat := []
  isNested : Bool := false
  isFinished : Bool := false
  deriving Repr, Inhabited

namespace Builder

def new (size : Room) : Builder :=
  { capacity := size }

def reset (b : Builder) : Builder :=
  { capacity := b.capacity }

def offset (b : Builder) : Nat :=
  b.tail.size

def written (b : Builder) : List UInt8 :=
  b.tail.toList.reverse

def put (b : Builder) (bytes : List UInt8) : Builder :=
  { b with tail := b.tail ++ bytes.reverse }

def patch (b : Builder) (offset : Nat) (bytes : List UInt8) : Builder :=
  let place (tail : Array UInt8) (byte : UInt8 × Nat) : Array UInt8 :=
    tail.setIfInBounds (offset - 1 - byte.2) byte.1
  { b with tail := bytes.zipIdx.foldl place b.tail }

def doubled? (capacity : Room) : Option Room :=
  if h : capacity.val < 0x40000000 then
    some (if capacity.val = 0 then 1 else ⟨2 * capacity.val, by omega⟩)
  else none

def grow (needed : Nat) : (fuel : Nat) → (capacity : Room) → Except BuilderError Room
  | 0, _ => .error .tooLarge
  | fuel + 1, capacity =>
    if needed < capacity.val then .ok capacity
    else match doubled? capacity with
      | none => .error .tooLarge
      | some capacity => grow needed fuel capacity

/--
Write padding so that a value of `size` bytes is aligned once `additional` bytes follow it, and
make room for all of that. Room doubles from one byte to the limit in fewer than 40 steps.
-/
def prep (b : Builder) (size additional : Nat) : Except BuilderError Builder := do
  let pad := Layout.padding (b.offset + additional) size
  let capacity ← grow (b.offset + pad + size + additional) 40 b.capacity
  return { b.put (List.replicate pad 0) with
    capacity := capacity
    minAlign := max b.minAlign size }

def prependNumber (b : Builder) (width n : Nat) : Except BuilderError Builder := do
  let b ← b.prep width 0
  return b.put (leBytes width n)

def prependOffset (b : Builder) (off : Nat) : Except BuilderError Builder := do
  let b ← b.prep 4 0
  unless off ≤ b.offset do
    throw .offsetOrder
  return b.put (leBytes 4 (b.offset - off + 4))

def requireNotNested (b : Builder) : Except BuilderError Unit :=
  if b.isNested then .error .nested else .ok ()

def requireNested (b : Builder) : Except BuilderError Unit :=
  if b.isNested then .ok () else .error .notNested

def startVector (b : Builder) (elemSize count align : Nat) : Except BuilderError Builder := do
  b.requireNotNested
  let b ← prep { b with isNested := true } 4 (elemSize * count)
  b.prep align (elemSize * count)

def endVector (b : Builder) (count : Nat) : Except BuilderError (Builder × Nat) := do
  b.requireNested
  let b := { b.put (leBytes 4 count) with isNested := false }
  return (b, b.offset)

def createBytes (b : Builder) (bytes : List UInt8) : Except BuilderError (Builder × Nat) := do
  b.requireNotNested
  let b ← prep { b with isNested := true } 4 bytes.length
  (b.put bytes).endVector bytes.length

def createString (b : Builder) (bytes : List UInt8) : Except BuilderError (Builder × Nat) := do
  b.requireNotNested
  let b ← prep { b with isNested := true } 4 (bytes.length + 1)
  ((b.put [0]).put bytes).endVector bytes.length

def startObject (b : Builder) (count : Nat) : Except BuilderError Builder := do
  b.requireNotNested
  return { b with isNested := true, vtable := Array.replicate count 0, objectEnd := b.offset }

def setSlot (b : Builder) (index : Int) : Except BuilderError Builder :=
  if 0 ≤ index ∧ index.toNat < b.vtable.size then
    .ok { b with vtable := b.vtable.setIfInBounds index.toNat b.offset }
  else .error .noSuchSlot

def writtenFields (b : Builder) : List Nat :=
  (b.vtable.toList.reverse.dropWhile (· == 0)).reverse

def entry (object field : Nat) : Nat :=
  if field == 0 then 0 else object - field

def entriesAt (b : Builder) (vtable : Nat) : List Nat :=
  let bytes := (b.tail.toList.take vtable).reverse
  pairs ((bytes.take (leValue (bytes.take 2))).drop Layout.metadataSize)
where
  pairs : List UInt8 → List Nat
    | lo :: hi :: rest => leValue [lo, hi] :: pairs rest
    | _ => []

def serves (object : Nat) (entries fields : List Nat) : Bool :=
  entries.length == fields.length &&
    (entries.zip fields).all fun (e, f) => (e == 0 && f == 0) || e + f == object

def writeVtable (b : Builder) (objectSize : Nat) (entries : List Nat) :
    Except BuilderError Builder := do
  let b ← entries.foldrM (fun e b => b.prependNumber 2 e) b
  let b ← b.prependNumber 2 objectSize
  b.prependNumber 2 (Layout.slotSize * entries.length + Layout.metadataSize)

/--
Close the open object: write the offset of its vtable in front of its fields and the vtable in
front of that, or refer to a vtable that is written already and serves it. The result has the offset
of the object.
-/
def endObject (b : Builder) : Except BuilderError (Builder × Nat) := do
  b.requireNested
  let b ← b.prependOffset 0
  let object := b.offset
  let fields := b.writtenFields
  match b.vtables.find? (fun v => serves object (b.entriesAt v) fields) with
  | some vtable =>
    let b := b.patch object (leBytes 4 (unsigned 4 ((vtable : Int) - object)))
    return ({ b with vtable := #[], isNested := false }, object)
  | none =>
    let b ← b.writeVtable (object - b.objectEnd) (fields.map (entry object))
    let b := b.patch object (leBytes 4 (b.offset - object))
    return ({ b with vtable := #[], vtables := b.offset :: b.vtables, isNested := false }, object)

def finish (b : Builder) (root : Nat) : Except BuilderError Builder := do
  b.requireNotNested
  let b ← b.prep b.minAlign 4
  let b ← b.prependOffset root
  return { b with isFinished := true }

def finishedBytes (b : Builder) : Except BuilderError (List UInt8) :=
  if b.isFinished then .ok b.written else .error .notFinished

end Builder

end RecordCodec.Table
