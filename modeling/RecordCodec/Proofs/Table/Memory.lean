import RecordCodec.Proofs.Table.Calls

/-!
This module contains the table builder as a machine runs it. Its memory is used again for every
buffer and nothing in it is cleared: the room still has the bytes of earlier buffers, and behind the
offsets in use still come those of earlier objects. A call that is stopped leaves what it has done.
-/

namespace RecordCodec.Table

inductive Stop where
  | refused (e : BuilderError)
  /-- A position lies outside of the room, or an index outside of a list. -/
  | bounds
  /-- An operation is called that does not exist, or on a value that it is not for. -/
  | missing
  deriving DecidableEq, Repr

def overwrite (old : List UInt8) (pos : Nat) (new : List UInt8) : List UInt8 :=
  old.take pos ++ (new ++ old.drop (pos + new.length))

theorem length_overwrite {old new : List UInt8} {pos : Nat}
    (h : pos + new.length ≤ old.length) : (overwrite old pos new).length = old.length := by
  unfold overwrite
  simp only [List.length_append, List.length_take, List.length_drop]
  omega

structure Memory where
  bytes : List UInt8
  /-- The rest of the block of memory that the room lies in. -/
  spare : List UInt8
  /-- How much more is allocated where a block of a size is asked for. -/
  slack : Nat → Nat
  slack_lt : ∀ size, size < 0x80000000 → size + slack size < 0x80000000
  head : Nat
  minAlign : Nat
  /-- The offsets of fields, those of the open object in front. -/
  fields : List Nat
  fieldCount : Nat
  objectEnd : Nat
  /-- The offsets of vtables, those of this buffer in front. -/
  vtables : List Nat
  vtableCount : Nat
  isNested : Bool
  isFinished : Bool
  size_lt : bytes.length + spare.length < 0x80000000

abbrev Writing (α : Type) : Type :=
  EStateM Stop Memory α

theorem run_bind_ok {σ α β : Type} {x : EStateM Stop σ α} {k : α → EStateM Stop σ β} {m m' : σ}
    {a : α} (h : x m = .ok a m') : (x >>= k) m = k a m' := by
  show EStateM.bind x k m = _
  unfold EStateM.bind
  rw [h]

theorem run_bind_error {σ α β : Type} {x : EStateM Stop σ α} {k : α → EStateM Stop σ β} {m m' : σ}
    {s : Stop} (h : x m = .error s m') : (x >>= k) m = .error s m' := by
  show EStateM.bind x k m = _
  unfold EStateM.bind
  rw [h]

namespace Memory

def offset (m : Memory) : Nat :=
  m.bytes.length - m.head

def new (size : Room) : Memory where
  bytes := List.replicate size.val 0
  spare := []
  slack := fun _ => 0
  slack_lt := fun _ h => h
  head := size.val
  minAlign := 1
  fields := []
  fieldCount := 0
  objectEnd := 0
  vtables := []
  vtableCount := 0
  isNested := false
  isFinished := false
  size_lt := by
    rw [List.length_replicate]
    exact size.isLt

def block (m : Memory) : List UInt8 :=
  m.bytes ++ m.spare

def reset : Writing Unit :=
  modify fun m => { m with
    bytes := m.block
    spare := []
    head := m.block.length
    minAlign := 1
    fieldCount := 0
    vtableCount := 0
    isNested := false
    isFinished := false
    size_lt := by
      unfold block
      rw [List.length_append]
      exact m.size_lt }

def store (pos : Nat) (new : List UInt8) : Writing Unit := fun m =>
  if h : pos + new.length ≤ m.bytes.length then
    .ok () { m with
      bytes := overwrite m.bytes pos new
      size_lt := by
        rw [length_overwrite h]
        exact m.size_lt }
  else .error .bounds m

def lower (count : Nat) : Writing Unit := fun m =>
  if count ≤ m.head then .ok () { m with head := m.head - count } else .error .bounds m

def place (new : List UInt8) : Writing Unit := do
  lower new.length
  store (← get).head new

def doubledBytes (m : Memory) : List UInt8 :=
  if m.bytes.length = 0 then [m.spare.headD 0] else m.bytes ++ m.bytes

def doubledSpare (m : Memory) : List UInt8 :=
  let size := m.doubledBytes.length
  if size ≤ m.bytes.length + m.spare.length then m.spare.drop (size - m.bytes.length)
  else List.replicate (m.slack size) 0

theorem length_doubledBytes (m : Memory) :
    m.doubledBytes.length = if m.bytes.length = 0 then 1 else 2 * m.bytes.length := by
  unfold doubledBytes
  split
  · rfl
  · rw [List.length_append]
    omega

theorem doubled_size_lt {m : Memory} (h : m.bytes.length < 0x40000000) :
    m.doubledBytes.length + m.doubledSpare.length < 0x80000000 := by
  have hsize := m.size_lt
  have hlength := m.length_doubledBytes
  unfold doubledSpare
  dsimp only
  split
  · rw [List.length_drop]
    omega
  · rw [List.length_replicate]
    apply m.slack_lt
    split at hlength
    · omega
    · omega

def double : Writing Unit := fun m =>
  if h : m.bytes.length < 0x40000000 then
    .ok () { m with
      bytes := m.doubledBytes
      spare := m.doubledSpare
      head := m.head + (m.doubledBytes.length - m.bytes.length)
      size_lt := doubled_size_lt h }
  else .error (.refused .tooLarge) m

def makeRoom (needed : Nat) : (fuel : Nat) → Writing Unit
  | 0 => throw (.refused .tooLarge)
  | fuel + 1 => do
    if needed < (← get).head then return
    else
      double
      makeRoom needed fuel

/--
Write padding so that a value of `size` bytes is aligned once `additional` bytes follow it, and
make room for all of that.
-/
def prep (size additional : Nat) : Writing Unit := do
  modify fun m => { m with minAlign := max m.minAlign size }
  let pad := Layout.padding ((← get).offset + additional) size
  makeRoom (pad + size + additional) 40
  place (List.replicate pad 0)

def prependNumber (width n : Nat) : Writing Unit := do
  prep width 0
  place (leBytes width n)

def prependOffset (off : Nat) : Writing Unit := do
  prep 4 0
  let m ← get
  if off ≤ m.offset then place (leBytes 4 (m.offset - off + 4))
  else throw (.refused .offsetOrder)

def requireNotNested : Writing Unit := do
  if (← get).isNested then throw (.refused .nested) else return

def requireNested : Writing Unit := do
  if (← get).isNested then return else throw (.refused .notNested)

def nest (isNested : Bool) : Writing Unit :=
  modify fun m => { m with isNested := isNested }

def startVector (elemSize count align : Nat) : Writing Unit := do
  requireNotNested
  nest true
  prep 4 (elemSize * count)
  prep align (elemSize * count)

def endVector (count : Nat) : Writing Nat := do
  requireNested
  place (leBytes 4 count)
  nest false
  return (← get).offset

def createBytes (bytes : List UInt8) : Writing Nat := do
  requireNotNested
  nest true
  prep 4 bytes.length
  place bytes
  endVector bytes.length

def createString (bytes : List UInt8) : Writing Nat := do
  requireNotNested
  nest true
  prep 4 (bytes.length + 1)
  place [0]
  place bytes
  endVector bytes.length

def createElements (s : Scalar) (elems : List Nat) : Writing Nat := do
  startVector s.size elems.length s.size
  elems.foldrM (fun x _ => prependNumber s.size x) ()
  endVector elems.length

def createVector (s : Scalar) (elems : List Nat) : Writing Nat :=
  match s with
  | .u8 => createBytes (elems.map (·.toUInt8))
  | _ => createElements s elems

def createStrings : List (List UInt8) → Writing (List Nat)
  | [] => return []
  | s :: ss => do
    let off ← createString s
    let offs ← createStrings ss
    return off :: offs

def createStringVector (texts : List (List UInt8)) : Writing Nat := do
  let offs ← createStrings texts
  startVector 4 offs.length 4
  offs.foldrM (fun off _ => prependOffset off) ()
  endVector offs.length

def startObject (count : Nat) : Writing Unit := do
  requireNotNested
  nest true
  modify fun m => { m with
    fields := List.replicate count 0 ++ m.fields.drop count
    fieldCount := count
    objectEnd := m.offset }

def setSlot (index : Nat) : Writing Unit := do
  let m ← get
  if index < m.fieldCount then set { m with fields := m.fields.set index m.offset }
  else throw (.refused .noSuchSlot)

def slotAlways (s : Scalar) (index bits : Nat) : Writing Unit := do
  prependNumber s.size bits
  setSlot index

def slot (s : Scalar) (index bits default : Nat) : Writing Unit :=
  if s.sameValue bits default then return else slotAlways s index bits

def offsetSlot (index off : Nat) : Writing Unit := do
  prependOffset off
  setSlot index

def lastWritten (fields : List Nat) : (count : Nat) → Nat
  | 0 => 0
  | count + 1 => if fields.getD count 0 = 0 then lastWritten fields count else count + 1

def writtenFields (m : Memory) : List Nat :=
  m.fields.take (lastWritten m.fields m.fieldCount)

def entriesAt (m : Memory) (vtable : Nat) : List Nat :=
  let bytes := m.bytes.drop (m.bytes.length - vtable)
  Builder.entriesAt.pairs ((bytes.take (leValue (bytes.take 2))).drop Layout.metadataSize)

def vtableFor? (m : Memory) (object : Nat) (fields : List Nat) : Option Nat :=
  (m.vtables.take m.vtableCount).reverse.find? fun v =>
    Builder.serves object (m.entriesAt v) fields

def writeVtable (objectSize : Nat) (entries : List Nat) : Writing Unit := do
  entries.foldrM (fun e _ => prependNumber 2 e) ()
  prependNumber 2 objectSize
  prependNumber 2 (Layout.slotSize * entries.length + Layout.metadataSize)

def addVtable : Writing Unit :=
  modify fun m => { m with
    vtables := m.vtables.take m.vtableCount ++ (m.offset :: m.vtables.drop (m.vtableCount + 1))
    vtableCount := m.vtableCount + 1 }

def closeObject (object : Nat) : Writing Nat := do
  modify fun m => { m with fieldCount := 0, isNested := false }
  return object

def linkVtable (object objectSize : Nat) (fields : List Nat) : Option Nat → Writing Nat
  | some vtable => do
    store ((← get).bytes.length - object) (leBytes 4 (unsigned 4 ((vtable : Int) - object)))
    closeObject object
  | none => do
    writeVtable objectSize (fields.map (Builder.entry object))
    let m ← get
    store (m.bytes.length - object) (leBytes 4 (m.offset - object))
    addVtable
    closeObject object

def endObject : Writing Nat := do
  requireNested
  prependOffset 0
  let m ← get
  linkVtable m.offset (m.offset - m.objectEnd) m.writtenFields
    (m.vtableFor? m.offset m.writtenFields)

def finish (root : Nat) : Writing Unit := do
  requireNotNested
  prep (← get).minAlign 4
  prependOffset root
  modify fun m => { m with isFinished := true }

def finishObject : Writing Unit := do
  finish (← endObject)

def finishedBytes : Writing (List UInt8) := do
  let m ← get
  if m.isFinished then return m.bytes.drop m.head else throw (.refused .notFinished)

end Memory

def Creation.write : Creation → Writing Nat
  | string text => Memory.createString text
  | strings texts => Memory.createStringVector texts
  | codePoints codes => Memory.createVector .u32 codes
  | signedBytes elems => Memory.createBytes (elems.map (·.toUInt8))
  | vector elem elems => Memory.createVector elem elems

def Action.write : Action → Writing Unit
  | reset => Memory.reset
  | startObject count => Memory.startObject count
  | slot s index bits default => Memory.slot s index bits default
  | slotAlways s index bits => Memory.slotAlways s index bits
  | offsetSlot index off => Memory.offsetSlot index off
  | finish => Memory.finishObject

end RecordCodec.Table
