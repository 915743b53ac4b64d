import RecordCodec.Kind
import RecordCodec.Table.Builder

/-!
This module contains the writing of scalars, texts and vectors with a builder. A scalar is given by
its bit pattern, a number below `2 ^ (8 * size)`.
-/

namespace RecordCodec

namespace Scalar

def isNaN : Scalar → Nat → Bool
  | f32, bits => 0x7f800000 < bits % 0x80000000
  | f64, bits => 0x7ff0000000000000 < bits % 0x8000000000000000
  | _, _ => false

/--
Whether two bit patterns stand for equal values. Both zeros of a float are equal, and what is not a
number equals nothing.
-/
def sameValue (s : Scalar) (x y : Nat) : Bool :=
  match s with
  | f32 => !s.isNaN x && !s.isNaN y && (x == y || (x % 0x80000000 == 0 && y % 0x80000000 == 0))
  | f64 => !s.isNaN x && !s.isNaN y &&
    (x == y || (x % 0x8000000000000000 == 0 && y % 0x8000000000000000 == 0))
  | _ => x == y

def ofStored (s : Scalar) (stored : Nat) : Nat :=
  match s with
  | bool => if stored == 1 then 1 else 0
  | _ => stored

end Scalar

namespace Table

def isCodePoint (code : Nat) : Bool :=
  code < 0xd800 || (0xdfff < code && code ≤ 0x10ffff)

def keepCodePoints (codes : List Nat) : List Nat :=
  codes.filter isCodePoint

namespace Builder

def prepend (b : Builder) (s : Scalar) (bits : Nat) : Except BuilderError Builder :=
  b.prependNumber s.size bits

def slotAlways (b : Builder) (s : Scalar) (index : Int) (bits : Nat) :
    Except BuilderError Builder := do
  (← b.prepend s bits).setSlot index

def slot (b : Builder) (s : Scalar) (index : Int) (bits default : Nat) :
    Except BuilderError Builder :=
  if s.sameValue bits default then .ok b else b.slotAlways s index bits

def offsetSlot (b : Builder) (index : Int) (off : Nat) : Except BuilderError Builder := do
  (← b.prependOffset off).setSlot index

def createElements (b : Builder) (s : Scalar) (elems : List Nat) :
    Except BuilderError (Builder × Nat) := do
  let b ← b.startVector s.size elems.length s.size
  let b ← elems.foldrM (fun x b => b.prepend s x) b
  b.endVector elems.length

def createVector (b : Builder) (s : Scalar) (elems : List Nat) :
    Except BuilderError (Builder × Nat) :=
  match s with
  | .u8 => b.createBytes (elems.map (·.toUInt8))
  | _ => b.createElements s elems

def createSignedBytes (b : Builder) (elems : List Nat) : Except BuilderError (Builder × Nat) :=
  b.createBytes (elems.map (·.toUInt8))

def createCodePoints (b : Builder) (codes : List Nat) : Except BuilderError (Builder × Nat) :=
  b.createVector .u32 codes

def createStrings (b : Builder) : List (List UInt8) → Except BuilderError (Builder × List Nat)
  | [] => .ok (b, [])
  | s :: ss => do
    let (b, off) ← b.createString s
    let (b, offs) ← b.createStrings ss
    return (b, off :: offs)

def createStringVector (b : Builder) (texts : List (List UInt8)) :
    Except BuilderError (Builder × Nat) := do
  let (b, offs) ← b.createStrings texts
  let b ← b.startVector 4 offs.length 4
  let b ← offs.foldrM (fun off b => b.prependOffset off) b
  b.endVector offs.length

def finishObject (b : Builder) : Except BuilderError Builder := do
  let (b, object) ← b.endObject
  b.finish object

end Builder

end Table

end RecordCodec
