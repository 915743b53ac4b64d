import RecordCodec.Strategy
import RecordCodec.Table.Reader

/-!
This module contains the values that the fields of a record hold, and how a value of a given type is
written with a builder and read back.
-/

namespace RecordCodec

open RecordCodec.Table

/--
The value of a field. Scalars are bit patterns and texts are byte strings; a sequence may be missing
altogether, which is not the same as being empty.
-/
inductive Value where
  | scalar (bits : Nat)
  | text (bytes : List UInt8)
  | sequence (elems : Option (List Nat))
  | texts (elems : Option (List (List UInt8)))
  | optional (elem : Option Nat)
  | optionalText (elem : Option (List UInt8))
  | other
  deriving DecidableEq, Repr, Inhabited

namespace FieldType

def default (t : FieldType) : Value :=
  match t.shape with
  | .text => .text []
  | .sequence => if t.text then .texts (some []) else .sequence (some [])
  | .optional => if t.text then .optionalText none else .optional none
  | _ => .scalar 0

def build (t : FieldType) (v : Value) (b : Builder) :
    Except BuilderError (Builder × Option Nat) := do
  match t.decodeStrategy, v with
  | .text, .text s => referred (← b.createString s)
  | .textOptional, .optionalText (some s) => referred (← b.createString s)
  | .textSequence, .texts ss => referred (← b.createStringVector (ss.getD []))
  | .charSequence, .sequence xs => referred (← b.createCodePoints (xs.getD []))
  | .signedBytes, .sequence xs => referred (← b.createSignedBytes (xs.getD []))
  | .sequence, .sequence xs => referred (← b.createVector t.scalar (xs.getD []))
  | _, _ => return (b, none)
where
  referred (made : Builder × Nat) : Except BuilderError (Builder × Option Nat) :=
    .ok (made.1, some made.2)

def commit (t : FieldType) (index : Nat) (v : Value) (off : Option Nat) (b : Builder) :
    Except BuilderError Builder :=
  match t.encodeStrategy, v, off with
  | .inline, .scalar x, _ => b.slot t.scalar index x 0
  | .inlinePresent, .optional (some x), _ => b.slotAlways t.scalar index x
  | .indirect, _, some off | .indirectPresent, _, some off => b.offsetSlot index off
  | _, _, _ => .ok b

def read (t : FieldType) (r : Reader) (slot : UInt16) (current : Value) : Value :=
  match t.decodeStrategy, current with
  | .scalar, .scalar x => .scalar (r.get t.scalar slot x)
  | .char, .scalar x => .scalar (r.char slot x)
  | .scalarOptional, _ => ((r.lookup? t.scalar slot).map (.optional ∘ some)).getD current
  | .charOptional, _ => ((r.lookupChar? slot).map (.optional ∘ some)).getD current
  | .text, _ => ((r.text? slot).map .text).getD current
  | .textOptional, _ => ((r.text? slot).map (.optionalText ∘ some)).getD current
  | .sequence, _ => ((sequence? r slot).map (.sequence ∘ some)).getD current
  | .signedBytes, _ => ((r.signedBytes? slot).map (.sequence ∘ some)).getD current
  | .charSequence, _ => ((r.codePoints? slot).map (.sequence ∘ some)).getD current
  | .textSequence, _ => ((r.strings? slot).map (.texts ∘ some)).getD current
  | _, _ => current
where
  sequence? (r : Reader) (slot : UInt16) : Option (List Nat) :=
    match t.scalar with
    | .u8 => r.bytes? slot
    | s => r.elements? s slot

end FieldType

end RecordCodec
