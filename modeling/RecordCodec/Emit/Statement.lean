import RecordCodec.Naming
import RecordCodec.Plan
import RecordCodec.Value

/-!
This module contains the statements of emitted codecs. Each statement is data: it has a text, which
is what the emitter writes, and a meaning, which is the call that the text spells.
-/

namespace RecordCodec.Emit

open RecordCodec.Table

/-! Record values. -/

abbrev Object :=
  List (String × Value)

namespace Object

def get (o : Object) (name : String) : Value :=
  (o.lookup name).getD .other

def set (o : Object) (name : String) (v : Value) : Object :=
  o.map fun (n, w) => if n == name then (n, v) else (n, w)

end Object

def zeroValue (t : FieldType) : Value :=
  match t.shape with
  | .text => .text []
  | .sequence => if t.text then .texts none else .sequence none
  | .optional => if t.text then .optionalText none else .optional none
  | _ => .scalar 0

/-! Initialisers. -/

structure Init where
  name : String
  type : FieldType
  deriving DecidableEq, Repr

namespace Init

def text (s : Init) : String :=
  s.name ++ ": " ++ s.type.spelling ++ "\x7b\x7d"

def run (s : Init) (o : Object) : Object :=
  o.set s.name (if s.type.text then .texts (some []) else .sequence (some []))

end Init

/-! Objects outside the table. -/

/--
The call that makes an object outside the table. A vector has the elements of the field it is made
from.
-/
inductive Creator where
  | string
  | stringVector
  | codePointVector
  | signedByteVector
  | vector (elem : Scalar)
  deriving DecidableEq, Repr

structure Build where
  handle : Nat
  creator : Creator
  name : String
  isGuarded : Bool
  deriving DecidableEq, Repr

def handleName (i : Nat) : String :=
  "f" ++ toString i

def fieldText (name : String) : String :=
  "o." ++ name

def Creator.text (c : Creator) (value : String) : String :=
  match c with
  | .string => "b.CreateString(" ++ value ++ ")"
  | .stringVector => "table.CreateStringVector(b, " ++ value ++ ")"
  | .codePointVector => "table.CreateRuneVector(b, " ++ value ++ ")"
  | .signedByteVector => "table.CreateInt8Vector(b, " ++ value ++ ")"
  | .vector _ => "table.CreateVector(b, " ++ value ++ ")"

def Creator.run (c : Creator) (v : Value) (b : Builder) :
    Except BuilderError (Builder × Option Nat) := do
  match c, v with
  | .string, .text s => made (← b.createString s)
  | .string, .optionalText (some s) => made (← b.createString s)
  | .stringVector, .texts ss => made (← b.createStringVector (ss.getD []))
  | .codePointVector, .sequence xs => made (← b.createCodePoints (xs.getD []))
  | .signedByteVector, .sequence xs => made (← b.createSignedBytes (xs.getD []))
  | .vector elem, .sequence xs => made (← b.createVector elem (xs.getD []))
  | _, _ => return (b, none)
where
  made (r : Builder × Nat) : Except BuilderError (Builder × Option Nat) := .ok (r.1, some r.2)

namespace Build

def text (s : Build) : String :=
  let handle := handleName s.handle
  let field := fieldText s.name
  if s.isGuarded then
    "var " ++ handle ++ " flatbuffers.UOffsetT\nif " ++ field ++ " != nil \x7b\n" ++
      handle ++ " = " ++ s.creator.text ("*" ++ field) ++ "\n\x7d"
  else handle ++ " := " ++ s.creator.text field

def run (s : Build) (o : Object) (b : Builder) : Except BuilderError (Builder × Option Nat) :=
  let v := o.get s.name
  if s.isGuarded && v == .optionalText none then .ok (b, none) else s.creator.run v b

def ofField (f : Field) (name : String) : Build :=
  match f.type.shape, f.type.decodeStrategy with
  | .text, _ => ⟨f.index, .string, name, false⟩
  | .optional, _ => ⟨f.index, .string, name, true⟩
  | _, .textSequence => ⟨f.index, .stringVector, name, false⟩
  | _, .charSequence => ⟨f.index, .codePointVector, name, false⟩
  | _, .signedBytes => ⟨f.index, .signedByteVector, name, false⟩
  | _, _ => ⟨f.index, .vector f.type.scalar, name, false⟩

end Build

/-! Fields of the table. -/

inductive Commit where
  | slot (scalar : Scalar) (index : Nat) (name : String)
  | slotIfPresent (scalar : Scalar) (index : Nat) (name : String)
  | offset (index : Nat) (handle : Nat)
  /-- The offset of an object that is written if the field holds one. -/
  | offsetIfPresent (index : Nat) (handle : Nat) (name : String)
  deriving DecidableEq, Repr

namespace Commit

def guarded (name : String) (statement : String) : String :=
  "if " ++ fieldText name ++ " != nil \x7b\n" ++ statement ++ "\n\x7d"

def zeroText (s : Scalar) : String :=
  if s == .bool then "false" else "0"

def text : Commit → String
  | slot scalar index name =>
    if scalar == .char then
      "table.PrependCharSlot(b, " ++ toString index ++ ", " ++ fieldText name ++ ", 0)"
    else
      "table.PrependSlot(b, " ++ toString index ++ ", " ++ fieldText name ++ ", " ++
        zeroText scalar ++ ")"
  | slotIfPresent scalar index name =>
    let call := if scalar == .char then "table.PrependCharSlotAlways" else "table.PrependSlotAlways"
    guarded name (call ++ "(b, " ++ toString index ++ ", *" ++ fieldText name ++ ")")
  | offset index handle => offsetText index handle
  | offsetIfPresent index handle name => guarded name (offsetText index handle)
where
  offsetText (index handle : Nat) : String :=
    "table.PrependOffsetSlot(b, " ++ toString index ++ ", " ++ handleName handle ++ ")"

def run (s : Commit) (o : Object) (offs : Nat → Option Nat) (b : Builder) :
    Except BuilderError Builder :=
  match s with
  | slot scalar index name =>
    match o.get name with
    | .scalar x => b.slot scalar index x 0
    | _ => .ok b
  | slotIfPresent scalar index name =>
    match o.get name with
    | .optional (some x) => b.slotAlways scalar index x
    | _ => .ok b
  | offset index handle =>
    match offs handle with
    | some off => b.offsetSlot index off
    | none => .ok b
  | offsetIfPresent index handle name =>
    match o.get name, offs handle with
    | .optionalText (some _), some off => b.offsetSlot index off
    | _, _ => .ok b

def ofField (f : Field) (name : String) : Commit :=
  match f.type.encodeStrategy with
  | .inline => slot f.type.scalar f.index name
  | .inlinePresent => slotIfPresent f.type.scalar f.index name
  | .indirectPresent => offsetIfPresent f.index f.index name
  | .indirect => offset f.index f.index

end Commit

/-! Reading. -/

inductive Access where
  | get (scalar : Scalar)
  | char
  | lookup (scalar : Scalar)
  | lookupChar
  | text
  | strings
  | codePoints
  | signedBytes
  | bytes
  | vector (elem : Scalar)
  deriving DecidableEq, Repr

structure Decode where
  access : Access
  slot : UInt16
  name : String
  byAddress : Bool
  deriving DecidableEq, Repr

namespace Decode

def text (s : Decode) : String :=
  let slot := toString s.slot.toNat
  let field := fieldText s.name
  match s.access with
  | .get _ => field ++ " = table.Get(r, " ++ slot ++ ", " ++ field ++ ")"
  | .char => field ++ " = r.Char(" ++ slot ++ ", " ++ field ++ ")"
  | .lookup scalar => found ("table.Lookup[" ++ scalar.spelling ++ "](r, " ++ slot ++ ")") field
  | .lookupChar => found ("r.LookupChar(" ++ slot ++ ")") field
  | .text => found ("r.Text(" ++ slot ++ ")") field
  | .strings => found ("r.Strings(" ++ slot ++ ")") field
  | .codePoints => found ("r.Runes(" ++ slot ++ ")") field
  | .signedBytes => found ("r.Int8s(" ++ slot ++ ")") field
  | .bytes => found ("r.Bytes(" ++ slot ++ ")") field
  | .vector elem => found ("table.Vector[" ++ elem.spelling ++ "](r, " ++ slot ++ ")") field
where
  found (call field : String) : String :=
    "if v, ok := " ++ call ++ "; ok \x7b\n" ++ field ++ " = " ++
      (if s.byAddress then "&" else "") ++ "v\n\x7d"

def run (s : Decode) (r : Reader) (o : Object) : Object :=
  match s.access, o.get s.name with
  | .get scalar, .scalar x => o.set s.name (.scalar (r.get scalar s.slot x))
  | .char, .scalar x => o.set s.name (.scalar (r.char s.slot x))
  | .lookup scalar, _ => store ((r.lookup? scalar s.slot).map number)
  | .lookupChar, _ => store ((r.lookupChar? s.slot).map number)
  | .text, _ =>
    store ((r.text? s.slot).map fun t => if s.byAddress then .optionalText (some t) else .text t)
  | .strings, _ => store ((r.strings? s.slot).map (.texts ∘ some))
  | .codePoints, _ => store ((r.codePoints? s.slot).map (.sequence ∘ some))
  | .signedBytes, _ => store ((r.signedBytes? s.slot).map (.sequence ∘ some))
  | .bytes, _ => store ((r.bytes? s.slot).map (.sequence ∘ some))
  | .vector elem, _ => store ((r.elements? elem s.slot).map (.sequence ∘ some))
  | _, _ => o
where
  number (x : Nat) : Value := if s.byAddress then .optional (some x) else .scalar x
  store : Option Value → Object
    | some v => o.set s.name v
    | none => o

def ofField (f : Field) (name : String) : Decode :=
  match f.type.decodeStrategy with
  | .scalar => ⟨.get f.type.scalar, f.slot, name, false⟩
  | .char => ⟨.char, f.slot, name, false⟩
  | .scalarOptional => ⟨.lookup f.type.scalar, f.slot, name, true⟩
  | .charOptional => ⟨.lookupChar, f.slot, name, true⟩
  | .text => ⟨.text, f.slot, name, false⟩
  | .textOptional => ⟨.text, f.slot, name, true⟩
  | .textSequence => ⟨.strings, f.slot, name, false⟩
  | .charSequence => ⟨.codePoints, f.slot, name, false⟩
  | .signedBytes => ⟨.signedBytes, f.slot, name, false⟩
  | .sequence =>
    if f.type.scalar == .u8 then ⟨.bytes, f.slot, name, false⟩
    else ⟨.vector f.type.scalar, f.slot, name, false⟩

end Decode

end RecordCodec.Emit
