import RecordCodec.Codec.Binding
import RecordCodec.Number.Float
import RecordCodec.Text.Quoted

/-!
This module contains the texts that field values are entered as and shown as, and the trip of a
record from texts into a buffer and back.
-/

namespace RecordCodec

open RecordCodec.Table RecordCodec.Text RecordCodec.Number

abbrev Entry := List Piece

namespace Entry

def isBlank : Piece → Bool
  | .char c => Text.isBlank c
  | .stray _ => false

def trim (s : Entry) : Entry :=
  ((s.dropWhile isBlank).reverse.dropWhile isBlank).reverse

def chars (s : Entry) : List Char :=
  s.map Piece.toChar

def bytes (s : Entry) : List UInt8 :=
  s.flatMap Piece.bytes

end Entry

inductive EntryError where
  /-- Not a number, as found by the reader of the given name. -/
  | number (reader : String) (entry : Entry) (error : ReadError)
  | notOneChar (entry : Entry)
  | element (index : Nat) (error : EntryError)
  deriving Repr

def EntryError.message : EntryError → String
  | number reader entry error =>
    "strconv." ++ reader ++ ": parsing " ++ quotePieces entry ++ ": " ++ error.message
  | notOneChar entry => quotePieces entry ++ " is not a single character"
  | element index error => "element " ++ toString index ++ ": " ++ error.message

namespace Scalar

def floatFormat : Scalar → FloatFormat
  | f32 => .single
  | _ => .double

def read (s : Scalar) (entry : Entry) : Except EntryError Nat :=
  match s with
  | bool => ((readBool entry.chars).mapError (.number "ParseBool" entry)).map fun b =>
      if b then 1 else 0
  | char =>
    match entry with
    | [.char c] => if c.toNat == 0xfffd then .error (.notOneChar entry) else .ok c.toNat
    | _ => .error (.notOneChar entry)
  | f32 | f64 => (readFloat s.floatFormat entry.chars).mapError (.number "ParseFloat" entry)
  | u8 | u16 | u32 | u64 =>
    (readUnsigned (8 * s.size) entry.chars).mapError (.number "ParseUint" entry)
  | _ =>
    ((readSigned (8 * s.size) entry.chars).mapError (.number "ParseInt" entry)).map
      (unsigned s.size)

def render (s : Scalar) (bits : Nat) : String :=
  match s with
  | bool => if bits == 1 then "true" else "false"
  | char => quoteChar (Char.ofNat bits)
  | f32 | f64 => s.floatFormat.text bits
  | s8 | s16 | s32 | s64 => toString (signed s.size bits)
  | _ => toString bits

end Scalar

namespace FieldType

def readElements (s : Scalar) (index : Nat) : List Entry → Except EntryError (List Nat)
  | [] => .ok []
  | part :: parts => do
    let x ← (s.read part.trim).mapError (.element index)
    let xs ← readElements s (index + 1) parts
    return x :: xs

def isComma : Piece → Bool
  | .char c => c == ','
  | .stray _ => false

/--
Read a value of a field. An empty entry leaves the current value; the elements of a sequence stand
between commas, except that a sequence of characters is entered as a text.
-/
def readEntry (t : FieldType) (entry : Entry) (current : Value) : Except EntryError Value := do
  let entry := entry.trim
  if entry.isEmpty then return current
  match t.shape with
  | .text => return .text entry.bytes
  | .optional =>
    if t.text then return .optionalText (some entry.bytes)
    else return .optional (some (← t.scalar.read entry))
  | .sequence =>
    let parts := splitAtAll isComma entry
    if t.text then return .texts (some (parts.map fun part => Entry.bytes (Entry.trim part)))
    else match t.scalar with
      | .char => return .sequence (some (entry.chars.map Char.toNat))
      | s => return .sequence (some (← readElements s 0 parts))
  | _ => return .scalar (← t.scalar.read entry)

def renderText (bytes : List UInt8) : String :=
  quotePieces (pieces bytes)

def render (t : FieldType) (v : Value) : String :=
  match v with
  | .scalar x => t.scalar.render x
  | .text s => renderText s
  | .optional x => (x.map fun x => "some(" ++ t.scalar.render x ++ ")").getD "none"
  | .optionalText x => (x.map fun s => "some(" ++ renderText s ++ ")").getD "none"
  | .sequence xs =>
    match t.scalar with
    | .char => "list" ++ quote (String.ofList ((xs.getD []).map Char.ofNat))
    | s => "[" ++ ", ".intercalate ((xs.getD []).map s.render) ++ "]"
  | .texts xs => "[" ++ ", ".intercalate ((xs.getD []).map renderText) ++ "]"
  | .other => ""

end FieldType

inductive TripError where
  | entry (field : String) (error : EntryError)
  | builder (error : BuilderError)
  deriving Repr

def TripError.message? : TripError → Option String
  | entry field error => some (field ++ ": " ++ error.message)
  | builder _ => none

structure Trip where
  bytes : List UInt8
  fields : List String
  deriving DecidableEq, Repr

namespace Binding

/--
Store the values that entries stand for, the first of which is for the first field. Fields without
an entry keep what they hold.
-/
def enter (bd : Binding) (struct : Array Value) : List Field → List Entry →
    Except TripError (Array Value)
  | f :: fs, entry :: entries => do
    let v ← (f.type.readEntry entry (bd.value struct f.index)).mapError (.entry f.name)
    bd.enter (struct.setIfInBounds (bd.targetOf f.index) v) fs entries
  | _, _ => .ok struct

def shown (bd : Binding) (struct : Array Value) : List String :=
  bd.plan.fields.toList.map fun f => f.name ++ " = " ++ f.type.render (bd.value struct f.index)

def roundTrip (bd : Binding) (b : Builder) (entries : List Entry) :
    Except TripError (Builder × Trip) := do
  let struct ← bd.enter bd.new bd.plan.fields.toList entries
  let b ← (bd.flatten struct b).mapError .builder
  let bytes ← b.finishedBytes.mapError .builder
  return (b, ⟨bytes, bd.shown (bd.inflate bytes.toArray)⟩)

end Binding

end RecordCodec
