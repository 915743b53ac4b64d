import RecordCodec.Kind

/-!
This module contains the strategies by which a field is written into a table and read back. Both
follow from the type of the field.
-/

namespace RecordCodec

inductive EncodeStrategy where
  /-- A scalar inside the table, left out when it equals its default. -/
  | inline
  /-- An optional scalar inside the table, written whenever it is present. -/
  | inlinePresent
  /-- An object outside the table, whose offset is always written. -/
  | indirect
  /-- An object outside the table, built and referred to only when it is present. -/
  | indirectPresent
  deriving DecidableEq, Repr

namespace EncodeStrategy

def name : EncodeStrategy → String
  | inline => "inline"
  | inlinePresent => "inline-if-present"
  | indirect => "indirect"
  | indirectPresent => "indirect-if-present"

def all : List EncodeStrategy :=
  [inline, inlinePresent, indirect, indirectPresent]

def nameOfCode (code : Nat) : String :=
  (all[code]?.map name).getD "unknown"

end EncodeStrategy

/--
How a field is read back. No strategy fails: what is missing or malformed leaves the default.
-/
inductive DecodeStrategy where
  | scalar
  | scalarOptional
  | char
  | charOptional
  | text
  | textOptional
  | sequence
  | signedBytes
  | charSequence
  | textSequence
  deriving DecidableEq, Repr

namespace DecodeStrategy

def name : DecodeStrategy → String
  | scalar => "scalar"
  | scalarOptional => "scalar-optional"
  | char => "char"
  | charOptional => "char-optional"
  | text => "text"
  | textOptional => "text-optional"
  | sequence => "sequence"
  | signedBytes => "signed-bytes"
  | charSequence => "char-sequence"
  | textSequence => "text-sequence"

def all : List DecodeStrategy :=
  [scalar, scalarOptional, char, charOptional, text, textOptional, sequence, signedBytes,
    charSequence, textSequence]

def nameOfCode (code : Nat) : String :=
  (all[code]?.map name).getD "unknown"

end DecodeStrategy

namespace FieldType

def encodeStrategy (t : FieldType) : EncodeStrategy :=
  match t.shape with
  | .text | .sequence => .indirect
  | .optional => if t.text then .indirectPresent else .inlinePresent
  | _ => .inline

def decodeStrategy (t : FieldType) : DecodeStrategy :=
  match t.shape with
  | .text => .text
  | .sequence =>
    if t.text then .textSequence
    else match t.scalar with
      | .char => .charSequence
      | .s8 => .signedBytes
      | _ => .sequence
  | .optional =>
    if t.text then .textOptional
    else match t.scalar with
      | .char => .charOptional
      | _ => .scalarOptional
  | _ =>
    match t.scalar with
    | .char => .char
    | _ => .scalar

end FieldType

end RecordCodec
