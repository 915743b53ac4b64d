/-!
This module contains the closed set of field types: fixed size scalars, text, and sequences and
optionals of those.
-/

namespace RecordCodec

inductive Scalar where
  | bool
  | u8
  | s8
  | u16
  | s16
  | u32
  | s32
  | u64
  | s64
  | f32
  | f64
  | char
  | unknown (code : Nat)
  deriving DecidableEq, Repr, Inhabited

namespace Scalar

def name : Scalar → String
  | bool => "bool"
  | u8 => "u8"
  | s8 => "s8"
  | u16 => "u16"
  | s16 => "s16"
  | u32 => "u32"
  | s32 => "s32"
  | u64 => "u64"
  | s64 => "s64"
  | f32 => "f32"
  | f64 => "f64"
  | char => "char"
  | unknown _ => "unknown"

def spelling : Scalar → String
  | bool => "bool"
  | u8 => "uint8"
  | s8 => "int8"
  | u16 => "uint16"
  | s16 => "int16"
  | u32 => "uint32"
  | s32 => "int32"
  | u64 => "uint64"
  | s64 => "int64"
  | f32 => "float32"
  | f64 => "float64"
  | char => "rune"
  | unknown _ => "unknown"

def size : Scalar → Nat
  | bool | u8 | s8 => 1
  | u16 | s16 => 2
  | u32 | s32 | f32 | char => 4
  | u64 | s64 | f64 => 8
  | unknown _ => 0

def isValid : Scalar → Bool
  | unknown _ => false
  | _ => true

def all : List Scalar :=
  [bool, u8, s8, u16, s16, u32, s32, u64, s64, f32, f64, char]

def ofCode (code : Nat) : Scalar :=
  all.getD code (unknown code)

def code : Scalar → Nat
  | bool => 0
  | u8 => 1
  | s8 => 2
  | u16 => 3
  | s16 => 4
  | u32 => 5
  | s32 => 6
  | u64 => 7
  | s64 => 8
  | f32 => 9
  | f64 => 10
  | char => 11
  | unknown code => code

end Scalar

inductive Shape where
  | scalar
  | text
  | sequence
  | optional
  | unknown (code : Nat)
  deriving DecidableEq, Repr, Inhabited

namespace Shape

def name : Shape → String
  | scalar => "scalar"
  | text => "text"
  | sequence => "sequence"
  | optional => "optional"
  | unknown _ => "unknown"

def ofCode : Nat → Shape
  | 0 => scalar
  | 1 => text
  | 2 => sequence
  | 3 => optional
  | code => unknown code

def code : Shape → Nat
  | scalar => 0
  | text => 1
  | sequence => 2
  | optional => 3
  | unknown code => code

end Shape

/--
The type of a field. A scalar is of type `scalar`; the element of a sequence or an optional is text
when `text` is set and `scalar` otherwise.
-/
structure FieldType where
  shape : Shape
  scalar : Scalar
  text : Bool
  deriving DecidableEq, Repr, Inhabited

namespace FieldType

def ofScalar (s : Scalar) : FieldType :=
  ⟨.scalar, s, false⟩

def ofText : FieldType :=
  ⟨.text, .bool, false⟩

def sequence (elem : FieldType) : FieldType :=
  ⟨.sequence, elem.scalar, elem.shape == .text⟩

def optional (elem : FieldType) : FieldType :=
  ⟨.optional, elem.scalar, elem.shape == .text⟩

def elem (t : FieldType) : FieldType :=
  match t.shape with
  | .sequence | .optional => if t.text then ofText else ofScalar t.scalar
  | _ => t

def isScalar (t : FieldType) : Bool :=
  t.shape == .scalar

def isOptional (t : FieldType) : Bool :=
  t.shape == .optional

def isIndirect (t : FieldType) : Bool :=
  match t.shape with
  | .text | .sequence => true
  | .optional => t.text
  | _ => false

def width (t : FieldType) : Nat :=
  if t.isIndirect then 4 else t.scalar.size

def name (t : FieldType) : String :=
  match t.shape with
  | .scalar => t.scalar.name
  | .text => "string"
  | .sequence => "list<" ++ elemName ++ ">"
  | .optional => "option<" ++ elemName ++ ">"
  | .unknown _ => "unknown"
where
  elemName : String := if t.text then "string" else t.scalar.name

def spelling (t : FieldType) : String :=
  match t.shape with
  | .scalar => t.scalar.spelling
  | .text => "string"
  | .sequence => if !t.text && t.scalar == .u8 then "[]byte" else "[]" ++ elemSpelling
  | .optional => "*" ++ elemSpelling
  | .unknown _ => "unknown"
where
  elemSpelling : String := if t.text then "string" else t.scalar.spelling

end FieldType

end RecordCodec
