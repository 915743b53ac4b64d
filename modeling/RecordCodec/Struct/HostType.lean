import RecordCodec.Kind
import RecordCodec.Text.Quoted

/-!
This module contains the Go types that records are bound to: how they are spelled and what they can
hold.
-/

namespace RecordCodec

inductive Builtin where
  | bool
  | string
  | int
  | int8
  | int16
  | int32
  | int64
  | uint
  | uint8
  | uint16
  | uint32
  | uint64
  | uintptr
  | float32
  | float64
  | complex64
  | complex128
  | anything
  deriving DecidableEq, Repr

namespace Builtin

def spelling : Builtin → String
  | bool => "bool"
  | string => "string"
  | int => "int"
  | int8 => "int8"
  | int16 => "int16"
  | int32 => "int32"
  | int64 => "int64"
  | uint => "uint"
  | uint8 => "uint8"
  | uint16 => "uint16"
  | uint32 => "uint32"
  | uint64 => "uint64"
  | uintptr => "uintptr"
  | float32 => "float32"
  | float64 => "float64"
  | complex64 => "complex64"
  | complex128 => "complex128"
  | anything => "interface \x7b\x7d"

def all : List Builtin :=
  [bool, string, int, int8, int16, int32, int64, uint, uint8, uint16, uint32, uint64, uintptr,
    float32, float64, complex64, complex128, anything]

def ofSpelling? (s : String) : Option Builtin :=
  all.find? (·.spelling == s)

end Builtin

structure Member (τ : Type) where
  name : String
  type : τ
  tag : String := ""
  isExported : Bool := true
  deriving Repr, Inhabited

inductive HostType where
  | builtin (b : Builtin)
  | slice (elem : HostType)
  | pointer (elem : HostType)
  | array (length : Nat) (elem : HostType)
  | map (key value : HostType)
  /-- A declared type: it has a name of its own and holds what the other type holds. -/
  | named (name : String) (underlying : HostType)
  | struct (members : List (Member HostType))
  | other (spelling : String)
  deriving Repr, Inhabited

namespace HostType

mutual

def spelling : HostType → String
  | builtin b => b.spelling
  | slice elem => "[]" ++ elem.spelling
  | pointer elem => "*" ++ elem.spelling
  | array length elem => "[" ++ toString length ++ "]" ++ elem.spelling
  | map key value => "map[" ++ key.spelling ++ "]" ++ value.spelling
  | named name _ => name
  | other s => s
  | struct members =>
    match memberSpellings members with
    | [] => "struct \x7b\x7d"
    | ms => "struct \x7b " ++ "; ".intercalate ms ++ " \x7d"

def memberSpellings : List (Member HostType) → List String
  | [] => []
  | m :: ms => memberSpelling m :: memberSpellings ms

def memberSpelling : Member HostType → String
  | ⟨name, type, tag, _⟩ =>
    name ++ " " ++ type.spelling ++ if tag == "" then "" else " " ++ Text.quote tag

end

def underlying : HostType → HostType
  | named _ t => t.underlying
  | t => t

def builtin? (t : HostType) : Option Builtin :=
  match t.underlying with
  | builtin b => some b
  | _ => none

def members? (t : HostType) : Option (List (Member HostType)) :=
  match t.underlying with
  | struct ms => some ms
  | _ => none

end HostType

def Scalar.builtin? : Scalar → Option Builtin
  | bool => some .bool
  | u8 => some .uint8
  | s8 => some .int8
  | u16 => some .uint16
  | s16 => some .int16
  | u32 => some .uint32
  | s32 => some .int32
  | u64 => some .uint64
  | s64 => some .int64
  | f32 => some .float32
  | f64 => some .float64
  | char => some .int32
  | unknown _ => none

def Builtin.scalar? : Builtin → Option Scalar
  | bool => some .bool
  | uint8 => some .u8
  | int8 => some .s8
  | uint16 => some .u16
  | int16 => some .s16
  | uint32 => some .u32
  | int32 => some .s32
  | uint64 => some .u64
  | int64 => some .s64
  | float32 => some .f32
  | float64 => some .f64
  | _ => none

namespace FieldType

def elemBuiltin? (t : FieldType) : Option Builtin :=
  if t.text then some .string else t.scalar.builtin?

def hostType? (t : FieldType) : Option HostType := do
  let elem ← t.elemBuiltin?
  match t.shape with
  | .text => return .builtin .string
  | .sequence => return .slice (.builtin elem)
  | .optional => return .pointer (.builtin elem)
  | _ => return .builtin (← t.scalar.builtin?)

def fits (t : FieldType) (host : HostType) : Bool :=
  match t.shape, host.underlying with
  | .scalar, .builtin b => t.scalar.builtin? == some b
  | .text, .builtin b => b == .string
  | .sequence, .slice elem => holds elem
  | .optional, .pointer elem => holds elem
  | _, _ => false
where
  holds (elem : HostType) : Bool := elem.builtin?.isSome && elem.builtin? == t.elemBuiltin?

end FieldType

end RecordCodec
