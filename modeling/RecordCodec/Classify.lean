import RecordCodec.Fault
import RecordCodec.Kind
import RecordCodec.Text.Trim

/-!
This module contains the reading of type texts: `segments` flattens a type text into its path from
the outside in, and `classify` accepts the paths that name a field type.
-/

namespace RecordCodec

open RecordCodec.Text

def unqualified : List Char → List Char
  | [] => []
  | c :: cs =>
    match afterLast (c :: cs) with
    | some rest => rest
    | none => c :: cs
where
  afterLast : List Char → Option (List Char)
    | [] => none
    | c :: cs =>
      match afterLast cs with
      | some rest => some rest
      | none =>
        match c, cs with
        | ':', ':' :: rest => some rest
        | _, _ => none

def isReserved (c : Char) : Bool :=
  "<>,[]:* \t\n".toList.contains c

def segmentName? (s : List Char) : Option String :=
  let name := unqualified (trim s)
  if name.isEmpty || name.any isReserved then none else some (String.ofList name)

def topLevelCommas? (s : List Char) : Option Nat :=
  go 0 s
where
  go : Nat → List Char → Option Nat
    | 0, [] => some 0
    | _ + 1, [] => none
    | depth, c :: cs =>
      if c == '<' then go (depth + 1) cs
      else if c == '>' then
        match depth with
        | 0 => none
        | depth + 1 => go depth cs
      else if c == ',' && depth == 0 then (go depth cs).map (· + 1)
      else go depth cs

def isOneArgument (s : List Char) : Bool :=
  topLevelCommas? s == some 0 && !s.isEmpty

def openGeneric? (s : List Char) : Option (List Char × List Char) :=
  match s.dropWhile (· != '<') with
  | [] => none
  | _ :: rest =>
    if rest.getLast? == some '>' then some (s.takeWhile (· != '<'), rest.dropLast) else none

theorem length_of_openGeneric? {s name inner : List Char} (h : openGeneric? s = some (name, inner)) :
    inner.length < s.length := by
  unfold openGeneric? at h
  split at h
  · contradiction
  · rename_i c rest heq
    split at h
    · have hle := (List.dropWhile_suffix (· != '<') (l := s)).length_le
      rw [heq] at hle
      cases h
      simp only [List.length_dropLast, List.length_cons] at *
      omega
    · contradiction

/--
Flatten type text into its path from the outside in: `option<list<u8>>` becomes
`option`, `list`, `u8`, and `[]string` becomes `list`, `string`.
-/
def segments (text : String) : Option (List String) :=
  go (trim text.toList)
where
  go (s : List Char) : Option (List String) :=
    match _hs : s with
    | '[' :: ']' :: rest => (go (trim rest)).map ("list" :: ·)
    | _ =>
      if s.contains '<' then
        match _h : openGeneric? s with
        | none => none
        | some (before, inner) => do
          let name ← segmentName? before
          if isOneArgument (trim inner) then
            let path ← go (trim inner)
            return name :: path
          else none
      else do
        return [← segmentName? s]
  termination_by s.length
  decreasing_by
    · have := length_trim_le rest
      simp only [List.length_cons]
      omega
    · subst_vars
      have h₁ := length_of_openGeneric? ‹_›
      have h₂ := length_trim_le inner
      omega

inductive Wrapper where
  | sequence
  | optional
  deriving DecidableEq, Repr

def wrappers : List (String × Wrapper) := [
  ("list", .sequence), ("sequence", .sequence), ("Sequence", .sequence), ("Vec", .sequence),
  ("option", .optional), ("optional", .optional), ("Optional", .optional), ("Option", .optional)]

def canonicalTypes : List (String × FieldType) := [
  ("bool", .ofScalar .bool), ("u8", .ofScalar .u8), ("s8", .ofScalar .s8),
  ("u16", .ofScalar .u16), ("s16", .ofScalar .s16), ("u32", .ofScalar .u32),
  ("s32", .ofScalar .s32), ("u64", .ofScalar .u64), ("s64", .ofScalar .s64),
  ("f32", .ofScalar .f32), ("f64", .ofScalar .f64), ("char", .ofScalar .char),
  ("string", .ofText)]

def aliases : List (String × String) := [
  ("i8", "s8"), ("i16", "s16"), ("i32", "s32"), ("i64", "s64"),
  ("int8", "s8"), ("int16", "s16"), ("int32", "s32"), ("int64", "s64"),
  ("uint8", "u8"), ("uint16", "u16"), ("uint32", "u32"), ("uint64", "u64"),
  ("byte", "u8"), ("rune", "char"), ("float32", "f32"), ("float64", "f64"),
  ("String", "string"), ("str", "string"), ("text", "string"), ("Text", "string")]

def leafType? (name : String) : Option FieldType :=
  canonicalTypes.lookup ((aliases.lookup name).getD name)

inductive TypeTextError where
  | malformed
  | noElement (wrapper : String)
  | unknownType (name : String)
  | unknownGeneric (name : String)
  | unknownElement (name : String)
  | nested
  deriving DecidableEq, Repr

def TypeTextError.detail : TypeTextError → String
  | malformed => "malformed type text"
  | noElement wrapper => wrapper ++ " requires an element type"
  | unknownType name => "unknown type " ++ quote name
  | unknownGeneric name => "unknown generic " ++ quote name
  | unknownElement name => "unknown element type " ++ quote name
  | nested => "nested generics are not supported"

def typeOfText (text : String) : Except TypeTextError FieldType :=
  match segments text with
  | none => .error .malformed
  | some [name] =>
    if (wrappers.lookup name).isSome then .error (.noElement name)
    else match leafType? name with
      | some t => .ok t
      | none => .error (.unknownType name)
  | some [outer, inner] =>
    match wrappers.lookup outer with
    | none => .error (.unknownGeneric outer)
    | some w =>
      match leafType? inner, w with
      | none, _ => .error (.unknownElement inner)
      | some elem, .sequence => .ok elem.sequence
      | some elem, .optional => .ok elem.optional
  | some _ => .error .nested

def classify (record field text : String) : Except Fault FieldType :=
  match typeOfText text with
  | .ok t => .ok t
  | .error e => .error { Fault.unsupportedType record field text with detail := e.detail }

end RecordCodec
