import RecordCodec.Plan
import RecordCodec.Struct.HostType
import RecordCodec.Struct.Tag

/-!
This module contains the discovery of records: what record a struct type stands for.
-/

namespace RecordCodec

namespace HostType

def builtinText (asChar : Bool) (b : Builtin) : Option String :=
  match b with
  | .string => some "string"
  | .int32 => some (if asChar then "char" else "s32")
  | b => b.scalar?.map Scalar.name

def typeText (asChar : Bool) (t : HostType) : String :=
  go t.spelling t
where
  /-- A declared type has the type text of what it holds, or else its own spelling. -/
  go (spelled : String) : HostType → String
    | builtin b => (builtinText asChar b).getD spelled
    | slice elem => "list<" ++ go elem.spelling elem ++ ">"
    | pointer elem => "option<" ++ go elem.spelling elem ++ ">"
    | named _ u => go spelled u
    | _ => spelled

def name? : HostType → Option String
  | named name _ => some (String.ofList (unqualified name.toList))
  | _ => none
where
  unqualified (cs : List Char) : List Char :=
    (go 0 cs.reverse).reverse
  go (depth : Int) : List Char → List Char
    | [] => []
    | c :: cs =>
      if c == '.' && depth == 0 then []
      else
        let depth := if c == ']' then depth + 1 else if c == '[' then depth - 1 else depth
        c :: go depth cs

def pointee : HostType → HostType
  | pointer t => t.pointee
  | named name u =>
    match u.underlying with
    | pointer _ => u.pointee
    | _ => named name u
  | t => t

end HostType

namespace Record

/--
The declaration of a struct field, unless it is kept out of the record. Without a name in its tag it
is declared under its own name in lower case with underscores.
-/
def declaration? (m : Member HostType) : Option Declaration :=
  let entry := Tag.entry m.tag
  if !m.isExported || entry.isSkipped then none
  else
    some {
      name := if entry.name == "" then Naming.snake m.name else entry.name
      type := m.type.typeText (entry.options.contains "char") }

def notStruct (type : Option HostType) : Fault where
  phase := .load
  kind := .typeMismatch
  hostType := (type.map HostType.spelling).getD "<nil>"
  detail := "expected a struct"

def anonymous (type : HostType) : Fault where
  phase := .load
  kind := .invalidName
  hostType := type.spelling
  detail := "anonymous structs have no record name"

def ofHostType (type : Option HostType) : Except Fault Record := do
  let type := type.map HostType.pointee
  let some (t, members) := type.bind fun t => t.members?.map (t, ·) | throw (notStruct type)
  let some name := t.name? | throw (anonymous t)
  return ⟨name, members.filterMap declaration?⟩

def ofHostTypes (types : List (Option HostType)) : Except Fault (List Record) :=
  types.mapM ofHostType

end Record

end RecordCodec
