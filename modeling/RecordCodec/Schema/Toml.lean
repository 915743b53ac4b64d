import RecordCodec.Schema.Basic
import RecordCodec.Schema.TomlDocument

/-!
This module contains the schemas that TOML texts describe. Keys match the names of a schema in any
case. Keys that mean nothing are passed over at first, and the first of them is reported at the end.
-/

namespace RecordCodec.Schema.Toml

open RecordCodec.Text

abbrev Reading :=
  StateT (List String) Option

def nameOf? (names : List String) (key : String) : Option String :=
  if names.contains key then some key
  else names.find? fun n => equalFold n.toList key.toList

def fill (names : List String) (set : α → String → Key → Value → Reading α) (context : Key) (a : α)
    (v : Value) : Reading α :=
  match v with
  | .table entries =>
    entries.foldlM (fun a (key, value) => do
      match nameOf? names key with
      | none => return a
      | some name =>
        let k := context ++ [key]
        modify (k.text :: ·)
        set a name k value) a
  | _ => failure

def readText : Value → Reading String
  | .text s => return s
  | _ => failure

def readElements (element : Value → Reading α) : Value → Reading (List α)
  | .array items => items.mapM element
  | .tables ts => ts.mapM (element <| .table ·)
  | _ => failure

def readDeclaration (context : Key) : Value → Reading Declaration :=
  fill ["name", "type"] (fun d name _ value => do
    match name with
    | "name" => return { d with name := ← readText value }
    | _ => return { d with type := ← readText value }) context ⟨"", ""⟩

def readRecord (context : Key) : Value → Reading Record :=
  fill ["name", "fields"] (fun r name k value => do
    match name with
    | "name" => return { r with name := ← readText value }
    | _ => return { r with fields := ← readElements (readDeclaration k) value }) context ⟨"", []⟩

def readSchema : Value → Reading Schema :=
  fill ["package", "output", "records"] (fun s name k value => do
    match name with
    | "package" => return { s with package := ← readText value }
    | "output" => return { s with output := ← readText value }
    | _ => return { s with records := ← readElements (readRecord k) value }) [] {}

def schema? (text : String) : Option (Schema × Option String) := do
  let (root, keys) ← document? text
  let (s, known) ← (readSchema (.table root)).run []
  return (s, (keys.map Key.text).find? (!known.contains ·))

end RecordCodec.Schema.Toml
