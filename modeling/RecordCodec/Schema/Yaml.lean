import RecordCodec.Schema.Basic
import RecordCodec.Schema.YamlNode

/-!
This module contains the schemas that YAML texts describe. Unknown keys and keys that occur twice are
refused.
-/

namespace RecordCodec.Schema.Yaml

namespace Node

def isNull : Node → Bool
  | scalar text true => ["", "~", "null", "Null", "NULL"].contains text
  | _ => false

def sameKey : Node → Node → Bool
  | scalar a _, scalar b _ => a == b
  | sequence _, sequence _ => true
  | mapping _, mapping _ => true
  | _, _ => false

def text? : Node → Option String
  | scalar text isPlain => some (if (scalar text isPlain).isNull then "" else text)
  | _ => none

def keysDiffer : List (Node × Node) → Bool
  | [] => true
  | (key, _) :: entries => !entries.any (key.sameKey ·.1) && keysDiffer entries

def fill? (set : α → String → Node → Option α) (a : α) : Node → Option α
  | mapping entries =>
    if keysDiffer entries then
      entries.foldlM (fun a (key, value) =>
        match key with
        | scalar text _ => if key.isNull then some a else set a text value
        | _ => none) a
    else none
  | _ => none

def elements? (element : Node → Option α) : Node → Option (List α)
  | sequence items => (items.filter (!·.isNull)).mapM element
  | node => if node.isNull then some [] else none

def declaration? (node : Node) : Option Declaration :=
  node.fill? (fun d key value =>
    match key with
    | "name" => value.text?.map fun name => { d with name }
    | "type" => value.text?.map fun type => { d with type }
    | _ => none) ⟨"", ""⟩

def record? (node : Node) : Option Record :=
  node.fill? (fun r key value =>
    match key with
    | "name" => value.text?.map fun name => { r with name }
    | "fields" => (value.elements? declaration?).map fun fields => { r with fields }
    | _ => none) ⟨"", []⟩

def schema? (node : Node) : Option Schema :=
  if node.isNull then some {}
  else node.fill? (fun s key value =>
    match key with
    | "package" => value.text?.map fun package => { s with package }
    | "output" => value.text?.map fun output => { s with output }
    | "records" => (value.elements? record?).map fun records => { s with records }
    | _ => none) {}

end Node

def schema? (text : String) : Option Schema := do
  match ← parse? text with
  | none => some {}
  | some node => node.schema?

end RecordCodec.Schema.Yaml
