import RecordCodec.Fault
import RecordCodec.Files.Path
import RecordCodec.Plan
import RecordCodec.Text.Case
import RecordCodec.Text.Quoted

/-!
This module contains schemas: record descriptions with the options of a generation, as they are
written in schema files.
-/

namespace RecordCodec

open RecordCodec.Text

structure Schema where
  package : String := ""
  output : String := ""
  records : List Record := []
  deriving DecidableEq, Repr, Inhabited

namespace Schema

inductive Format where
  | yaml
  | toml
  deriving DecidableEq, Repr, Inhabited

namespace Format

def name : Format → String
  | yaml => "yaml"
  | toml => "toml"

def ofPath? (path : String) : Option Format :=
  match String.ofList ((Files.extensionOf path).toList.map toLower) with
  | ".yaml" | ".yml" => some yaml
  | ".toml" => some toml
  | _ => none

end Format

/-! Faults. -/

def unknownExtension (path : String) : Fault where
  phase := .load
  kind := .invalidInput
  path := [path]
  detail := "unknown schema extension " ++ quote (Files.extensionOf path) ++
    ", want .yaml, .yml or .toml"

def malformed (format : Format) : Fault where
  phase := .load
  kind := .invalidInput
  detail := "malformed " ++ (format.name.map Char.toUpper) ++ " schema"
  cause := some .system

def unknownKey (key : String) : Fault :=
  .invalidInput .load ("unknown key " ++ quote key)

def noRecords : Fault where
  phase := .load
  kind := .emptyRecord
  detail := "schema declares no records"

end Schema

end RecordCodec
