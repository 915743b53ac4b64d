import RecordCodec.Files.Disk
import RecordCodec.Schema.Toml
import RecordCodec.Schema.Yaml

/-!
This module contains the reading of schemas: from texts in a format, and from files.
-/

namespace RecordCodec.Schema

def parse (format : Format) (text : String) : Except Fault Schema := do
  let s ← match format with
    | .yaml =>
      match Yaml.schema? text with
      | some s => pure s
      | none => throw (malformed .yaml)
    | .toml =>
      match Toml.schema? text with
      | some (s, none) => pure s
      | some (_, some key) => throw (unknownKey key)
      | none => throw (malformed .toml)
  if s.records.isEmpty then throw noRecords
  return s

def locate (path : String) (f : Fault) : Fault :=
  if f.path.isEmpty then { f with path := [path] } else f

def load (d : Files.Disk) (path : String) : Except Fault Schema :=
  match Format.ofPath? path with
  | none => .error (unknownExtension path)
  | some format =>
    match d.read? path with
    | none => .error (.notFound .load "schema" path (some .system))
    | some text => (parse format text).mapError (locate path)

end RecordCodec.Schema
