import RecordCodec.Emit.Codec
import RecordCodec.Fault
import RecordCodec.Log
import RecordCodec.Source.Format

/-!
This module contains fragments: `fragment` renders the source text of one plan, which is a complete
file with the struct of the record, its constructor and its codec.
-/

namespace RecordCodec.Emit

def header : String :=
  "// Code generated by leangen. DO NOT EDIT."

def fragmentSuffix : String :=
  "_lb_gen.go"

def fragmentName (record : String) : String :=
  Naming.snake (Naming.exported record) ++ fragmentSuffix

/-! Names. -/

def reservedNames : List String :=
  ["Flatten"]

def clash (record earlier field name : String) : Fault where
  phase := .emit
  kind := .duplicateField
  record := record
  path := [field]
  detail := Text.quote earlier ++ " and " ++ Text.quote field ++ " both map to Go field " ++ name

def checkNames (record : String) (seen : List (String × String)) : List String → Except Fault Unit
  | [] => .ok ()
  | field :: fields =>
    let name := Naming.exported field
    match seen.lookup name with
    | some earlier => .error (clash record earlier field name)
    | none =>
      if reservedNames.contains name then .error (.invalidName .emit record field)
      else checkNames record ((name, field) :: seen) fields

/-! Text. -/

def indented (statements : List String) : String :=
  String.join (statements.map ("\n\t" ++ ·))

def structText (c : Codec) : String :=
  let field (f : StructField) : String :=
    f.name ++ " " ++ f.type.spelling ++ " `lb:\"" ++ f.declared ++ "\"`"
  "// " ++ c.name ++ " is the " ++ c.record ++ " record.\ntype " ++ c.name ++ " struct \x7b" ++
    indented (c.fields.map field) ++ "\n\x7d\n"

def constructorText (c : Codec) : String :=
  let inits := if c.inits.isEmpty then "\x7b\x7d"
    else "\x7b" ++ String.join (c.inits.map fun s => "\n\t\t" ++ s.text ++ ",") ++ "\n\t\x7d"
  "// New" ++ c.name ++ " returns a " ++ c.name ++ " holding every field default.\nfunc New" ++
    c.name ++ "() " ++ c.name ++ " \x7b\n\treturn " ++ c.name ++ inits ++ "\n\x7d\n"

def flattenText (c : Codec) : String :=
  "// Flatten resets b and encodes o as a finished table.\nfunc (o *" ++ c.name ++
    ") Flatten(b *flatbuffers.Builder) \x7b\n\tb.Reset()" ++ indented (c.builds.map Build.text) ++
    "\n\tb.StartObject(" ++ toString c.fields.length ++ ")" ++ indented (c.commits.map Commit.text) ++
    "\n\tb.Finish(b.EndObject())\n\x7d\n"

def factoryText (c : Codec) : String :=
  "// " ++ c.name ++ "Factory creates and decodes " ++ c.name ++ " records.\ntype " ++ c.name ++
    "Factory struct\x7b\x7d\n\n// New returns New" ++ c.name ++ "().\nfunc (" ++ c.name ++
    "Factory) New() " ++ c.name ++ " \x7b return New" ++ c.name ++ "() \x7d\n\n" ++
    "// Inflate decodes the table r points at. Missing or invalid fields keep\n" ++
    "// their defaults.\nfunc (" ++ c.name ++ "Factory) Inflate(r table.Reader) " ++ c.name ++
    " \x7b\n\to := New" ++ c.name ++ "()" ++ indented (c.decodes.map Decode.text) ++
    "\n\treturn o\n\x7d\n"

def assertionText (c : Codec) : String :=
  "var (\n\t_ leanbuffer.Adapter = (*" ++ c.name ++ ")(nil)\n\t_ leanbuffer.Factory[" ++ c.name ++
    "] = " ++ c.name ++ "Factory\x7b\x7d\n)\n"

def preambleText (package : String) : String :=
  header ++ "\n\npackage " ++ package ++
    "\n\nimport (\n\tflatbuffers \"github.com/google/flatbuffers/go\"\n\n" ++
    "\t\"github.com/wippyai/leanbuffer\"\n\t\"github.com/wippyai/leanbuffer/table\"\n)\n"

def fragmentText (c : Codec) (package : String) : String :=
  "\n".intercalate [preambleText package, structText c, constructorText c, flattenText c,
    factoryText c, assertionText c]

def fragment (plan : Option Plan) (package : String) : Except Fault String := do
  let some plan := plan | throw (.nilPointer .emit "*planner.Plan")
  checkNames plan.record [] (plan.fields.toList.map Field.name)
  match Source.format? (fragmentText (.ofPlan plan) package) with
  | some text => return text
  | none => throw (.emissionFailure ("fragment for " ++ plan.record ++ " does not parse") (some .system))

def fragmentLog (record text : String) : LogEntry :=
  ⟨"gen", "fragment rendered", [("record", .text record), ("bytes", .number text.utf8ByteSize)]⟩

end RecordCodec.Emit
