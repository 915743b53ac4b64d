import RecordCodec.Log
import RecordCodec.Plan

/-!
This module contains the compiler of record descriptions: it assembles plans and keeps those that it
has assembled.
-/

namespace RecordCodec

/--
The key under which the plan of a record is kept: its name and the names and type texts of its
fields, divided by NUL characters.
-/
def Record.key (r : Record) : String :=
  "\x00".intercalate (r.name :: r.fields.flatMap fun d => [d.name, d.type])

structure Compiler where
  plans : List (String × Plan) := []
  deriving Repr, Inhabited

namespace Compiler

structure Step where
  compiler : Compiler
  result : Except Fault Plan
  log : List LogEntry

def compile (c : Compiler) (r : Record) : Step :=
  match c.plans.lookup r.key with
  | some p => ⟨c, .ok p, []⟩
  | none =>
    match assemble r with
    | .error f =>
      ⟨c, .error f, [⟨"planner", "plan rejected",
        [("record", .text r.name), ("error", .text f.message)]⟩]⟩
    | .ok p =>
      ⟨⟨c.plans ++ [(r.key, p)]⟩, .ok p, [⟨"planner", "plan assembled",
        [("record", .text r.name), ("fields", .number p.fields.size),
          ("padding", .number p.layout.padding)]⟩]⟩

def firstRepeated? (names : List String) : Option String :=
  go [] names
where
  go (seen : List String) : List String → Option String
    | [] => none
    | n :: ns => if seen.contains n then some n else go (n :: seen) ns

def repeatedRecord (name : String) : Fault where
  phase := .plan
  kind := .duplicateField
  record := name
  detail := "record " ++ Text.quote name ++ " declared more than once"

def compileEach (c : Compiler) : List Record → Compiler × Except Fault (List Plan)
  | [] => (c, .ok [])
  | r :: rs =>
    let step := c.compile r
    match step.result with
    | .error f => (step.compiler, .error f)
    | .ok p =>
      match compileEach step.compiler rs with
      | (c', .error f) => (c', .error f)
      | (c', .ok ps) => (c', .ok (p :: ps))

def compileAll (c : Compiler) (rs : List Record) : Except Fault (List Plan) :=
  match firstRepeated? (rs.map (·.name)) with
  | some name => .error (repeatedRecord name)
  | none => (c.compileEach rs).2

end Compiler

end RecordCodec
