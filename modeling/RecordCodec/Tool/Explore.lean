import RecordCodec.Codec.Dynamic
import RecordCodec.Codec.Literal
import RecordCodec.Tool.Command
import RecordCodec.Tool.HexDump
import RecordCodec.Tool.LineInput

/-!
This module contains the explorer: a session in which a record of a schema is selected, its fields are
filled in, and the record is encoded and decoded again. A session changes by messages. It answers some
of them with an action, whose own message may arrive at any later time. A step that would look up
something that is not there gives `none`.
-/

namespace RecordCodec.Tool

open RecordCodec.Text RecordCodec.Table RecordCodec.Files

inductive Key where
  | char (c : Char)
  | enter
  | tab
  | shiftTab
  | escape
  | up
  | down
  | interrupt
  | backspace
  | delete
  | left
  | right
  | lineStart
  | lineEnd
  /--
  Keys that only an input looks at, by what they change in it: several characters that are typed or
  pasted at once, `ctrl+w` or `ctrl+k`, or the page keys, which change nothing.
  -/
  | passed (edits : List Edit)
  deriving DecidableEq, Repr

namespace Key

def ofName? (name : String) : Option Key :=
  [("enter", enter), ("tab", tab), ("shift+tab", shiftTab), ("esc", escape), ("up", up),
    ("down", down), ("ctrl+c", interrupt), ("backspace", backspace), ("delete", delete),
    ("left", left), ("right", right), ("home", lineStart), ("end", lineEnd)].lookup name

/--
The keys that a line of text stands for: the key that it names, or else its characters. An empty line
is the enter key.
-/
def ofLine (line : String) : List Key :=
  if line == "" then [enter]
  else match ofName? line with
    | some k => [k]
    | none => line.toList.map char

def edits : Key → List Edit
  | char c => [.insert c]
  | backspace => [.backspace]
  | delete => [.delete]
  | left => [.left]
  | right => [.right]
  | lineStart => [.lineStart]
  | lineEnd => [.lineEnd]
  | passed edits => edits
  | _ => []

end Key

inductive Stage where
  | select
  | input
  | result
  deriving DecidableEq, Repr, Inhabited

namespace Stage

def name : Stage → String
  | select => "select"
  | input => "input"
  | result => "result"

end Stage

inductive Problem where
  | schema (f : Fault)
  /-- What is filled in for a field is not a value of it. -/
  | entry (field : String) (e : EntryError)
  deriving Repr

def Problem.message : Problem → String
  | schema f => f.message
  | entry field e => field ++ ": " ++ e.message

def Session.room : Room :=
  ⟨256, by decide⟩

structure Session where
  filename : String
  problem : Option Problem := none
  records : Option (List Binding) := none
  inputs : List LineInput := []
  builder : Builder := .new Session.room
  trip : Option Trip := none
  selected : Nat := 0
  focus : Nat := 0
  stage : Stage := .select

inductive Message where
  | key (k : Key)
  | loaded (r : Except Fault (List Binding))
  | encoded (r : Except Problem Trip)

inductive Action where
  | quit
  | encode
  deriving DecidableEq, Repr

namespace Session

def load (d : Disk) (path : String) : Except Fault (List Binding) := do
  let s ← loadSchema d path
  let plans ← ({} : Compiler).compileAll s.records
  plans.mapM Binding.dynamic

def count (s : Session) : Nat :=
  (s.records.getD []).length

def current? (s : Session) : Option Binding :=
  (s.records.getD [])[s.selected]?

def inputsFor (p : Plan) : List LineInput :=
  p.fields.toList.zipIdx.map fun (f, i) =>
    { prompt := f.name ++ ": ", placeholder := f.type.name, isFocused := i == 0 }

def prepare? (s : Session) : Option Session := do
  let bd ← s.current?
  return { s with inputs := inputsFor bd.plan, focus := 0 }

def moveFocus? (s : Session) (step : Nat) : Option Session := do
  let next := (s.focus + step) % s.inputs.length
  let old ← s.inputs[s.focus]?
  let inputs := s.inputs.set s.focus { old with isFocused := false }
  let new ← inputs[next]?
  return { s with inputs := inputs.set next { new with isFocused := true }, focus := next }

def passKey? (s : Session) (k : Key) : Option Session :=
  if s.stage == .input && !s.inputs.isEmpty then do
    let i ← s.inputs[s.focus]?
    return { s with inputs := s.inputs.set s.focus (k.edits.foldl LineInput.edit i) }
  else some s

def enter? (s : Session) : Option (Session × Option Action) :=
  match s.stage with
  | .select =>
    if s.count == 0 then some (s, none)
    else do
      let s ← s.prepare?
      if s.inputs.isEmpty then return (s, some .encode)
      return ({ s with stage := .input }, none)
  | .input => some (s, some .encode)
  | .result =>
    some ({ s with
      problem := none, stage := if s.inputs.isEmpty then .select else .input }, none)

def escape (s : Session) : Session :=
  match s.stage with
  | .select => s
  | .input => { s with stage := .select, inputs := [] }
  | .result => { s with stage := .select, inputs := [], problem := none }

def previous (s : Session) : Session :=
  if s.stage == .select then { s with selected := s.selected - 1 } else s

def next (s : Session) : Session :=
  if s.stage == .select && s.selected + 1 < s.count then { s with selected := s.selected + 1 } else s

def press? (s : Session) (k : Key) : Option (Session × Option Action) :=
  match k with
  | .interrupt => some (s, some .quit)
  | .enter => s.enter?
  | .escape => some (s.escape, none)
  | .up => (s.previous.passKey? k).map (·, none)
  | .down => (s.next.passKey? k).map (·, none)
  | .char c =>
    if c == 'q' && s.stage != .input then some (s, some .quit)
    else
      let s := if c == 'k' then s.previous else if c == 'j' then s.next else s
      (s.passKey? k).map (·, none)
  | .tab | .shiftTab =>
    if s.stage == .input && 1 < s.inputs.length then
      (s.moveFocus? (if k == .tab then 1 else s.inputs.length - 1)).map (·, none)
    else (s.passKey? k).map (·, none)
  | _ => (s.passKey? k).map (·, none)

def update? (s : Session) : Message → Option (Session × Option Action)
  | .key k => s.press? k
  | .loaded (.error f) => some ({ s with problem := some (.schema f) }, none)
  | .loaded (.ok records) => some ({ s with records := some records }, none)
  | .encoded (.error p) =>
    some ({ s with trip := none, problem := some p, stage := .result }, none)
  | .encoded (.ok trip) =>
    some ({ s with trip := some trip, problem := none, stage := .result }, none)

/--
Encode and decode what is filled in for the record that is selected. The result is the session with
its used builder, and the message to send later, unless the builder gives up.
-/
def encode? (s : Session) : Option (Except BuilderError (Session × Message)) := do
  let bd ← s.current?
  let entries := s.inputs.map fun i => i.text.map Piece.char
  match bd.roundTrip s.builder entries with
  | .ok (builder, trip) => return .ok ({ s with builder }, .encoded (.ok trip))
  | .error (.entry field e) => return .ok (s, .encoded (.error (.entry field e)))
  | .error (.builder e) => return .error e

def respond? (s : Session) (m : Message) : Option (Except BuilderError (Session × Bool)) := do
  match ← s.update? m with
  | (s, none) => return .ok (s, false)
  | (s, some .quit) => return .ok (s, true)
  | (s, some .encode) =>
    match ← s.encode? with
    | .error e => return .error e
    | .ok (s, m) =>
      let (s, _) ← s.update? m
      return .ok (s, false)

/-! Views. -/

def recordLine (p : Plan) : String :=
  let fields := p.fields.toList.map fun f => f.name ++ ": " ++ f.type.name
  p.record ++ " \x7b " ++ ", ".intercalate fields ++ " \x7d"

def selectView (s : Session) : String :=
  let line (bd : Binding) (i : Nat) : String :=
    if i == s.selected then "> " ++ bd.plan.describe else "  " ++ recordLine bd.plan
  "Select a record:\n\n" ++
    String.join ((s.records.getD []).zipIdx.map fun (bd, i) => line bd i ++ "\n") ++
    "\n↑/↓ select • enter fill in • q quit"

def inputView? (s : Session) : Option String := do
  let bd ← s.current?
  let lines ← s.inputs.zipIdx.mapM fun (i, index) => do
    let f ← bd.plan.fields[index]?
    return i.view ++ " " ++ f.type.name ++ "\n"
  return "Encoding " ++ bd.plan.record ++ "\n\n" ++ String.join lines ++
    "\ntab next field • enter encode • esc back"

def resultView? (s : Session) : Option String := do
  let bd ← s.current?
  let outcome := match s.problem with
    | some p => padLines ("Error: " ++ p.message)
    | none =>
      let bytes := (s.trip.map Trip.bytes).getD []
      let fields := (s.trip.map Trip.fields).getD []
      toString bytes.length ++ " bytes\n" ++ padLines (hexDump bytes) ++ "\n" ++
        padLines ("\n".intercalate fields)
  return bd.plan.record ++ " round trip:\n\n" ++ outcome ++
    "\n\nenter edit • esc records • q quit"

def view? (s : Session) : Option String :=
  match s.problem, s.records, s.stage with
  | some p, _, .select | some p, _, .input =>
    some (padLines ("Error: " ++ p.message ++ "\n\nPress q to quit."))
  | _, none, _ => some "Loading schema..."
  | _, some _, stage => do
    let body ← match stage with
      | .select => some s.selectView
      | .input => s.inputView?
      | .result => s.resultView?
    return " leangen explore  " ++ s.filename ++ "\n\n" ++ body

end Session

end RecordCodec.Tool
