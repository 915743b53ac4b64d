import RecordCodec.Emit.Generate
import RecordCodec.Schema.Load
import RecordCodec.Tool.Flags
import RecordCodec.Tool.PlanReport

/-!
This module contains the commands of the tool: `run` carries out a command line on a disk.
-/

namespace RecordCodec.Tool

open RecordCodec.Text RecordCodec.Files

inductive Command where
  | gen
  | plan
  | check
  | merge
  | explore
  | help
  | completion
  deriving DecidableEq, Repr, Inhabited

namespace Command

def name : Command → String
  | gen => "gen"
  | plan => "plan"
  | check => "check"
  | merge => "merge"
  | explore => "explore"
  | help => "help"
  | completion => "completion"

def all : List Command :=
  [gen, plan, check, merge, explore, help, completion]

def commonFlags : List Flag :=
  [⟨"schema", some 's', false⟩, ⟨"verbose", some 'v', true⟩]

def helpFlag : Flag :=
  ⟨"help", some 'h', true⟩

def ownFlags : Command → List Flag
  | gen => [⟨"out", some 'o', false⟩, ⟨"package", some 'p', false⟩, ⟨"output", none, false⟩,
      ⟨"split", none, true⟩]
  | plan => [⟨"plain", none, true⟩]
  | merge => [⟨"package", some 'p', false⟩, ⟨"out", some 'o', false⟩]
  | _ => []

def flags (c : Command) : List Flag :=
  c.ownFlags ++ commonFlags ++ [helpFlag]

end Command

/-! Outcomes. -/

inductive Failure where
  | fault (f : Fault)
  | usage (message : String)
  deriving Repr, Inhabited

def Failure.message : Failure → String
  | fault f => f.message
  | usage message => message

/--
What a command line leads to: a text to print, a session of the explorer with a schema file, or a
request for help.
-/
inductive Outcome where
  | print (text : String)
  | explore (path : String)
  | help
  deriving DecidableEq, Repr, Inhabited

abbrev RunM :=
  ExceptT Failure (StateM Disk)

def checked (r : Except Fault α) : RunM α :=
  match r with
  | .ok a => return a
  | .error f => throw (.fault f)

def onDisk (step : DiskM α) : RunM α :=
  ExceptT.mk do
    match ← step.run with
    | .ok a => return .ok a
    | .error f => return .error (.fault f)

/-! Commands. -/

def noSchema : Fault :=
  .invalidInput .load "no schema given, use --schema"

def loadSchema (d : Disk) (path : String) : Except Fault Schema :=
  if path == "" then .error noSchema else Schema.load d path

def schemaOf (a : Arguments) : RunM Schema := do
  checked (loadSchema (← get) (a.value "schema" ""))

def firstGiven (texts : List String) : String :=
  (texts.find? (· != "")).getD ""

def runGen (names : Nat → String) (a : Arguments) : RunM String := do
  let s ← schemaOf a
  let options : Emit.Options := {
    package := firstGiven [a.value "package" "", s.package]
    dir := a.value "out" "."
    output := firstGiven [a.value "output" "", s.output]
    isSplit := a.isOn "split" }
  let g ← ExceptT.mk do
    match ← (Emit.generate names options false s.records).run with
    | .ok g => return .ok g
    | .error (.fault f) => return .error (Failure.fault f)
    | .error .cancelled => return .error (.usage Emit.Stop.cancelled.message)
  return String.join ((writeOrder g.files).map fun (path, _) => path ++ "\n")

def runPlan (isTerminal : Bool) (a : Arguments) : RunM String := do
  let s ← schemaOf a
  let plans ← checked (({} : Compiler).compileAll s.records)
  return if isTerminal && !a.isOn "plain" then styledReport plans else plainReport plans

def runCheck (a : Arguments) : RunM String := do
  let s ← schemaOf a
  let plans ← checked (({} : Compiler).compileAll s.records)
  let package := firstGiven [s.package, Emit.defaultPackage]
  let fragments ← checked (plans.mapM fun p => Emit.fragment (some p) package)
  discard (checked (Emit.merge package fragments))
  return "ok: " ++ toString plans.length ++ " records\n"

def runMerge (names : Nat → String) (a : Arguments) : RunM String := do
  onDisk (Emit.mergeFiles names (a.value "package" "") (a.value "out" Emit.defaultOutput) a.operands)
  return ""

/-! Command lines. -/

def toolName : String := "leangen"

def distance (a b : List UInt8) : Nat :=
  (a.foldl step (List.range (b.length + 1))).getLast?.getD 0
where
  step (row : List Nat) (x : UInt8) : List Nat :=
    match row with
    | [] => []
    | first :: rest => (first + 1) :: go x (first + 1) first rest b
  go (x : UInt8) (left diagonal : Nat) : List Nat → List UInt8 → List Nat
    | above :: row, y :: ys =>
      let n := if x == y then diagonal else min above (min left diagonal) + 1
      n :: go x n above row ys
    | _, _ => []

def suggestions (word : String) : List String :=
  let typed := word.toList.map toLower
  (Command.all.map Command.name).filter fun name =>
    distance (utf8Bytes (String.ofList typed)) (utf8Bytes name) ≤ 2 || typed.isPrefixOf name.toList

def unknownCommand (word parent : String) : String :=
  "unknown command " ++ quote word ++ " for " ++ quote parent

def hint (word : String) : String :=
  match suggestions word with
  | [] => ""
  | names => "\n\nDid you mean this?\n" ++ String.join (names.map fun n => "\t" ++ n ++ "\n")

def findCommand (args : List String) : Except Failure (Option Command × List String) :=
  match wordsOf Command.commonFlags args with
  | [] => .ok (none, args)
  | word :: _ =>
    match Command.all.find? (·.name == word) with
    | some c => .ok (some c, dropWord Command.commonFlags word args)
    | none => .error (.usage (unknownCommand word toolName ++ hint word))

def parseArguments (flags : List Flag) (args : List String) : Except Failure Arguments :=
  (parseFlags flags args.length {} args).mapError (.usage ·.message)

def checkOperands (c : Command) (a : Arguments) : Except Failure Unit :=
  match c, a.operands with
  | .merge, [] => .error (.usage "requires at least 1 arg(s), only received 0")
  | .merge, _ => .ok ()
  | c, word :: _ => .error (.usage (unknownCommand word (toolName ++ " " ++ c.name)))
  | _, [] => .ok ()

def inputPaths (args : List String) : List String :=
  match findCommand args with
  | .ok (some c, rest) =>
    match parseArguments c.flags rest with
    | .ok a => (a.value "schema" "" :: a.operands).filter (· != "")
    | .error _ => []
  | _ => []

/--
Carry out a command line. `names` gives the names of temporary files, which need to be free, and the
flag says whether the output is read on a terminal.
-/
def run (names : Nat → String) (isTerminal : Bool) (args : List String) : RunM Outcome := do
  let (command, rest) ← findCommand args
  match command with
  | none =>
    discard (parseArguments (Command.commonFlags ++ [Command.helpFlag]) rest)
    return .help
  | some .help | some .completion => return .help
  | some c =>
    let a ← parseArguments c.flags rest
    if a.isOn "help" then return .help
    checkOperands c a
    match c with
    | .gen => .print <$> runGen names a
    | .plan => .print <$> runPlan isTerminal a
    | .check => .print <$> runCheck a
    | .merge => .print <$> runMerge names a
    | _ =>
      let path := a.value "schema" ""
      if path == "" then throw (.fault noSchema)
      return .explore path

end RecordCodec.Tool
