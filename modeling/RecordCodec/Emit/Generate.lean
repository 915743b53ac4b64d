import RecordCodec.Compiler
import RecordCodec.Emit.Merge
import RecordCodec.Files.Replace

/-!
This module contains the generation of files: `generate` plans records, renders them and writes one
file for all of them or one for each.
-/

namespace RecordCodec.Emit

open RecordCodec.Files

structure Options where
  package : String := ""
  dir : String := ""
  output : String := ""
  isSplit : Bool := false
  deriving DecidableEq, Repr, Inhabited

def defaultOutput : String :=
  "leanbuffer_gen.go"

def defaultPackage : String :=
  "model"

def Options.withDefaults (o : Options) : Options :=
  { o with
    package := if o.package == "" then defaultPackage else o.package
    dir := if o.dir == "" then "." else o.dir
    output := if o.output == "" then defaultOutput else o.output }

inductive Stop where
  | fault (f : Fault)
  | cancelled
  deriving Repr, Inhabited

def Stop.message : Stop → String
  | fault f => f.message
  | cancelled => "context canceled"

structure Generated where
  plans : List Plan
  files : List (String × String)
  deriving Repr, Inhabited

def takenName (record name : String) : Fault where
  phase := .emit
  kind := .emissionFailure
  record := record
  detail := "fragment " ++ name ++ " is already written by another record"

def splitFiles (o : Options) (files : List (String × String)) : List (Plan × String) →
    Except Fault (List (String × String))
  | [] => .ok files
  | (plan, source) :: rest => do
    let text ← merge o.package [source]
    let path := joinPath o.dir (fragmentName plan.record)
    if (files.lookup path).isSome then throw (takenName plan.record (baseOf path))
    splitFiles o (files ++ [(path, text)]) rest

def outputFiles (o : Options) (plans : List Plan) (fragments : List String) :
    Except Fault (List (String × String)) :=
  if o.isSplit then splitFiles o [] (plans.zip fragments)
  else do return [(joinPath o.dir o.output, ← merge o.package fragments)]

def prepare (o : Options) (isCancelled : Bool) (records : List Record) :
    Except Stop Generated := do
  let plans ← (({} : Compiler).compileAll records).mapError Stop.fault
  if isCancelled && !plans.isEmpty then throw .cancelled
  let fragments ← (plans.mapM fun p => fragment (some p) o.package).mapError Stop.fault
  let files ← (outputFiles o plans fragments).mapError Stop.fault
  return ⟨plans, files⟩

def generate (names : Nat → String) (o : Options) (isCancelled : Bool) (records : List Record) :
    ExceptT Stop (StateM Disk) Generated := do
  let g ← prepare o.withDefaults isCancelled records
  ExceptT.mk do
    match ← (replaceFiles names g.files).run with
    | .ok () => return .ok g
    | .error f => return .error (.fault f)

def mergeFiles (names : Nat → String) (package output : String) (paths : List String) :
    DiskM Unit := do
  let d ← get
  let sources ← paths.mapM fun p =>
    match d.read? p with
    | some text => pure text
    | none => throw (.notFound .load "fragment" p (some .system))
  let text ← merge package sources
  replaceFiles names [(output, text)]

end RecordCodec.Emit
