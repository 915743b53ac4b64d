import RecordCodec.Codec.Dynamic
import RecordCodec.Compiler
import RecordCodec.Emit.Fragment
import RecordCodec.Emit.Merge
import RecordCodec.Files.Replace

/-!
This module contains the journal of a whole run: records are compiled, bound and emitted one after the
other, and what was emitted is merged and written.
-/

namespace RecordCodec.Tool

open RecordCodec.Files

structure Journal where
  compiler : Compiler := {}
  fragments : List String := []
  entries : List LogEntry := []
  failure : Option Fault := none

namespace Journal

def note (j : Journal) (entries : List LogEntry) : Journal :=
  { j with entries := j.entries ++ entries }

def fail (j : Journal) (f : Fault) : Journal :=
  { j with failure := some f }

def bind (j : Journal) (p : Plan) : Journal :=
  match Binding.dynamic p with
  | .error f => j.fail f
  | .ok bd => j.note [bd.log]

def emit (j : Journal) (package : String) (p : Plan) : Journal :=
  match Emit.fragment (some p) package with
  | .error f => j.fail f
  | .ok text =>
    { j.note [Emit.fragmentLog p.record text] with fragments := j.fragments ++ [text] }

def add (package : String) (j : Journal) (r : Record) : Journal :=
  let step := j.compiler.compile r
  let j := { j.note step.log with compiler := step.compiler }
  match step.result with
  | .error f => j.fail f
  | .ok p => (j.bind p).emit package p

def run (names : Nat → String) (package path : String) (records : List Record) :
    StateM Disk Journal := do
  let j := records.foldl (add package) {}
  match Emit.mergeLogged package j.fragments with
  | .error f => return j.fail f
  | .ok (text, entry) =>
    let j := j.note [entry]
    match ← (replaceFiles names [(path, text)]).run with
    | .error f => return j.fail f
    | .ok () => return j.note (replaceLog [(path, text)])

end Journal

end RecordCodec.Tool
