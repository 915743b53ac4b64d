import RecordCodec.Fault
import RecordCodec.Files.Disk
import RecordCodec.Log

/-!
This module contains the replacement of files: `replaceFiles` gives several files new texts, all of
them or none. Each text is first written to a temporary file beside its target. The temporary files
are then renamed one after the other, and the files that were there before are kept as backups until
all is done.
-/

namespace RecordCodec.Files

abbrev DiskM :=
  ExceptT Fault (StateM Disk)

structure Staged where
  path : String
  temporary : String
  backup : Option String := none
  isCommitted : Bool := false
  deriving DecidableEq, Repr, Inhabited

def refused (step path : String) : Fault :=
  .emissionFailure (step ++ " " ++ path) (some .system)

def temporaryPath (dir name : String) : String :=
  dir ++ "/" ++ name

def stage (path text name : String) : DiskM Staged := do
  let d ← get
  match d.entry? path with
  | some .directory | some (.link _) =>
    throw (.emissionFailure (path ++ " exists and is not a regular file"))
  | _ => pure ()
  let dir := parentOf path
  let (d, isThere) := d.makeDirectories dir
  set d
  unless isThere do throw (refused "create" dir)
  match d.create? (temporaryPath dir name) text with
  | none => throw (refused "create temporary file in" dir)
  | some d =>
    set d
    return { path, temporary := temporaryPath dir name }

def attempt (change : Disk → Option Disk) : DiskM Unit :=
  modify fun d => (change d).getD d

def commit (s : Staged) : DiskM Staged := do
  let d ← get
  let s ← if (d.entry? s.path).isSome then
      let backup := s.temporary ++ ".bak"
      match d.rename? s.path backup with
      | none => throw (refused "back up" s.path)
      | some d =>
        set d
        pure { s with backup := some backup }
    else pure s
  match (← get).rename? s.temporary s.path with
  | some d =>
    set d
    return { s with isCommitted := true }
  | none =>
    if let some backup := s.backup then
      attempt (·.rename? backup s.path)
    throw (refused "rename" s.path)

def undo (s : Staged) : DiskM Unit := do
  if s.isCommitted then
    attempt (·.remove? s.path)
    if let some backup := s.backup then
      attempt (·.rename? backup s.path)
  else attempt (·.remove? s.temporary)

def rollBack (done : List Staged) : DiskM Unit :=
  done.reverse.forM undo

def stageAll (names : Nat → String) (done : List Staged) : List (String × String) →
    DiskM (List Staged)
  | [] => return done
  | (path, text) :: files => do
    let s ← tryCatch (stage path text (names done.length)) fun f => do
      rollBack done
      throw f
    stageAll names (done ++ [s]) files

def commitAll (done : List Staged) : List Staged → DiskM (List Staged)
  | [] => return done
  | s :: rest => do
    let s ← tryCatch (commit s) fun f => do
      rollBack (done ++ s :: rest)
      throw f
    commitAll (done ++ [s]) rest

def dropBackups (done : List Staged) : DiskM Unit :=
  done.forM fun s => do
    if let some backup := s.backup then
      attempt (·.remove? backup)

def writeOrder (files : List (String × String)) : List (String × String) :=
  let paths := (files.map Prod.fst).mergeSort fun a b => decide (a ≤ b)
  paths.eraseReps.filterMap fun path => (files.reverse.find? (·.1 == path))

def replaceFiles (names : Nat → String) (files : List (String × String)) : DiskM Unit := do
  let staged ← stageAll names [] (writeOrder files)
  let done ← commitAll [] staged
  dropBackups done

def replaceLog (files : List (String × String)) : List LogEntry :=
  (writeOrder files).map fun (path, text) =>
    ⟨"gen", "file written", [("path", .text path), ("bytes", .number text.utf8ByteSize)]⟩

end RecordCodec.Files
