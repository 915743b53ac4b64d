import RecordCodec.Tool.Explore

/-!
This module contains the program: it reads the files that the command line names, carries the command
out on a disk of them, and writes what changed.
-/

namespace RecordCodec.Tool

open RecordCodec.Files

def readText? (path : String) : IO (Option String) := do
  try
    return some (← IO.FS.readFile path)
  catch _ => return none

def readDisk (paths : List String) : IO Disk := do
  let home := components (toString (← IO.currentDir))
  let mut d := (Disk.makeDirectories {} ("/" ++ "/".intercalate home)).1
  d := { d with home }
  for path in paths do
    if let some text ← readText? path then
      d := (d.makeDirectories (parentOf path)).1
      if let some place := d.place? path then
        d := d.put place (.file text)
  return d

def writeChanges (before after : Disk) : IO Unit := do
  for (place, entry) in after.entries do
    unless before.get? place == some entry do
      let path := "/" ++ "/".intercalate place
      match entry with
      | .directory => IO.FS.createDirAll path
      | .link _ => pure ()
      | .file text =>
        let temporary := path ++ ".tmp"
        IO.FS.writeFile temporary text
        IO.FS.rename temporary path

def runSession (d : Disk) (path : String) : IO Unit := do
  let input ← IO.getStdin
  let mut session : Session := { filename := path }
  let mut messages : List Message := [.loaded (Session.load d path)]
  let mut isOver := false
  while !isOver do
    for m in messages do
      match session.respond? m with
      | some (.ok (s, quits)) =>
        session := s
        isOver := isOver || quits
      | _ => throw (IO.userError "the session cannot go on")
    unless isOver do
      IO.println ((session.view?).getD "")
      let line ← input.getLine
      if line.isEmpty then isOver := true
      messages := (Key.ofLine (line.trimAscii.toString)).map Message.key

def usage : String :=
  "Usage: " ++ toolName ++ " [" ++ "|".intercalate (Command.all.map Command.name) ++ "] [flags]\n"

def runProgram (args : List String) : IO UInt32 := do
  let before ← readDisk (inputPaths args)
  let isTerminal ← (← IO.getStdout).isTty
  let names (i : Nat) : String := "." ++ toolName ++ "-" ++ toString i
  let (result, after) := (run names isTerminal args).run.run before
  match result with
  | .error failure =>
    IO.eprintln ("Error: " ++ failure.message)
    return 1
  | .ok outcome =>
    writeChanges before after
    match outcome with
    | .print text => IO.print text
    | .help => IO.print usage
    | .explore path => runSession before path
    return 0

end RecordCodec.Tool

def main (args : List String) : IO UInt32 :=
  RecordCodec.Tool.runProgram args
