import RecordCodec.Files.Path
import RecordCodec.Text.Utf8

/-!
This module contains disks: trees of directories, files and symbolic links, with the operations that
programs perform on them by path texts. An operation that fails gives `none`.
-/

namespace RecordCodec.Files

open RecordCodec.Text

abbrev Place :=
  List String

inductive Entry where
  | directory
  | file (text : String)
  | link (target : String)
  deriving DecidableEq, Repr, Inhabited

structure Disk where
  entries : List (Place × Entry) := []
  home : Place := []
  deriving DecidableEq, Repr, Inhabited

namespace Disk

/-! Places. -/

def get? (d : Disk) (p : Place) : Option Entry :=
  if p.isEmpty then some .directory else d.entries.lookup p

def put (d : Disk) (p : Place) (e : Entry) : Disk :=
  { d with entries := d.entries.filter (·.1 != p) ++ [(p, e)] }

def erase (d : Disk) (p : Place) : Disk :=
  { d with entries := d.entries.filter (·.1 != p) }

def move (d : Disk) (old new : Place) : Disk :=
  { d with entries := (d.erase new).entries.map fun (p, e) =>
      if old.isPrefixOf p then (new ++ p.drop old.length, e) else (p, e) }

def isLeaf (d : Disk) (p : Place) : Bool :=
  d.entries.all fun (q, _) => q == p || !p.isPrefixOf q

/-! Path texts. -/

def maxLinks : Nat := 40

def maxPathSize : Nat := 4096

def maxNameSize : Nat := 255

def isName (name : String) : Bool :=
  decide ((utf8Bytes name).length ≤ maxNameSize)

def isPath (path : String) : Bool :=
  path != "" && !path.toList.contains '\x00' && decide ((utf8Bytes path).length < maxPathSize)

inductive Arrival where
  | directory (dir : Place)
  | file (text : String)
  | link (dir : Place) (target : String) (rest : List String)
  | nowhere
  deriving DecidableEq, Repr

def follow (d : Disk) (dir : Place) : List String → Arrival
  | [] => .directory dir
  | name :: rest =>
    if name == "" || name == "." then d.follow dir rest
    else if name == ".." then d.follow dir.dropLast rest
    else if !isName name then .nowhere
    else match d.get? (dir ++ [name]) with
      | some .directory => d.follow (dir ++ [name]) rest
      | some (.file text) => if rest.isEmpty then .file text else .nowhere
      | some (.link target) => .link dir target rest
      | none => .nowhere

def arrive (d : Disk) : (links : Nat) → (dir : Place) → List String → Arrival
  | links, dir, names =>
    match d.follow dir names, links with
    | .link dir target rest, links + 1 =>
      if isPath target then
        d.arrive links (if isRooted target then [] else dir) (components target ++ rest)
      else .nowhere
    | .link .., 0 => .nowhere
    | arrival, _ => arrival

def status (d : Disk) (path : String) : Arrival :=
  if isPath path then
    d.arrive maxLinks (if isRooted path then [] else d.home) (components path)
  else .nowhere

def directory? (d : Disk) (path : String) : Option Place :=
  match d.status path with
  | .directory p => some p
  | _ => none

def read? (d : Disk) (path : String) : Option String :=
  match d.status path with
  | .file text => some text
  | _ => none

/--
The place that the last name of a path text means in its directory. Slashes after the name do not
count. The name may be free.
-/
def place? (d : Disk) (path : String) : Option Place :=
  let names := ((components path).reverse.dropWhile (· == "")).reverse
  match names.getLast? with
  | none => none
  | some name =>
    if !isPath path || name == "." || name == ".." || !isName name then none
    else match d.arrive maxLinks (if isRooted path then [] else d.home) names.dropLast with
      | .directory dir => some (dir ++ [name])
      | _ => none

def endsWithSlash (path : String) : Bool :=
  (components path).getLast? == some ""

def entry? (d : Disk) (path : String) : Option Entry :=
  match (components path).getLast? with
  | some "" | some "." | some ".." => (d.directory? path).map fun _ => .directory
  | _ => (d.place? path).bind d.get?

/-! Changes. -/

def makeDirectory? (d : Disk) (path : String) : Option Disk := do
  let p ← d.place? path
  if (d.get? p).isSome then none else some (d.put p .directory)

/--
Make the directories that a list of path texts names, unless they are there. The result tells
whether they are all there.
-/
def makeEach (d : Disk) : List String → Disk × Bool
  | [] => (d, true)
  | path :: paths =>
    match d.status path with
    | .directory _ => d.makeEach paths
    | .nowhere =>
      match d.makeDirectory? path with
      | some d => d.makeEach paths
      | none => (d, false)
    | _ => (d, false)

/--
Make a directory and all that it stands in, unless they are there. The result tells whether it is
there. Directories stay that were made before a failure.
-/
def makeDirectories (d : Disk) (path : String) : Disk × Bool :=
  let names := components path
  let starts := (List.range names.length).map fun i => "/".intercalate (names.take (i + 1))
  d.makeEach (starts.filter (· != ""))

def create? (d : Disk) (path text : String) : Option Disk := do
  let p ← d.place? path
  if (d.get? p).isSome || endsWithSlash path then none else some (d.put p (.file text))

def remove? (d : Disk) (path : String) : Option Disk := do
  let p ← d.place? path
  let e ← d.get? p
  if e == .directory then if d.isLeaf p then some (d.erase p) else none
  else if endsWithSlash path then none else some (d.erase p)

/--
Rename an entry. A file or link may take the place of another one, a directory may not, and nothing
takes the place of a directory or moves into itself.
-/
def rename? (d : Disk) (old new : String) : Option Disk := do
  let p ← d.place? old
  let e ← d.get? p
  let q ← d.place? new
  let isDirectory := e == .directory
  if d.entry? new == some .directory then none
  else if !isDirectory && (endsWithSlash old || endsWithSlash new) then none
  else if p == q then some d
  else if isDirectory && (p.isPrefixOf q || (d.get? q).isSome) then none
  else some (d.move p q)

/-! Listing. -/

def listing (d : Disk) : List (String × Entry) :=
  let below := d.entries.filterMap fun (p, e) =>
    if d.home.isPrefixOf p && p != d.home then
      some ("/".intercalate (p.drop d.home.length), e)
    else none
  below.mergeSort fun a b => decide (a.1 ≤ b.1)

end Disk

end RecordCodec.Files
