import RecordCodec.Source.Printer.File

/-!
This module contains the imports of source files: how they are added, sorted and divided into
paragraphs.
-/

namespace RecordCodec.Source

open RecordCodec.Text

structure Import where
  path : String
  name : String
  deriving DecidableEq, Repr, Inhabited

namespace Import

def le (a b : Import) : Bool :=
  decide (a.path < b.path) || (a.path == b.path && (decide (a.name < b.name) || a.name == b.name))

/--
The paragraph of an import: paths of the standard library come first, then those that start with a
host name, then those of one application platform.
-/
def paragraph (i : Import) : Nat :=
  if "appengine".toList.isPrefixOf i.path.toList then 2
  else if (i.path.toList.takeWhile (· != '/')).contains '.' then 1
  else 0

def leByParagraph (a b : Import) : Bool :=
  decide (a.paragraph < b.paragraph) || (a.paragraph == b.paragraph && a.le b)

def isForeign (i : Import) : Bool :=
  i.path == "C"

end Import

def Spec.toImport? : Spec ε → Option Import
  | .imported name path _ => some ⟨(unquote? path.text).getD "", (name.map Word.text).getD ""⟩
  | _ => none

def Group.imports (g : Group ε) : List Import :=
  g.specs.filterMap Spec.toImport?

def File.imports (f : File) : List Import :=
  f.decls.flatMap fun
    | .group g => g.imports
    | .function .. => []

/-! Sorting. -/

def Spec.moveTo (place : Spec ε) (s : Spec ε) : Spec ε :=
  match s with
  | .imported name path _ =>
    .imported (name.map fun n => ⟨place.start, n.text⟩) ⟨place.start, path.text⟩ (stop place)
  | s => s
where
  stop : Spec ε → Pos
    | .imported _ _ stop => stop
    | _ => .unknown

def sortSpecs (le : Import → Import → Bool) (specs : List (Spec Expr)) : List (Spec Expr) :=
  let sorted := specs.mergeSort fun a b =>
    match a.toImport?, b.toImport? with
    | some a, some b => le a b
    | _, _ => true
  List.zipWith Spec.moveTo specs sorted

def splitSpecs : List (Spec Expr) → List (List (Spec Expr))
  | [] => []
  | s :: specs =>
    match specs, splitSpecs specs with
    | next :: _, run :: runs =>
      if s.stop.line + 1 < next.start.line then [s] :: run :: runs else (s :: run) :: runs
    | _, _ => [[s]]

def File.sortImports (le : Import → Import → Bool) (f : File) : File :=
  { f with decls := f.decls.map fun
    | .group g =>
      if g.keyword == "import" && g.opening.isKnown then
        .group { g with specs := (splitSpecs g.specs).flatMap (sortSpecs le) }
      else .group g
    | d => d }

/-! Adding. -/

def commonComponents : List Char → List Char → Nat
  | a :: as, b :: bs =>
    if a == b then (if a == '/' then 1 else 0) + commonComponents as bs else 0
  | _, _ => 0

def isThirdParty (path : String) : Bool :=
  path.toList.contains '.'

/--
The place where an import goes best: after the import, given by the indices of its declaration and
in it, whose path has the most in common with its own. `best` is how much that is.
-/
structure Place where
  best : Option Nat := none
  decl : Option Nat := none
  spec : Option Nat := none

def Place.tryGroup (path : String) (decl : Nat) (g : Group Expr) (place : Place) : Place :=
  let place := if g.specs.isEmpty && place.best.isNone then { place with decl := some decl } else place
  let step := fun ((place, seenThirdParty) : Place × Bool) ((i, spec) : Import × Nat) =>
    let common := commonComponents i.path.toList path.toList
    let isBetter := place.best.all (· < common) ||
      (place.best == some 0 && !seenThirdParty && isThirdParty path)
    (if isBetter then ⟨some common, some decl, some spec⟩ else place,
      seenThirdParty || isThirdParty i.path)
  (g.imports.zipIdx.foldl step (place, false)).1

/--
The index of the last import declaration, and the place where an import goes best. Imports of
foreign code are left alone.
-/
def File.place (f : File) (path : String) : Option Nat × Place :=
  f.decls.zipIdx.foldl (fun (last, place) (d, i) =>
    match d with
    | .group g =>
      if g.keyword != "import" then (last, place)
      else if g.imports.any Import.isForeign then (some i, place)
      else (some i, place.tryGroup path i g)
    | .function .. => (last, place)) (none, {})

/--
Insert an import into a declaration after a given number of imports. It gets the position of that
before it, so that both are in one run, and the parentheses follow the number of imports.
-/
def Group.insertImport (g : Group Expr) (at? : Option Nat) (i : Import) : Group Expr :=
  let index := match at? with
    | some spec => spec + 1
    | none => 0
  let pos := if index == 0 then g.pos else (g.specs[index - 1]?.map Spec.start).getD g.pos
  let name := if i.name.isEmpty then none else some ⟨pos, i.name⟩
  let specs := g.specs.insertIdx index (.imported name ⟨pos, quote i.path⟩ pos)
  let opening := match specs with
    | [_] => .unknown
    | first :: _ => if g.opening.isKnown then g.opening else first.start
    | [] => g.opening
  { g with specs := specs, opening := opening }

def Spec.movePath (pos : Pos) : Spec ε → Spec ε
  | .imported name path stop => .imported name ⟨pos, path.text⟩ stop
  | s => s

def mergeImports (decls : List Decl) : List Decl :=
  match decls.findIdx? isMergeable, decls.find? isMergeable with
  | some i, some (.group first) =>
    let others := (decls.drop (i + 1)).filter isMergeable
    let moved := others.flatMap fun
      | .group g => g.specs.map (Spec.movePath first.pos)
      | .function .. => []
    decls.take i ++ .group { first with specs := first.specs ++ moved } ::
      (decls.drop (i + 1)).filter (!isMergeable ·)
  | _, _ => decls
where
  isMergeable : Decl → Bool
    | .group g => g.keyword == "import" && !g.imports.any Import.isForeign
    | .function .. => false

def File.addImport (f : File) (i : Import) : File :=
  if f.imports.contains i then f
  else
    let (last, place) := f.place i.path
    let decls := match place.decl with
      | some index => f.decls.modify index fun
        | .group g => .group (g.insertImport place.spec i)
        | d => d
      | none =>
        let pos := match last.bind (f.decls[·]?) with
          | some d => d.stop
          | none => f.pos
        let g : Group Expr := ⟨none, pos, "import", .unknown, [], .unknown⟩
        f.decls.insertIdx (last.map (· + 1) |>.getD 0) (.group (g.insertImport none i))
    { f with decls := mergeImports decls, size := f.size + 1 }

/-! Paragraphs. -/

/--
The paths of the imports that need a blank line before them: those that belong to another paragraph
than the import above them.
-/
def File.paragraphStarts (f : File) : List String :=
  (f.decls.takeWhile Decl.isImport).flatMap fun
    | .group g => (splitByPath g.specs).flatMap fun run => starts none (run.filterMap Spec.toImport?)
    | .function .. => []
where
  pathLine : Spec Expr → Nat
    | .imported _ path _ => path.pos.line
    | _ => 0
  splitByPath : List (Spec Expr) → List (List (Spec Expr))
    | [] => []
    | s :: specs =>
      match specs, splitByPath specs with
      | next :: _, run :: runs =>
        if pathLine s + 1 < pathLine next then [s] :: run :: runs else (s :: run) :: runs
      | _, _ => [[s]]
  starts (last : Option Nat) : List Import → List String
    | [] => []
    | i :: is =>
      let own := i.paragraph
      (if last.any (· != own) then [i.path] else []) ++ starts (some own) is

/--
The path of the import on a line of a group, if there is one: after white space and possibly a name
of ASCII letters, digits, underscores and periods, the shortest text in quotes that is not empty.
-/
def importOnLine? (line : List Char) : Option String := do
  let rest := line.dropWhile isSpace
  if rest.length == line.length then failure
  match quoted? rest with
  | some path => return path
  | none =>
    let after := rest.dropWhile isNameChar
    if after.length == rest.length then failure
    let path := after.dropWhile isSpace
    if path.length == after.length then failure
    quoted? path
where
  isSpace (c : Char) : Bool := c == ' ' || c == '\t' || c == '\r' || c == Char.ofNat 12
  isNameChar (c : Char) : Bool := c.isAlphanum || c == '_' || c == '.'
  quoted? : List Char → Option String
    | '"' :: c :: cs =>
      let path := c :: cs.takeWhile (· != '"')
      if (cs.dropWhile (· != '"')).isEmpty then none else some (String.ofList path)
    | _ => none

/--
Put blank lines before the imports with given paths, in order. The imports start with the first line
that starts with their keyword and end where another declaration starts.
-/
def spaceImports (starts : List String) (inImports : Option Bool) :
    List (List Char) → List (List Char)
  | [] => []
  | line :: lines =>
    let inImports := if inImports.isNone && startsWith "import" line then some true else inImports
    let inImports :=
      if inImports == some true && ["var", "func", "const", "type"].any (startsWith · line) then
        some false
      else inImports
    match starts, if inImports == some true then importOnLine? line else none with
    | start :: more, some path =>
      if path == start then [] :: line :: spaceImports more inImports lines
      else line :: spaceImports starts inImports lines
    | _, _ => line :: spaceImports starts inImports lines
where
  startsWith (word : String) (line : List Char) : Bool := word.toList.isPrefixOf line

end RecordCodec.Source
