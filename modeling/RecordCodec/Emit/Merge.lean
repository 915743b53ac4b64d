import RecordCodec.Fault
import RecordCodec.Log
import RecordCodec.Source.Format
import RecordCodec.Emit.Fragment

/-!
This module contains the merging of source files: `merge` makes one file of several, with the union
of their imports and each of their declarations once.
-/

namespace RecordCodec.Emit

open RecordCodec.Text RecordCodec.Source

/-! Declarations. -/

def between (source : List UInt8) (start stop : Pos) : String :=
  showBytes ((source.drop start.offset).take (stop.offset - start.offset))

def receiverName : Expr → String
  | .star _ x => receiverName x
  | .index x _ _ _ => receiverName x
  | .name w => w.text
  | _ => "?"

def declaredNames : Spec Expr → List String
  | .type name _ _ _ => [name.text]
  | .value names _ _ _ => (names.map Word.text).filter (· != "_")
  | .imported .. => []

def declarationKey? : Decl → Option String
  | .function _ receiver name _ _ =>
    match receiver.bind (·.entries.head?) with
    | some entry => some ("method " ++ receiverName entry.type ++ "." ++ name.text)
    | none => some ("func " ++ name.text)
  | .group g =>
    match g.specs.flatMap declaredNames with
    | [] => none
    | names => some (g.keyword ++ " " ++ ",".intercalate names)

structure Excerpt where
  key : String
  text : String
  deriving DecidableEq, Repr, Inhabited

namespace Excerpt

def ofFile (source : String) (f : File) : List Excerpt :=
  let bytes := utf8Bytes source
  (f.decls.filter (!·.isImport)).map fun d =>
    let text := between bytes (d.doc.getD d.start) d.stop
    ⟨(declarationKey? d).getD text, text⟩

def sameWords (a b : Excerpt) : Bool :=
  words a.text.toList == words b.text.toList

/--
Add a declaration to those before it. One that is there already is kept once; one that declares the
same with other words is an error, which has its key.
-/
def insert (ps : List Excerpt) (p : Excerpt) : Except String (List Excerpt) :=
  match ps.find? (·.key == p.key) with
  | none => .ok (ps ++ [p])
  | some earlier => if earlier.sameWords p then .ok ps else .error p.key

end Excerpt

/-! Files. -/

structure Gathered where
  package : String
  imports : List Import := []
  excerpts : List Excerpt := []
  deriving DecidableEq, Repr, Inhabited

def sourceName (i : Nat) : String :=
  "fragment_" ++ toString i ++ ".go"

def Gathered.add (g : Gathered) (i : Nat) (source : String) : Except Fault Gathered := do
  let some f := File.parse? source
    | throw (.emissionFailure (sourceName i ++ " does not parse") (some .system))
  let package := if g.package == "" then f.name.text else g.package
  match (Excerpt.ofFile source f).foldlM Excerpt.insert g.excerpts with
  | .ok excerpts => return ⟨package, g.imports ++ f.imports, excerpts⟩
  | .error key =>
    throw (.emissionFailure (sourceName i ++ " conflicts with an earlier declaration of " ++ key))

def Gathered.addAll (g : Gathered) (i : Nat) : List String → Except Fault Gathered
  | [] => .ok g
  | source :: sources => do (← g.add i source).addAll (i + 1) sources

def Gathered.head (g : Gathered) : Except Fault String := do
  let some f := File.parseBare? ("package " ++ g.package ++ "\n")
    | throw (.emissionFailure ("invalid package name " ++ quote g.package) (some .system))
  let f := (g.imports.mergeSort Import.le).foldl File.addImport f
  match File.format? f with
  | some text => return header ++ "\n\n" ++ text
  | none => throw (.emissionFailure "render imports" (some .system))

def Gathered.text (g : Gathered) (head : String) : String :=
  head ++ String.join (g.excerpts.map fun p => "\n" ++ p.text ++ "\n")

def Gathered.log (g : Gathered) (sources : Nat) : LogEntry :=
  ⟨"gen", "fragments merged", [("package", .text g.package), ("fragments", .number sources),
    ("imports", .number g.imports.length), ("decls", .number g.excerpts.length)]⟩

/--
Merge source files into one file of a package, which is that of the first file if it is empty. The
result is the text of the file and the entry of the journal.
-/
def mergeLogged (package : String) (sources : List String) : Except Fault (String × LogEntry) := do
  let g ← Gathered.addAll ⟨package, [], []⟩ 0 sources
  let head ← g.head
  match tidy? (g.text head) with
  | some text => return (text, g.log sources.length)
  | none => throw (.emissionFailure "merged source does not parse" (some .system))

def merge (package : String) (sources : List String) : Except Fault String :=
  (mergeLogged package sources).map Prod.fst

end RecordCodec.Emit
