import RecordCodec.Source.BuildLine
import RecordCodec.Source.Grammar.File
import RecordCodec.Source.Printer.Stmt

/-!
This module contains the printing of source files: `File.print` is the text of a tree.
-/

namespace RecordCodec.Source

namespace Printing

open Print

def decl (r : Printing) (d : Decl) : Print Unit := do
  match d with
  | .group g => group r g
  | .function _ receiver functionName sig b =>
    goTo sig.pos
    symbol "func"
    white .blank
    let column := (← get).out.column
    if let some list := receiver then
      params r list .params
      white .blank
    r.alone (.name functionName)
    signature r sig
    if let some b := b then
      -- The keyword and the blank after it count too.
      let size := (← headSize? sig.pos column).map (· + "func ".length)
      body r size .cell b

/--
Print declarations outside functions. A blank line stands between ones with different keywords, and
before one with a comment.
-/
def decls (r : Printing) (list : List Decl) : Print Unit := do
  let _ ← list.foldlM (fun keyword d => do
    let least := if keyword != d.keyword || d.doc.isSome then 2 else 1
    let isLong := d.keyword == "func" && d.start.line < d.stop.line
    let _ ← breakTo d.start.line least none isLong
    decl r d
    return d.keyword) ""

def file (r : Printing) (f : File) : Print Unit := do
  goTo f.pos
  symbol "package"
  white .blank
  r.alone (.name f.name)
  decls r f.decls
  white .newline
  modify fun p => { p with impliesSemicolon := false }
  let _ ← flush .infinite (some .eof)

end Printing

def File.print (f : File) (normalizesNumbers : Bool) : String :=
  let start : Printer := { normalizesNumbers := normalizesNumbers, comments := f.comments }
  let (_, p) := (Printing.file (Printing.upTo f.size) f).run start
  layout (BuildLine.gather p.buildExpressions p.buildLists p.output.toList)

end RecordCodec.Source
