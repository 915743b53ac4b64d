import RecordCodec.Source.Imports

/-!
This module contains the layout of source texts: `format?` lays out a text, and `tidy?` also divides
its imports into paragraphs.
-/

namespace RecordCodec.Source

open RecordCodec.Text

def format? (text : String) : Option String := do
  let file ← File.parse? text
  return (file.sortImports Import.le).print true

def File.hasImportGroup (f : File) : Bool :=
  (f.decls.takeWhile Decl.isImport).any fun
    | .group g => g.opening.isKnown
    | .function .. => false

def File.format? (f : File) : Option String :=
  if f.hasImportGroup then do
    let file ← File.parse? (f.print true)
    return (file.sortImports Import.le).print true
  else some (f.print true)

def tidy? (text : String) : Option String := do
  let file ← File.parse? text
  let file := { file with decls := mergeImports file.decls }
  let file := file.sortImports Import.leByParagraph
  let printed := (file.print false).toList
  let spaced := joinWith ['\n'] (spaceImports file.paragraphStarts none (lines printed))
  Source.format? (String.ofList spaced)

end RecordCodec.Source
