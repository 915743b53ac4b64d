/-!
This module contains the alignment of text in columns: `layout` turns a text whose cells are marked
into lines in which neighbouring cells of one column have the same width.
-/

namespace RecordCodec.Source

inductive Atom where
  | text (s : String)
  | blank
  /-- The end of a cell of the indentation, which is kept even if the whole column is empty. -/
  | tab
  | cell
  | line
  | divider
  deriving DecidableEq, Repr, Inhabited

structure Cell where
  content : List Atom
  isHard : Bool := false
  deriving Repr, Inhabited

namespace Atom

def width : Atom → Nat
  | text s => s.length
  | blank => 1
  | _ => 0

def render : Atom → String
  | text s => s
  | blank => " "
  | tab => "\t"
  | _ => ""

def isBreak : Atom → Bool
  | line | divider => true
  | _ => false

def isText : Atom → Bool
  | text _ => true
  | _ => false

def endsLine (c : Char) : Bool :=
  c == '\n' || c == '\x0c'

def isSplit : Atom → Bool
  | text s => s.toList.any endsLine
  | _ => false

end Atom

def Cell.width (c : Cell) : Nat :=
  (c.content.map Atom.width).foldl (· + ·) 0

structure Row where
  cells : List Cell
  isLast : Bool
  deriving Repr, Inhabited

/--
The lines of a text and its last line, which has no end. `cells` are the finished cells of the
current line and `content` is what the current cell holds so far, both in reverse.
-/
def rows (cells : List Cell) (content : List Atom) : List Atom → List Row × List Cell
  | [] => ([], (if content.isEmpty then cells else ⟨content.reverse, false⟩ :: cells).reverse)
  | atom :: atoms =>
    match atom with
    | .tab => rows (⟨content.reverse, true⟩ :: cells) [] atoms
    | .cell => rows (⟨content.reverse, false⟩ :: cells) [] atoms
    | .line =>
      let (more, last) := rows [] [] atoms
      (⟨(⟨content.reverse, false⟩ :: cells).reverse, cells.isEmpty⟩ :: more, last)
    | .divider =>
      let (more, last) := rows [] [] atoms
      (⟨(⟨content.reverse, false⟩ :: cells).reverse, true⟩ :: more, last)
    | atom => rows cells (atom :: content) atoms

def sections : List Row → List (List Row)
  | [] => []
  | r :: rs =>
    if r.isLast then [r] :: sections rs
    else match sections rs with
      | [] => [[r]]
      | s :: ss => (r :: s) :: ss

def tabWidth : Nat := 8

/--
The width of a column: one more than its widest cell, and nothing if all its cells are empty and
none belongs to the indentation.
-/
def columnWidth (cells : List Cell) : Nat :=
  if cells.all fun c => c.width == 0 && !c.isHard then 0
  else (cells.map (·.width + 1)).foldl max 0

/--
The cells of a line, filled up to the widths of their columns: empty cells at the start of the line
with tabs, the others with blanks.
-/
def fillRow : (atStart : Bool) → (widths : List Nat) → List Cell → List Atom
  | _, _, [] => []
  | _, [], c :: cs => c.content ++ fillRow false [] cs
  | atStart, w :: ws, c :: cs =>
    let isStart := atStart && c.content.isEmpty
    let fill := if isStart then List.replicate ((w + tabWidth - 1) / tabWidth) Atom.tab
      else List.replicate (w - c.width) Atom.blank
    c.content ++ fill ++ fillRow isStart ws cs

def constantRuns (p : α → Bool) : List α → List (Bool × List α)
  | [] => []
  | x :: xs =>
    match constantRuns p xs with
    | [] => [(p x, [x])]
    | (b, run) :: rest => if p x == b then (b, x :: run) :: rest else (p x, [x]) :: (b, run) :: rest

/--
The lines of a section from a column on, where `widths` are the widths of the columns before it.
Consecutive lines that have the column share its width. `fuel` bounds the number of columns.
-/
def fillRows : (fuel : Nat) → (widths : List Nat) → List (List Cell) → List (List Atom)
  | 0, widths, rows => rows.map (fillRow true widths)
  | fuel + 1, widths, rows =>
    let column := widths.length
    (constantRuns (fun cells => decide (column + 1 < cells.length)) rows).flatMap fun (has, run) =>
      if has then
        let width := columnWidth (run.filterMap fun cells => cells[column]?)
        fillRows fuel (widths ++ [width]) run
      else run.map (fillRow true widths)

def renderLine (atoms : List Atom) : String :=
  String.join (((atoms.reverse.dropWhile (!·.isText)).reverse).map Atom.render)

def layout (atoms : List Atom) : String :=
  let (lines, last) := rows [] [] atoms
  let parts := sections (lines ++ [⟨last, true⟩])
  let filled := parts.flatMap fun part =>
    let cells := part.map Row.cells
    fillRows ((cells.map List.length).foldl max 0) [] cells
  String.intercalate "\n" (filled.map renderLine)

/--
The size in bytes of a text that is not laid out, without the white space at its end, or nothing if
it takes more than one line.
-/
def lineSize? (atoms : List Atom) : Option Nat :=
  if atoms.any (fun a => a.isBreak || a.isSplit) then none
  else some (((atoms.reverse.dropWhile (!·.isText)).map size).foldl (· + ·) 0)
where
  size : Atom → Nat
    | .text s => s.utf8ByteSize
    | _ => 1

end RecordCodec.Source
