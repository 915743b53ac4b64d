import RecordCodec.Source.Grammar.Expr
import RecordCodec.Source.Printer.State

/-!
This module contains the printing of lists of expressions, which may be broken over several lines
and whose elements may be aligned. It also contains the record `Printing` of the printers that refer
to each other; a printer gets the record as an argument, so that the printers can stand in modules of
their own.
-/

namespace RecordCodec.Source

structure Printing where
  depth : Nat
  /-- Print an expression among operators that bind with a given strength, at a given depth of
  expressions. -/
  expr : Expr → (strength depth : Nat) → Print Unit
  /-- Print a statement. The flag says whether a closing brace follows. -/
  stmt : Stmt → (isLast : Bool) → Print Unit

namespace Printing

open Print

def nothing : Printing where
  depth := 0
  expr _ _ _ := pure ()
  stmt _ _ := pure ()

def alone (r : Printing) (x : Expr) : Print Unit :=
  r.expr x 0 1

/-! Sizes. -/

def size? (indent : Nat) (step : Print Unit) : Option Nat :=
  let run : Print Unit := do
    step
    modify fun p => { p with impliesSemicolon := false }
    let _ ← flush .infinite (some .eof)
  let (_, p) := run.run { normalizesNumbers := false, indent := indent }
  lineSize? p.output.toList

def exprSize? (r : Printing) (x : Expr) : Option Nat :=
  size? 0 (r.alone x)

def stmtSize? (r : Printing) (s : Stmt) : Option Nat :=
  size? (match s with | .labeled .. => 1 | _ => 0) (r.stmt s false)

/-! Lists. -/

structure ListMode where
  /-- Whether a comma follows the last element if the closing bracket stands on another line. -/
  endsWithComma : Bool := false
  isIndented : Bool := true

def smallSize : Nat := 40

/--
Whether a size differs from the geometric mean of earlier sizes by a factor of two and a half or
more. Both sides are raised to the number of sizes, so that the comparison is exact.
-/
def differsFromMean (size : Nat) (earlier : List Nat) : Bool :=
  let count := earlier.length
  let product := earlier.foldl (· * ·) 1
  decide (Nat.pow (5 * size) count ≤ product * Nat.pow 2 count) ||
    decide (product * Nat.pow 5 count ≤ Nat.pow (2 * size) count)

/--
Whether columns start anew between two elements of given sizes, where a size of 0 is that of an
element that does not fit on a line.
-/
def startsColumns (previous size : Nat) (earlier : List Nat) : Bool :=
  if previous == 0 || size == 0 then true
  else if earlier.isEmpty || (previous ≤ smallSize && size ≤ smallSize) then false
  else differsFromMean size earlier

def alignSize (r : Printing) (x : Expr) : Nat :=
  match r.exprSize? x, x with
  | none, _ => 0
  | some _, .pair key _ _ => (r.exprSize? key).getD 0
  | some size, _ => size

def exprLine (r : Printing) (xs : List Expr) (depth : Nat) : Print Unit := do
  for (x, i) in xs.zipIdx do
    if 0 < i then
      goTo x.start
      symbol ","
      white .blank
    r.expr x 0 depth

structure ListState where
  indents : Bool
  /-- The index after the last element that a line end comes before. -/
  broken : Nat
  size : Nat := 0
  sizes : List Nat := []
  line : Nat

def sharesLine (xs : List Expr) (i : Nat) : Bool :=
  match xs[i]?, xs[i + 1]? with
  | some x, some y => x.start.line == y.start.line
  | _, _ => false

/--
Print an element of a list over several lines, with what separates it from the one before it. Columns
start anew around a line with several elements.
-/
def exprElement (r : Printing) (isSized : Bool) (xs : List Expr) (depth : Nat) (s : ListState)
    (x : Expr) (i : Nat) : Print ListState := do
  let line := x.start.line
  let size := if isSized then alignSize r x else 0
  let isSection := startsColumns s.size size s.sizes
  let needsBreak := decide (0 < s.line) && decide (s.line < line)
  let s ← if i == 0 then pure s else do
    unless needsBreak do goTo x.start
    symbol ","
    let breaks ← if needsBreak then
        breakTo line 0 (if s.indents then some .indent else none) (isSection || s.broken < i || sharesLine xs i)
      else pure 0
    if breaks == 0 then white .blank
    pure { s with
      indents := s.indents && breaks == 0
      broken := if breaks == 0 then s.broken else i + 1
      sizes := if 1 < breaks then [] else s.sizes }
  match x with
  | .pair key colon value =>
    if 1 < xs.length && 0 < size && needsBreak then
      r.alone key
      goTo colon
      symbol ":"
      white .cell
      r.alone value
    else r.expr x 0 depth
  | _ => r.expr x 0 depth
  return { s with size := size, sizes := if 0 < size then size :: s.sizes else s.sizes, line := line }

def exprList (r : Printing) (prev : Pos) (xs : List Expr) (depth : Nat) (mode : ListMode)
    (next : Pos) : Print Unit := do
  match xs.head?, xs.getLast? with
  | some first, some last =>
    let line := first.start.line
    if prev.isKnown && prev.line == line && line == last.stop.line then
      exprLine r xs depth
    else
      let breaks ← if prev.isKnown && prev.line < line then
          breakTo line 0 (if mode.isIndented then some .indent else none) true
        else pure 0
      let start : ListState :=
        { indents := mode.isIndented && breaks == 0, broken := if 0 < breaks then 1 else 0,
          line := prev.line }
      let isSized := prev.isKnown && next.isKnown
      let s ← xs.zipIdx.foldlM (fun s (x, i) =>
        exprElement r isSized xs depth s x i) start
      let unindents := mode.isIndented && !s.indents
      if mode.endsWithComma && next.isKnown && (← get).pos.line < next.line then
        symbol ","
        if unindents then white .unindent
        white .divider
      else if unindents then white .unindent
  | _, _ => pure ()

def nameList (r : Printing) (names : List Word) (isIndented : Bool) : Print Unit :=
  exprList r .unknown (names.map Expr.name) 1 { isIndented := isIndented } .unknown

end Printing

end RecordCodec.Source
