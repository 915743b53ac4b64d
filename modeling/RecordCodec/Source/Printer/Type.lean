import RecordCodec.Source.Printer.List

/-!
This module contains the printing of signatures and of the field lists of structs and interfaces.
-/

namespace RecordCodec.Source

def Expr.joinsName : Expr → Bool
  | .star _ x => !x.isTypeElem
  | .binary x _ _ y => x.joinsName && !y.isTypeElem
  | _ => false

namespace Printing

open Print

/-! Parameters. -/

inductive ParamMode where
  | params
  | functionTypeParams
  | typeTypeParams
  deriving DecidableEq

/--
Print one entry of a parameter list with what separates it from the one before it, which ends on the
source line `line`. `indents` says whether the indentation is still to come.
-/
def paramEntry (r : Printing) (line : Nat) (indents : Bool) (e : Entry Expr) (i : Nat) :
    Print Bool := do
  let start := e.start.line
  let needsBreak := decide (0 < line) && decide (line < start)
  if 0 < i then
    unless needsBreak do goTo e.start
    symbol ","
  let breaks ← if needsBreak then breakTo start 0 (if indents then some .indent else none) true
    else pure 0
  if breaks == 0 && 0 < i then white .blank
  let indents := indents && breaks == 0
  unless e.names.isEmpty do
    nameList r e.names indents
    white .blank
  r.alone e.type.unparen
  return indents

/--
Print a parameter list. If the closing bracket stands on another line than the last parameter, a
comma comes before it. A comma also keeps a type parameter from being read as the length of an array.
-/
def params (r : Printing) (list : EntryList Expr) (mode : ParamMode) : Print Unit := do
  goTo list.opening
  symbol (if mode == .params then "(" else "[")
  match list.entries with
  | [] => pure ()
  | first :: _ =>
    let (line, indents) ← list.entries.zipIdx.foldlM (fun (line, indents) (e, i) => do
      let indents ← paramEntry r line indents e i
      return (e.stop.line, indents)) (list.opening.line, true)
    if 0 < line && line < list.closing.line then
      symbol ","
      let _ ← breakTo list.closing.line 0 none true
    else if mode == .typeTypeParams && list.count == 1 && first.type.unparen.joinsName then
      symbol ","
    unless indents do white .unindent
  goTo list.closing
  symbol (if mode == .params then ")" else "]")

def signature (r : Printing) (sig : Signature Expr) : Print Unit := do
  if let some list := sig.typeParams then params r list .functionTypeParams
  params r sig.params .params
  match sig.results with
  | none => pure ()
  | some results =>
    match results.entries with
    | [] => pure ()
    | [⟨[], type, _, _, _⟩] =>
      white .blank
      r.alone type.unparen
    | _ =>
      white .blank
      params r results .params

/-! Fields. -/

def oneLineLimit : Nat := 30

def isOneLine (r : Printing) (entries : List (Entry Expr)) : Bool :=
  match entries with
  | [e] =>
    e.tag.isNone && !e.hasComment &&
      match r.exprSize? e.type with
      | some size => (if e.names.isEmpty then 0 else 1) + size ≤ oneLineLimit
      | none => false
  | _ => false

def oneLineField (r : Printing) (e : Entry Expr) : Print Unit := do
  for (name, i) in e.names.zipIdx do
    if 0 < i then
      symbol ","
      white .blank
    r.alone (.name name)
  unless e.names.isEmpty do white .blank
  r.alone e.type

def method (r : Printing) (e : Entry Expr) : Print Unit :=
  match e.names, e.type with
  | name :: _, .signature sig => do
    r.alone (.name name)
    signature r sig
  | _, _ => r.alone e.type

def structField (r : Printing) (sep : White) (e : Entry Expr) : Print Unit := do
  if e.names.isEmpty then r.alone e.type
  else
    nameList r e.names false
    white sep
    r.alone e.type
  match e.tag with
  | some tag =>
    if !e.names.isEmpty && sep == .cell then white sep
    white sep
    r.alone (.literal .string tag)
  | none =>
    if e.hasComment then
      for _ in List.range (if e.names.isEmpty then 2 else 1) do white sep

def lines (starts : List Pos) (steps : List (Print Unit)) : Print Unit := do
  let _ ← (starts.zip steps).foldlM (fun (line : Option Nat) (start, step) => do
    if let some line := line then
      let _ ← breakTo start.line 1 none (← isPast line)
    return some (← recordLine step)) none

def fields (r : Printing) (list : EntryList Expr) (isStruct : Bool) : Print Unit := do
  let hasComments ← hasCommentBefore list.closing
  let isSourceLine := list.opening.isKnown && list.closing.isKnown &&
    list.opening.line == list.closing.line
  if !hasComments && isSourceLine && list.entries.isEmpty then
    goTo list.opening
    symbol "\x7b"
    goTo list.closing
    symbol "\x7d"
  else if !hasComments && isSourceLine && isOneLine r list.entries then
    goTo list.opening
    symbol "\x7b"
    white .blank
    for e in list.entries do
      if isStruct then oneLineField r e else method r e
    white .blank
    goTo list.closing
    symbol "\x7d"
  else
    white .blank
    goTo list.opening
    symbol "\x7b"
    white .indent
    if hasComments || !list.entries.isEmpty then white .divider
    let sep := if list.entries.length == 1 then White.blank else .cell
    lines (list.entries.map Entry.start)
      (list.entries.map fun e => if isStruct then structField r sep e else method r e)
    white .unindent
    white .divider
    goTo list.closing
    symbol "\x7d"

end Printing

end RecordCodec.Source
