import RecordCodec.Source.Children
import RecordCodec.Source.Grammar.Group
import RecordCodec.Source.Printer.Expr
import RecordCodec.Text.Quoted

/-!
This module contains the printing of statements and of grouped declarations.
-/

namespace RecordCodec.Source.Printing

open Print RecordCodec.Text

/-! Grouped declarations. -/

def valueParts : Spec Expr → Bool × Bool
  | .value _ type values _ => (!values.isEmpty, type.isSome)
  | _ => (false, false)

/--
For each declaration of values whether its column of types is kept: it is in a run of declarations
with values if one of them has a type.
-/
def keepsTypes (specs : List (Spec Expr)) : List Bool :=
  (constantRuns (fun s => (valueParts s).1) specs).flatMap fun (hasValues, run) =>
    run.map fun _ => hasValues && run.any fun s => (valueParts s).2

def values (r : Printing) (xs : List Expr) : Print Unit :=
  exprList r .unknown xs 1 {} .unknown

def alignedValue (r : Printing) (names : List Word) (type : Option Expr) (xs : List Expr)
    (hasComment keepsType : Bool) : Print Unit := do
  nameList r names false
  let hasType := type.isSome || keepsType
  if hasType then white .cell
  if let some type := type then r.alone type
  unless xs.isEmpty do
    white .cell
    symbol "="
    white .blank
    values r xs
  if hasComment then
    for _ in List.range (3 - (if hasType then 1 else 0) - (if xs.isEmpty then 0 else 1)) do
      white .cell

def pathText (text : String) : String :=
  match unquote? text with
  | some path => if isImportPath text then quote path else text
  | none => text

def spec (r : Printing) (s : Spec Expr) (count : Nat) (isIndented : Bool) : Print Unit := do
  match s with
  | .imported name path stop =>
    if let some name := name then
      r.alone (.name name)
      white .blank
    r.alone (.literal .string ⟨path.pos, pathText path.text⟩)
    goTo stop
  | .value names type xs _ =>
    nameList r names isIndented
    if let some type := type then
      white .blank
      r.alone type
    unless xs.isEmpty do
      white .blank
      symbol "="
      white .blank
      values r xs
  | .type name typeParams isAlias type =>
    r.alone (.name name)
    if let some list := typeParams then params r list .typeTypeParams
    white (if count == 1 then .blank else .cell)
    if isAlias then
      symbol "="
      white .blank
    r.alone type

def specSteps (r : Printing) (g : Group Expr) : List (Print Unit) :=
  let count := g.specs.length
  if 1 < count && (g.keyword == "const" || g.keyword == "var") then
    List.zipWith (fun s keepsType =>
      match s with
      | .value names type xs hasComment => alignedValue r names type xs hasComment keepsType
      | s => spec r s count false) g.specs (keepsTypes g.specs)
  else g.specs.map fun s => spec r s count false

def group (r : Printing) (g : Group Expr) : Print Unit := do
  goTo g.pos
  symbol g.keyword
  white .blank
  match g.opening.isKnown, g.specs with
  | false, [s] => spec r s 1 true
  | _, _ =>
    goTo g.opening
    symbol "("
    unless g.specs.isEmpty do
      white .indent
      white .divider
      lines (g.specs.map Spec.start) (specSteps r g)
      white .unindent
      white .divider
    goTo g.closing
    symbol ")"

/-! Headers. -/

def headerExpr (r : Printing) (x : Expr) : Print Unit :=
  r.alone (x.unparenHeader r.depth)

def header (r : Printing) (isLoop : Bool) (init : Option Stmt) (x : Option Expr)
    (post : Option Stmt) : Print Unit := do
  white .blank
  if init.isNone && post.isNone then
    if let some x := x then
      headerExpr r x
      white .blank
  else
    if let some s := init then r.stmt s false
    symbol ";"
    white .blank
    if let some x := x then headerExpr r x
    if isLoop then
      symbol ";"
      white .blank
      if let some s := post then
        r.stmt s false
        white .blank
    else if x.isSome then white .blank

/--
Whether a list of results looks better if it is indented as a whole: an element starts on another
line than the one before it ends.
-/
def indentsAll (xs : List Expr) : Bool :=
  match xs.head?, xs.getLast? with
  | some first, some last =>
    2 ≤ xs.length && 0 < first.start.line && first.start.line < last.stop.line &&
      startsLine first.start.line xs
  | _, _ => false
where
  startsLine (line : Nat) : List Expr → Bool
    | [] => false
    | x :: xs => decide (line < x.start.line) || startsLine x.stop.line xs

/-! Statements. -/

def labeled (r : Printing) (label : Word) (colon : Pos) (s : Stmt) (isLast : Bool) :
    Print Unit := do
  white .unindent
  r.alone (.name label)
  goTo colon
  symbol ":"
  white .indent
  match s with
  | .empty pos =>
    if isLast then r.stmt s isLast
    else
      white .newline
      goTo pos
      symbol ";"
  | _ =>
    let _ ← breakTo s.start.line 1 none true
    r.stmt s isLast

def stmtStep (r : Printing) (s : Stmt) (isLast : Bool) : Print Unit := do
  goTo s.start
  match s with
  | .declare g => group r g
  | .empty _ => pure ()
  | .labeled label colon inner => labeled r label colon inner isLast
  | .expr x => r.alone x
  | .send channel arrow value =>
    r.alone channel
    white .blank
    goTo arrow
    symbol "<-"
    white .blank
    r.alone value
  | .step x pos op =>
    r.expr x 0 2
    goTo pos
    symbol op
  | .assign lhs pos op rhs =>
    let depth := if 1 < lhs.length && 1 < rhs.length then 2 else 1
    exprList r s.start lhs depth {} pos
    white .blank
    goTo pos
    symbol op
    white .blank
    exprList r pos rhs depth {} .unknown
  | .launch _ keyword x =>
    symbol keyword
    white .blank
    r.alone x
  | .giveBack _ results =>
    symbol "return"
    unless results.isEmpty do
      white .blank
      if indentsAll results then
        white .indent
        exprList r .unknown results 1 { isIndented := false } .unknown
        white .unindent
      else exprList r .unknown results 1 {} .unknown
  | .branch _ keyword label =>
    symbol keyword
    if let some label := label then
      white .blank
      r.alone (.name label)
  | .block b => block r b true
  | .choose _ init cond b otherwise =>
    symbol "if"
    header r false init (some cond) none
    block r b true
    if let some s := otherwise then
      white .blank
      symbol "else"
      white .blank
      r.stmt s isLast
  | .clause pos exprs colon stmts =>
    if exprs.isEmpty then symbol "default"
    else
      symbol "case"
      white .blank
      exprList r pos exprs 1 {} colon
    goTo colon
    symbol ":"
    stmtList r stmts true isLast
  | .switch _ init tag b =>
    symbol "switch"
    header r false init tag none
    block r b false
  | .typeSwitch _ init guard b =>
    symbol "switch"
    if let some init := init then
      white .blank
      r.stmt init false
      symbol ";"
    white .blank
    r.stmt guard false
    white .blank
    block r b false
  | .communicate _ comm colon stmts =>
    match comm with
    | some comm =>
      symbol "case"
      white .blank
      r.stmt comm false
    | none => symbol "default"
    goTo colon
    symbol ":"
    stmtList r stmts true isLast
  | .select _ b =>
    symbol "select"
    white .blank
    if b.stmts.isEmpty && !(← hasCommentBefore b.closing) then
      goTo b.opening
      symbol "\x7b"
      goTo b.closing
      symbol "\x7d"
    else block r b false
  | .loop _ init cond post b =>
    symbol "for"
    header r true init cond post
    block r b true
  | .range _ key value opPos op x b =>
    symbol "for"
    white .blank
    if let some key := key then
      r.alone key
      if let some value := value then
        goTo value.start
        symbol ","
        white .blank
        r.alone value
      white .blank
      goTo opPos
      symbol op
      white .blank
    symbol "range"
    white .blank
    headerExpr r x
    white .blank
    block r b true

def upTo : (depth : Nat) → Printing
  | 0 => nothing
  | depth + 1 =>
    let r := upTo depth
    { depth := depth + 1, expr := exprStep r, stmt := stmtStep r }

end RecordCodec.Source.Printing
