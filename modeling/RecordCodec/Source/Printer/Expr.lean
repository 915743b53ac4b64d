import RecordCodec.Source.Printer.Type

/-!
This module contains the printing of expressions. Blanks around binary operators show how strongly
they bind.
-/

namespace RecordCodec.Source

/-! Numbers. -/

def replaceLast (c d : Char) (cs : List Char) : List Char :=
  match cs.reverse.span (· != c) with
  | (after, _ :: before) => before.reverse ++ d :: after.reverse
  | (_, []) => cs

def normalizeNumber (text : String) : String :=
  match text.toList with
  | '0' :: c :: rest =>
    if c == 'x' || c == 'X' then String.ofList ('0' :: 'x' :: replaceLast 'P' 'p' rest)
    else if c == 'o' || c == 'O' then String.ofList ('0' :: 'o' :: rest)
    else if c == 'b' || c == 'B' then String.ofList ('0' :: 'b' :: rest)
    else decimal ('0' :: c :: rest)
  | cs => decimal cs
where
  decimal (cs : List Char) : String :=
    if cs.contains 'E' then String.ofList (replaceLast 'E' 'e' cs)
    else if 2 ≤ cs.length && cs.getLast? == some 'i' && !cs.contains '.' && !cs.contains 'e' then
      let rest := cs.dropWhile fun c => c == '0' || c == '_'
      if rest == ['i'] then "0i" else String.ofList rest
    else String.ofList cs

/-! Operators. -/

def unaryStrength : Nat := 6

def postfixStrength : Nat := 7

/--
Whether an expression holds operators of strength 4, whether it holds ones of strength 5, and the
strength of operators that need blanks, because they would be read as another one without, or 0.
-/
def Expr.operators : Expr → Bool × Bool × Nat
  | .binary x _ op y =>
    let own := precedence op
    let (four, five, joined) := match x with
      | .binary _ _ inner _ => if precedence inner < own then (false, false, 0) else x.operators
      | _ => (false, false, 0)
    let (four', five', joined') := match y with
      | .binary _ _ inner _ => if precedence inner ≤ own then (false, false, 0) else y.operators
      | .star .. => (false, false, if op == "/" then 5 else 0)
      | .unary _ inner _ =>
        if op == "&" && (inner == "&" || inner == "^") then (false, false, 5)
        else if (op == "+" && inner == "+") || (op == "-" && inner == "-") then (false, false, 4)
        else (false, false, 0)
      | _ => (false, false, 0)
    (own == 4 || four || four', own == 5 || five || five', max joined joined')
  | _ => (false, false, 0)

def Expr.cutoff (x : Expr) (depth : Nat) : Nat :=
  let (four, five, joined) := x.operators
  if 0 < joined then joined + 1
  else if depth == 1 then (if four && five then 5 else 6)
  else 4

def Expr.isBinary : Expr → Bool
  | .binary .. => true
  | _ => false

def Expr.isParen : Expr → Bool
  | .paren .. => true
  | _ => false

namespace Printing

open Print

def inside (depth : Nat) : Nat :=
  max (depth - 1) 1

def depthOf (x : Expr) (strength : Nat) : Nat :=
  match x with
  | .binary _ _ op _ => if precedence op == strength then 0 else 1
  | _ => 1

def binary (r : Printing) (x : Expr) (pos : Pos) (op : String) (y : Expr) (cutoff depth : Nat) :
    Print Unit := do
  let own := precedence op
  let hasBlanks := own < cutoff
  r.expr x own (depth + depthOf x own)
  if hasBlanks then white .blank
  let xLine := (← get).pos.line
  let yLine := y.start.line
  goTo pos
  symbol op
  let breaks ← if xLine != yLine && 0 < xLine && 0 < yLine then breakTo yLine 1 (some .indent) true
    else pure 0
  if hasBlanks && breaks == 0 then white .blank
  r.expr y (own + 1) (depth + 1)
  if 0 < breaks then white .unindent

/--
Print a selection. A line break after the period stays and indents, which ends with the selection
unless it `isCalled`. Says whether there is such a break.
-/
def selection (r : Printing) (x : Expr) (field : Word) (depth : Nat) (isCalled : Bool) :
    Print Bool := do
  r.expr x postfixStrength depth
  symbol "."
  if (← get).pos.line < field.pos.line then
    white .indent
    white .newline
    goTo field.pos
    name field.text
    unless isCalled do white .unindent
    return true
  goTo field.pos
  name field.text
  return false

def slice (r : Printing) (indices : List (Option Expr)) (depth : Nat) : Print Unit := do
  let present := indices.filterMap id
  let hasBlanks := depth ≤ 1 && 1 < present.length && present.any Expr.isBinary
  let _ ← indices.foldlM (fun (prev : Option (Option Expr)) x => do
    if let some prev := prev then
      if prev.isSome && hasBlanks then white .blank
      symbol ":"
      if x.isSome && hasBlanks then white .blank
    if let some x := x then r.expr x 0 (depth + 1)
    return some x) none

def call (r : Printing) (f : Expr) (opening : Pos) (args : List Expr) (dots closing : Pos)
    (depth : Nat) : Print Unit := do
  let depth := if 1 < args.length then depth + 1 else depth
  let needsParen := match f with
    | .signature _ => true
    | .channel _ _ .receive _ => true
    | _ => false
  if needsParen then symbol "("
  let isIndented ← match f with
    | .select x field => do
      goTo f.start
      selection r x field depth true
    | _ => do
      r.expr f postfixStrength depth
      pure false
  if needsParen then symbol ")"
  goTo opening
  symbol "("
  if dots.isKnown then
    exprList r opening args depth {} dots
    goTo dots
    symbol "..."
    if closing.isKnown && dots.line < closing.line then
      symbol ","
      white .divider
  else exprList r opening args depth { endsWithComma := true } closing
  goTo closing
  symbol ")"
  if isIndented then white .unindent

/-! Function bodies. -/

def functionLimit : Nat := 100

def bodySize? (r : Printing) (body : Block Stmt) : Print (Option Nat) := do
  if body.opening.line != body.closing.line || 5 < body.stmts.length then return none
  let comments ← commentSizeBefore body.closing
  return (body.stmts.mapM r.stmtSize?).map fun sizes =>
    comments + sizes.foldl (· + ·) 0 + 2 * (sizes.length - 1)

/--
Print statements on lines of their own. Empty statements are left out. Each clause of a switch or
select starts its columns anew.
-/
def stmtList (r : Printing) (stmts : List Stmt) (isIndented isLast : Bool) : Print Unit := do
  if isIndented then white .indent
  let _ ← stmts.foldlM (fun (count, line) s => do
    match s with
    | .empty _ => return (count, line)
    | _ =>
      unless (← get).output.isEmpty do
        let _ ← breakTo s.start.line 1 none (count == 0 || !isIndented || (← isPast line))
      let line ← recordLine (r.stmt s (isLast && count + 1 == stmts.length))
      return (count + 1, line + labels s)) (0, 0)
  if isIndented then white .unindent
where
  labels : Stmt → Nat
    | .labeled _ _ s => labels s + 1
    | _ => 0

def block (r : Printing) (body : Block Stmt) (isIndented : Bool) : Print Unit := do
  goTo body.opening
  symbol "\x7b"
  stmtList r body.stmts isIndented true
  let _ ← breakTo body.closing.line 1 none true
  goTo body.closing
  symbol "\x7d"

def body (r : Printing) (headSize : Option Nat) (sep : White) (body : Block Stmt) : Print Unit := do
  let level := (← get).level
  modify fun p => { p with level := 0 }
  let size ← bodySize? r body
  let fits := match headSize, size with
    | some head, some size => decide (head + size ≤ functionLimit)
    | _, _ => false
  if fits then
    white sep
    goTo body.opening
    symbol "\x7b"
    unless body.stmts.isEmpty do
      white .blank
      for (s, i) in body.stmts.zipIdx do
        if 0 < i then
          symbol ";"
          white .blank
        r.stmt s (i + 1 == body.stmts.length)
      white .blank
    modify fun p => { p with noExtraBreak := !p.noExtraBreak }
    goTo body.closing
    symbol "\x7d"
    modify fun p => { p with noExtraBreak := !p.noExtraBreak }
  else
    white .blank
    block r body true
  modify fun p => { p with level := level }

/--
The size of what was printed on the current line since the output column `column`, if the source
position `start` is on the current line too.
-/
def headSize? (start : Pos) (column : Nat) : Print (Option Nat) := do
  let p ← get
  return if start.isKnown && start.line == p.pos.line then some (p.out.column - column) else none

/-! Expressions. -/

def literal (r : Printing) (opening : Pos) (elems : List Expr) (closing : Pos) : Print Unit := do
  modify fun p => { p with level := p.level + 1 }
  goTo opening
  symbol "\x7b"
  exprList r opening elems 1 { endsWithComma := true } closing
  white .indent
  white .unindent
  toggle
  goTo closing
  symbol "\x7d"
  toggle
  modify fun p => { p with level := p.level - 1 }
where
  toggle : Print Unit :=
    modify fun p => { p with
      noExtraBreak := !p.noExtraBreak
      noExtraBlank := p.noExtraBlank != !elems.isEmpty }

def exprStep (r : Printing) (x : Expr) (strength depth : Nat) : Print Unit := do
  goTo x.start
  match x with
  | .name word => name word.text
  | .literal kind word =>
    let isNumber := kind == .int || kind == .float || kind == .imag
    let text := if isNumber && (← get).normalizesNumbers then normalizeNumber word.text
      else word.text
    token (if kind == .int then .integer else .word) text true
  | .dots _ elem =>
    symbol "..."
    if let some elem := elem then r.alone elem
  | .function sig b =>
    goTo sig.pos
    symbol "func"
    let column := (← get).out.column - "func".length
    signature r sig
    body r (← headSize? sig.pos column) .blank b
  | .composite type opening elems closing =>
    if let some type := type then r.expr type postfixStrength depth
    literal r opening elems closing
  | .paren _ inner closing =>
    if inner.isParen then r.expr inner 0 depth
    else
      symbol "("
      r.expr inner 0 (inside depth)
      goTo closing
      symbol ")"
  | .select inner field => let _ ← selection r inner field depth false
  | .index inner opening indices closing =>
    r.expr inner postfixStrength 1
    goTo opening
    symbol "["
    match indices with
    | [index] => r.expr index 0 (depth + 1)
    | _ => exprList r opening indices (depth + 1) { endsWithComma := true } closing
    goTo closing
    symbol "]"
  | .slice inner opening low high bound closing =>
    r.expr inner postfixStrength 1
    goTo opening
    symbol "["
    slice r ([low, high] ++ (bound.map some).toList) depth
    goTo closing
    symbol "]"
  | .assert inner opening type closing =>
    r.expr inner postfixStrength depth
    symbol "."
    goTo opening
    symbol "("
    match type with
    | some type => r.alone type
    | none => symbol "type"
    goTo closing
    symbol ")"
  | .call f opening args dots closing => call r f opening args dots closing depth
  | .star _ inner =>
    let needsParen := unaryStrength < strength
    if needsParen then symbol "("
    symbol "*"
    r.alone inner
    if needsParen then symbol ")"
  | .unary _ op inner =>
    if unaryStrength < strength then
      symbol "("
      r.alone x
      symbol ")"
    else
      symbol op
      r.expr inner unaryStrength depth
  | .binary left pos op right =>
    if precedence op < strength then
      symbol "("
      r.expr x 0 (inside depth)
      symbol ")"
    else binary r left pos op right (x.cutoff depth) depth
  | .pair key colon value =>
    r.alone key
    goTo colon
    symbol ":"
    white .blank
    r.alone value
  | .array _ length elem =>
    symbol "["
    if let some length := length then r.alone length
    symbol "]"
    r.alone elem
  | .struct _ list =>
    symbol "struct"
    fields r list true
  | .signature sig =>
    symbol "func"
    signature r sig
  | .interface _ list =>
    symbol "interface"
    fields r list false
  | .map _ key value =>
    symbol "map"
    symbol "["
    r.alone key
    symbol "]"
    r.alone value
  | .channel _ arrow direction elem =>
    match direction with
    | .both => symbol "chan"
    | .receive =>
      symbol "<-"
      symbol "chan"
    | .send =>
      symbol "chan"
      goTo arrow
      symbol "<-"
    white .blank
    r.alone elem

end Printing

end RecordCodec.Source
