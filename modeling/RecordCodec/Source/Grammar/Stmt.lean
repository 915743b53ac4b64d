import RecordCodec.Source.Grammar.Group

/-!
This module contains the grammar of statements.
-/

namespace RecordCodec.Source

def assignments : List String :=
  [":=", "=", "+=", "-=", "*=", "/=", "%=", "&=", "|=", "^=", "<<=", ">>=", "&^="]

namespace Grammar

open Parse

inductive Place where
  | header
  | body
  | loopHeader
  deriving DecidableEq

inductive Simple where
  | stmt (s : Stmt)
  | range (lhs : List Expr) (pos : Pos) (op : String) (x : Expr)

/--
A simple statement: an assignment, a label, a send, a step or an expression. A label may only stand
in a body and a range clause only in the header of a loop.
-/
def simple (g : Grammar) (place : Place) : Parse Simple := do
  let xs ← exprs g
  let token := (← current).token
  if ← isAtAny assignments then
    advance
    if place == .loopHeader && (token.text == ":=" || token.text == "=") && (← isAt "range") then
      advance
      return .range xs token.pos token.text (← g.expr)
    return .stmt (.assign xs token.pos token.text (← exprs g))
  match xs with
  | [x] =>
    if ← isAt ":" then
      advance
      match place, x with
      | .body, .name label => return .stmt (.labeled label token.pos (← g.stmt))
      | _, _ => failure
    else if ← isAt "<-" then
      advance
      return .stmt (.send x token.pos (← g.expr))
    else if ← isAtAny ["++", "--"] then
      advance
      return .stmt (.step x token.pos token.text)
    else return .stmt (.expr x)
  | _ => failure

def headerStmt (g : Grammar) : Parse Stmt := do
  match ← simple g .header with
  | .stmt s => return s
  | .range .. => failure

def headerExpr : Stmt → Parse Expr
  | .expr x => return x
  | _ => failure

def inHeader (p : Parse α) : Parse α :=
  atLevel (fun _ => -1) p

def stmts (g : Grammar) : Parse (List Stmt) :=
  many do
    if (← isAtAny ["case", "default", "\x7d"]) || (← isKind .eof) then return none
    return some (← g.stmt)

def blockStep (g : Grammar) : Parse (Block Stmt) := do
  let opening ← expect "\x7b"
  let body ← stmts g
  return ⟨opening, body, ← expect "\x7d"⟩

def chooseHeader (g : Grammar) : Parse (Option Stmt × Expr) := do
  if ← isAt "\x7b" then failure
  let first ← if ← isKind .semicolon then pure none else pure (some (← headerStmt g))
  if ← isAt "\x7b" then
    match first with
    | some s => return (none, ← headerExpr s)
    | none => failure
  unless ← isKind .semicolon do failure
  advance
  return (first, ← headerExpr (← headerStmt g))

def choose (g : Grammar) : Parse Stmt := do
  let pos ← expect "if"
  let (init, cond) ← inHeader (chooseHeader g)
  let body ← g.block
  if ← accept "else" then
    if ← isAt "if" then return .choose pos init cond body (some (← g.stmt))
    let otherwise ← g.block
    let _ ← semicolon
    return .choose pos init cond body (some (.block otherwise))
  let _ ← semicolon
  return .choose pos init cond body none

def isTypeGuard : Expr → Bool
  | .assert _ _ none _ => true
  | _ => false

def isGuard : Stmt → Parse Bool
  | .expr x => return isTypeGuard x
  | .assign [_] _ op [x] =>
    if isTypeGuard x && op == "=" then failure else return isTypeGuard x && op == ":="
  | _ => return false

def clause (g : Grammar) : Parse Stmt := do
  let pos := (← current).token.pos
  let xs ← if ← accept "case" then exprs g
    else do
      let _ ← expect "default"
      pure []
  let colon ← expect ":"
  return .clause pos xs colon (← stmts g)

def clauses (p : Parse Stmt) : Parse (Block Stmt) := do
  let opening ← expect "\x7b"
  let body ← many do
    if ← isAtAny ["case", "default"] then return some (← p)
    return none
  let closing ← expect "\x7d"
  let _ ← semicolon
  return ⟨opening, body, closing⟩

def switch (g : Grammar) : Parse Stmt := do
  let pos ← expect "switch"
  let (init, tag) ← if ← isAt "\x7b" then pure (none, none)
    else inHeader do
      let first ← if ← isKind .semicolon then pure none else pure (some (← headerStmt g))
      if ← isKind .semicolon then
        advance
        if ← isAt "\x7b" then return (first, none)
        return (first, some (← headerStmt g))
      return (none, first)
  let isTypes ← match tag with
    | some s => isGuard s
    | none => pure false
  let body ← clauses (clause g)
  match tag with
  | none => return .switch pos init none body
  | some s =>
    if isTypes then return .typeSwitch pos init s body
    return .switch pos init (some (← headerExpr s)) body

def communication (g : Grammar) : Parse Stmt := do
  let lhs ← exprs g
  let token := (← current).token
  match lhs with
  | [x] =>
    if ← accept "<-" then return .send x token.pos (← g.expr)
    else if (← accept "=") || (← accept ":=") then
      return .assign lhs token.pos token.text [← g.expr]
    else return .expr x
  | [_, _] =>
    if (← accept "=") || (← accept ":=") then
      return .assign lhs token.pos token.text [← g.expr]
    failure
  | _ => failure

def select (g : Grammar) : Parse Stmt := do
  let pos ← expect "select"
  return .select pos (← clauses do
    let pos := (← current).token.pos
    let comm ← if ← accept "case" then pure (some (← communication g))
      else do
        let _ ← expect "default"
        pure none
    let colon ← expect ":"
    return .communicate pos comm colon (← stmts g))

def loopHeader (g : Grammar) (pos : Pos) : Parse (Block Stmt → Stmt) := do
  if ← isAt "\x7b" then return Stmt.loop pos none none none
  if ← accept "range" then return Stmt.range pos none none .unknown "" (← g.expr)
  let first ← if ← isKind .semicolon then pure none else pure (some (← simple g .loopHeader))
  match first with
  | some (.range lhs opPos op x) =>
    match lhs with
    | [key] => return Stmt.range pos (some key) none opPos op x
    | [key, value] => return Stmt.range pos (some key) (some value) opPos op x
    | _ => failure
  | some (.stmt s) =>
    if ← isKind .semicolon then full (some s)
    else return Stmt.loop pos none (some (← headerExpr s)) none
  | none => full none
where
  full (init : Option Stmt) : Parse (Block Stmt → Stmt) := do
    advance
    let cond ← if ← isKind .semicolon then pure none
      else pure (some (← headerExpr (← headerStmt g)))
    let _ ← semicolon
    let post ← if ← isAt "\x7b" then pure none else pure (some (← headerStmt g))
    return Stmt.loop pos init cond post

def loop (g : Grammar) : Parse Stmt := do
  let pos ← expect "for"
  let make ← inHeader (loopHeader g pos)
  let body ← g.block
  let _ ← semicolon
  return make body

def launch (g : Grammar) : Parse Stmt := do
  let token ← take
  match ← g.expr with
  | .call f opening args dots closing =>
    let _ ← semicolon
    return .launch token.pos token.text (.call f opening args dots closing)
  | _ => failure

def branch : Parse Stmt := do
  let token ← take
  let hasLabel := token.text == "goto" ||
    ((token.text == "continue" || token.text == "break") && (← isKind .ident))
  let label ← if hasLabel then pure (some (← word)) else pure none
  let _ ← semicolon
  return .branch token.pos token.text label

def simpleStarts : List String :=
  ["func", "(", "[", "struct", "map", "chan", "interface", "+", "-", "*", "&", "^", "<-", "!"]

def stmtStep (g : Grammar) : Parse Stmt := do
  let token := (← current).token
  match token.kind with
  | .ident | .int | .float | .imag | .char | .string => plain
  | .semicolon =>
    advance
    return .empty token.pos
  | .keyword | .operator =>
    if simpleStarts.contains token.text then plain
    else match token.text with
      | "const" | "type" | "var" => return .declare (← group g)
      | "go" | "defer" => launch g
      | "return" =>
        advance
        let xs ← if (← isKind .semicolon) || (← isAt "\x7d") then pure [] else exprs g
        let _ ← semicolon
        return .giveBack token.pos xs
      | "break" | "continue" | "goto" | "fallthrough" => branch
      | "\x7b" =>
        let body ← blockStep g
        let _ ← semicolon
        return .block body
      | "if" => choose g
      | "switch" => switch g
      | "select" => select g
      | "for" => loop g
      | "\x7d" => return .empty token.pos
      | _ => failure
  | _ => failure
where
  plain : Parse Stmt := do
    match ← simple g .body with
    | .stmt (.labeled label colon s) => return .labeled label colon s
    | .stmt s =>
      let _ ← semicolon
      return s
    | .range .. => failure

end Grammar

end RecordCodec.Source
