import RecordCodec.Source.Tree

/-!
This module contains the parser of source text as such: its state, its steps over tokens, and the
record `Grammar` of the parts that refer to each other. A part gets the record as an argument, so
that the parts can stand in modules of their own; the knot is tied over a bound on the depth.
-/

namespace RecordCodec.Source

/--
What is left to parse. The tokens end with the end of the text. Where `level` is negative, a brace
after a name starts a block and not a literal.
-/
structure ParseState where
  items : List Item
  level : Int := 0

abbrev Parse :=
  StateT ParseState Option

namespace Parse

def current : Parse Item := do
  return (← get).items.headD default

def advance : Parse Unit :=
  modify fun s => { s with items := s.items.tail }

def isAt (text : String) : Parse Bool := do
  let token := (← current).token
  return (token.kind == .keyword || token.kind == .operator) && token.text == text

def isAtAny (texts : List String) : Parse Bool := do
  let token := (← current).token
  return (token.kind == .keyword || token.kind == .operator) && texts.contains token.text

def isKind (kind : TokenKind) : Parse Bool := do
  return (← current).token.kind == kind

def take : Parse Token := do
  let item ← current
  advance
  return item.token

def expect (text : String) : Parse Pos := do
  if ← isAt text then return (← take).pos else failure

def accept (text : String) : Parse Bool := do
  if ← isAt text then
    advance
    return true
  return false

def word : Parse Word := do
  if ← isKind .ident then
    let token ← take
    return ⟨token.pos, token.text⟩
  failure

/--
Step over the semicolon that ends a statement or a field, which may be missing before a closing
bracket. Says whether a comment follows on the line.
-/
def semicolon : Parse Bool := do
  if ← isAtAny [")", "\x7d"] then return false
  let item ← current
  if item.token.kind != .semicolon then failure
  advance
  if item.token.text == impliedSemicolon then return item.line.isSome
  return (← current).line.isSome

def isAtComma (closing : String) : Parse Bool := do
  if ← isAt "," then return true
  if ← isAt closing then return false
  failure

def atLevel (level : Int → Int) (p : Parse α) : Parse α := do
  let old := (← get).level
  modify fun s => { s with level := level old }
  let a ← p
  modify fun s => { s with level := old }
  return a

def nested (p : Parse α) : Parse α :=
  atLevel (· + 1) p

def repeatUpTo : (fuel : Nat) → Parse (Option α) → Parse (List α)
  | 0, _ => failure
  | fuel + 1, p => do
    match ← p with
    | none => return []
    | some a => return a :: (← repeatUpTo fuel p)

def many (p : Parse (Option α)) : Parse (List α) := do
  repeatUpTo ((← get).items.length + 1) p

def iterateUpTo : (fuel : Nat) → (α → Parse (Option α)) → α → Parse α
  | 0, _, _ => failure
  | fuel + 1, p, a => do
    match ← p a with
    | none => return a
    | some b => iterateUpTo fuel p b

/--
The last of the results that a parser makes from each other, starting from `a`. Each run but the
last must step over a token.
-/
def iterate (p : α → Parse (Option α)) (a : α) : Parse α := do
  iterateUpTo ((← get).items.length + 1) p a

def listUpTo (closing : String) (p : Parse α) : Parse (List α) := do
  let parts ← many do
    if ← isAt closing then return none
    let a ← p
    if ← isAtComma closing then advance
    return some a
  return parts

def commaSeparated (p : Parse α) : Parse (List α) := do
  let first ← p
  let rest ← many do
    if ← accept "," then return some (← p)
    return none
  return first :: rest

end Parse

structure Grammar where
  type? : Parse (Option Expr)
  /-- An expression of operators that bind at least as strongly as a given strength. -/
  binary : Nat → Parse Expr
  unary : Parse Expr
  literal : Option Expr → Parse Expr
  stmt : Parse Stmt
  block : Parse (Block Stmt)

namespace Grammar

def nothing : Grammar where
  type? := failure
  binary _ := failure
  unary := failure
  literal _ := failure
  stmt := failure
  block := failure

def expr (g : Grammar) : Parse Expr :=
  g.binary 1

def type (g : Grammar) : Parse Expr := do
  match ← g.type? with
  | some t => return t
  | none => failure

end Grammar

end RecordCodec.Source
