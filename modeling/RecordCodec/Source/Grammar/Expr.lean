import RecordCodec.Source.Grammar.Type

/-!
This module contains the grammar of expressions.
-/

namespace RecordCodec.Source

def precedence (op : String) : Nat :=
  if op == "||" then 1
  else if op == "&&" then 2
  else if ["==", "!=", "<", "<=", ">", ">="].contains op then 3
  else if ["+", "-", "|", "^"].contains op then 4
  else if ["*", "/", "%", "<<", ">>", "&", "&^"].contains op then 5
  else 0

/--
The channel type that an arrow before a channel type makes: the arrow becomes part of the type, and
an arrow that it displaces goes to the type inside.
-/
def Expr.receiving? (arrow : Pos) : Expr → Option Expr
  | .channel _ _ .both elem => some (.channel arrow arrow .receive elem)
  | .channel _ own .send elem => (elem.receiving? own).map (.channel arrow arrow .receive ·)
  | _ => none

namespace Grammar

open Parse

def functionOrLiteral (g : Grammar) : Parse Expr := do
  let sig ← functionType g
  if ← isAt "\x7b" then return .function sig (← nested g.block)
  return .signature sig

def operand (g : Grammar) : Parse Expr := do
  let token := (← current).token
  match token.kind with
  | .ident => return .name (← word)
  | .int | .float | .imag | .char | .string =>
    advance
    return .literal token.kind ⟨token.pos, token.text⟩
  | _ =>
    if ← isAt "(" then
      let opening ← expect "("
      let x ← nested g.expr
      return .paren opening x (← expect ")")
    else if ← isAt "func" then functionOrLiteral g
    else
      match ← typeStep g with
      | some t => return t
      | none => failure

def selection (g : Grammar) (x : Expr) : Parse Expr := do
  if ← isKind .ident then return .select x (← word)
  let opening ← expect "("
  let type ← if ← accept "type" then pure none else pure (some (← g.type))
  return .assert x opening type (← expect ")")

def indexing (g : Grammar) (x : Expr) : Parse Expr := do
  let opening ← expect "["
  let make ← nested do
    let first ← if ← isAt ":" then pure none else pure (some (← g.expr))
    if ← accept ":" then
      let high ← if (← isAt ":") || (← isAt "]") then pure none else pure (some (← g.expr))
      if ← accept ":" then
        -- A slice with a bound needs its upper index.
        if high.isNone then failure
        let bound ← g.expr
        return fun closing => Expr.slice x opening first high (some bound) closing
      return fun closing => Expr.slice x opening first high none closing
    match first with
    | none => failure
    | some first =>
      let rest ← many do
        if ← accept "," then
          if ← isAt "]" then return some none
          return some (some (← g.type))
        return none
      return fun closing => Expr.index x opening (first :: rest.filterMap id) closing
  return make (← expect "]")

def calling (g : Grammar) (f : Expr) : Parse Expr := do
  let opening ← expect "("
  let args ← nested (listUpTo ")" do
    let x ← g.expr
    if ← isAt "..." then
      let pos := (← take).pos
      -- Nothing but a comma may follow the argument that is spread.
      if ← isAt "," then
        advance
        if ← isAt ")" then return (x, pos) else failure
      return (x, pos)
    return (x, Pos.unknown))
  let closing ← expect ")"
  let dots := ((args.getLast?).map (·.2)).getD .unknown
  return .call f opening (args.map (·.1)) dots closing

def literalValue (g : Grammar) : Parse Expr := do
  if ← isAt "\x7b" then g.literal none else g.expr

def literalStep (g : Grammar) (type : Option Expr) : Parse Expr := do
  let opening ← expect "\x7b"
  let elems ← nested (listUpTo "\x7d" do
    let x ← literalValue g
    if ← isAt ":" then
      let colon := (← take).pos
      return .pair x colon (← literalValue g)
    return x)
  let closing ← expect "\x7d"
  return .composite type opening elems closing

def startsLiteral (x : Expr) : Parse Bool := do
  let isLiteral ← match x.unparen with
    | .name _ | .select .. | .index .. => do
      let level := (← get).level
      pure (decide (0 ≤ level))
    | .array .. | .struct .. | .map .. => pure true
    | _ => pure false
  match x with
  | .paren .. => if isLiteral then failure else return false
  | _ => return isLiteral

def primary (g : Grammar) (x : Expr) : Parse Expr :=
  iterate (fun x => do
    if ← accept "." then return some (← selection g x)
    else if ← isAt "[" then return some (← indexing g x)
    else if ← isAt "(" then return some (← calling g x)
    else if ← isAt "\x7b" then
      if ← startsLiteral x then return some (← literalStep g (some x)) else return none
    else return none) x

def unaryStep (g : Grammar) : Parse Expr := do
  if ← isAtAny ["+", "-", "!", "^", "&", "~"] then
    let token ← take
    return .unary token.pos token.text (← g.unary)
  else if ← isAt "<-" then
    let arrow ← expect "<-"
    match ← g.unary with
    | .channel pos own direction elem =>
      StateT.lift ((Expr.channel pos own direction elem).receiving? arrow)
    | x => return .unary arrow "<-" x
  else if ← isAt "*" then
    let pos ← expect "*"
    return .star pos (← g.unary)
  else primary g (← operand g)

def binaryFrom (g : Grammar) (strength : Nat) (x : Expr) : Parse Expr :=
  iterate (fun x => do
    let token := (← current).token
    let own := if token.kind == .operator then precedence token.text else 0
    if own < strength || own == 0 then return none
    advance
    let y ← g.binary (own + 1)
    return some (.binary x token.pos token.text y)) x

def binaryStep (g : Grammar) (strength : Nat) : Parse Expr := do
  binaryFrom g strength (← unaryStep g)

def exprs (g : Grammar) : Parse (List Expr) :=
  commaSeparated (binaryStep g 1)

end Grammar

end RecordCodec.Source
