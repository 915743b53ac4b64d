import RecordCodec.Source.Grammar.Stmt

/-!
This module contains the grammar of source files: `File.parse?` is the tree of a text.
-/

namespace RecordCodec.Source

namespace Grammar

open Parse

def function (g : Grammar) : Parse Decl := do
  let doc := (← current).lead.bind fun comments => comments.head?.map Comment.pos
  let pos ← expect "func"
  let receiver ← if ← isAt "(" then pure (some (← params g)) else pure none
  let name ← word
  let typeParams ← typeParams? g
  let params ← params g
  let sig : Signature Expr := ⟨pos, typeParams, params, ← results? g⟩
  if ← isAt "\x7b" then
    let body ← blockStep g
    let _ ← semicolon
    return .function doc receiver name sig (some body)
  let isSemicolon ← isKind .semicolon
  let _ ← semicolon
  -- The body must start on the line where the signature ends.
  if isSemicolon && (← isAt "\x7b") then failure
  return .function doc receiver name sig none

def decl (g : Grammar) : Parse Decl := do
  if ← isAt "func" then function g
  else if ← isAtAny ["import", "const", "var", "type"] then return .group (← group g)
  else failure

def importsFirst (decls : List Decl) : Bool :=
  (decls.dropWhile Decl.isImport).all (!·.isImport)

def file (g : Grammar) : Parse File := do
  let pos ← expect "package"
  let name ← word
  let _ ← semicolon
  let decls ← many do
    if ← isKind .eof then return none
    return some (← decl g)
  if !importsFirst decls then failure
  return ⟨pos, name, decls, [], 0⟩

def upTo : (depth : Nat) → Grammar
  | 0 => nothing
  | depth + 1 =>
    let g := upTo depth
    { type? := typeStep g
      binary := binaryStep g
      unary := unaryStep g
      literal := literalStep g
      stmt := stmtStep g
      block := blockStep g }

end Grammar

/--
The tree of some tokens. Each reference from a part of the grammar to another comes after a token,
so their number bounds the depth.
-/
def File.ofTokens? (tokens : List Token) : Option File := do
  let (items, comments) := attach tokens
  let (file, _) ← (Grammar.file (Grammar.upTo (items.length + 1))).run ⟨items, 0⟩
  return { file with comments := comments, size := items.length + 1 }

def File.parse? (text : String) : Option File := do
  File.ofTokens? (← tokenize? text)

def File.parseBare? (text : String) : Option File := do
  File.ofTokens? ((← tokenize? text).filter (·.kind != .comment))

end RecordCodec.Source
