import RecordCodec.Source.Grammar.Expr

/-!
This module contains the grammar of declarations of imports, constants, variables and types, which
may stand in a group in parentheses.
-/

namespace RecordCodec.Source

open RecordCodec.Text

def forbiddenInPath : List Char :=
  "!\"#$%&'()*,:;<=>?[\\]^\x7b|\x7d".toList ++ [backQuote, Char.ofNat 0xfffd]

/--
Whether the text of a literal is that of an import path: not empty, and made of graphic characters
other than blanks and the forbidden ones.
-/
def isImportPath (text : String) : Bool :=
  match unquote? text with
  | none => false
  | some path =>
    !path.isEmpty &&
      path.toList.all fun c => isPrintable c && c != ' ' && !forbiddenInPath.contains c

/--
The name and the constraint that an expression can be read as, such as a product that is a name and
a pointer type. Unless `isForced` is set, the constraint must not be a value. A name alone has no
constraint.
-/
def Expr.splitName? (isForced : Bool) : Expr → Option (Word × Option Expr)
  | .name word => some (word, none)
  | .binary x pos op y =>
    if op == "*" then
      match x with
      | .name word => if isForced || y.isTypeElem then some (word, some (.star pos y)) else none
      | _ => none
    else if op == "|" then
      match x.splitName? (isForced || y.isTypeElem) with
      | some (word, some first) => some (word, some (.binary first pos "|" y))
      | _ => none
    else none
  | .call (.name word) _ [x] spread _ =>
    if !spread.isKnown && (isForced || x.isTypeElem) then some (word, some x) else none
  | _ => none

namespace Grammar

open Parse

def importSpec : Parse (Spec Expr) := do
  let name ← if ← isKind .ident then pure (some (← word))
    else if ← isAt "." then do
      let pos := (← take).pos
      pure (some ⟨pos, "."⟩)
    else pure none
  let token ← take
  if token.kind != .string || !isImportPath token.text then failure
  let _ ← semicolon
  let path : Word := ⟨token.pos, token.text⟩
  return .imported name path path.stop

def valueSpec (g : Grammar) (keyword : String) : Parse (Spec Expr) := do
  let names ← commaSeparated word
  let type ←
    if keyword == "var" then
      if ← isAt "=" then pure none else pure (some (← g.type))
    else typeStep g
  let values ← if ← accept "=" then exprs g else pure []
  let hasComment ← semicolon
  return .value names type values hasComment

def genericType (g : Grammar) (name : Word) (opening : Pos) (first : Word)
    (constraint? : Option Expr) : Parse (Spec Expr) := do
  let entries ← paramList g (some first) constraint? "]"
  let closing ← expect "]"
  let isAlias ← accept "="
  let type ← g.type
  return .type name (some ⟨opening, entries, closing, closing.shift 1⟩) isAlias type

/--
A type declaration without the semicolon after it. A bracket after the name starts type parameters
or the length of an array type, which the expression inside decides.
-/
def typeSpec (g : Grammar) : Parse (Spec Expr) := do
  let name ← word
  if ← isAt "[" then
    let opening := (← take).pos
    if ← isKind .ident then
      let first ← word
      let x ← if ← isAt "[" then pure (Expr.name first)
        else nested do binaryFrom g 1 (← primary g (.name first))
      let isClosing ← isAt "]"
      match x.splitName? (← isAt ",") with
      | some (first, constraint?) =>
        if constraint?.isSome || !isClosing then
          genericType g name opening first constraint?
        else return .type name none false (← arrayType g opening (some x))
      | none => return .type name none false (← arrayType g opening (some x))
    else return .type name none false (← arrayType g opening none)
  else
    let isAlias ← accept "="
    return .type name none isAlias (← g.type)

def spec (g : Grammar) (keyword : String) : Parse (Spec Expr) := do
  if keyword == "import" then importSpec
  else if keyword == "type" then
    let s ← typeSpec g
    let _ ← semicolon
    return s
  else valueSpec g keyword

def group (g : Grammar) : Parse (Group Expr) := do
  let doc := (← current).lead.bind fun comments => comments.head?.map Comment.pos
  let token ← take
  if ← isAt "(" then
    let opening := (← take).pos
    let specs ← many do
      if ← isAt ")" then return none
      return some (← spec g token.text)
    let closing ← expect ")"
    let _ ← semicolon
    return ⟨doc, token.pos, token.text, opening, specs, closing⟩
  let s ← spec g token.text
  return ⟨doc, token.pos, token.text, .unknown, [s], .unknown⟩

end Grammar

end RecordCodec.Source
