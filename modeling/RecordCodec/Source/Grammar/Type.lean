import RecordCodec.Source.Grammar.Basic

/-!
This module contains the grammar of types.
-/

namespace RecordCodec.Source.Grammar

open Parse

/-! Type names and their arguments. -/

def typeName (word? : Option Word) : Parse Expr := do
  let first ← match word? with
    | some word => pure word
    | none => word
  if ← accept "." then return .select (.name first) (← word)
  return .name first

def typeInstance (g : Grammar) (x : Expr) : Parse Expr := do
  let opening ← expect "["
  let args ← nested (listUpTo "]" g.type)
  let closing ← expect "]"
  if args.isEmpty then failure
  return .index x opening args closing

def qualifiedName (g : Grammar) (word? : Option Word) : Parse Expr := do
  let x ← typeName word?
  if ← isAt "[" then typeInstance g x else return x

def arrayType (g : Grammar) (opening : Pos) (length? : Option Expr) : Parse Expr := do
  let length ← match length? with
    | some x => pure (some x)
    | none => nested do
      if ← isAt "..." then return some (.dots (← take).pos none)
      if ← isAt "]" then return none
      return some (← g.expr)
  let _ ← expect "]"
  return .array opening length (← g.type)

/--
What follows the name of a field or parameter from a bracket on: either the array type of that name,
or the type arguments of an embedded type of that name.
-/
def arrayOrInstance (g : Grammar) (name : Word) : Parse (Option Word × Expr) := do
  let opening ← expect "["
  let args ← nested (many do
    if ← isAt "]" then return none
    let x ← g.expr
    let isComma ← isAtComma "]"
    if isComma then advance
    return some (x, isComma))
  let closing ← expect "]"
  let embedded := (none, Expr.index (.name name) opening (args.map (·.1)) closing)
  match args with
  | [] => return (some name, .array opening none (← g.type))
  | [(x, isComma)] =>
    match ← g.type? with
    | some elem => if isComma then failure else return (some name, .array opening (some x) elem)
    | none => return embedded
  | _ => return embedded

/-! Type sets. -/

def typeTerm (g : Grammar) : Parse Expr := do
  if ← isAt "~" then
    let pos := (← take).pos
    return .unary pos "~" (← g.type)
  g.type

def typeSet (g : Grammar) (first? : Option Expr) : Parse Expr := do
  let first ← match first? with
    | some x => pure x
    | none => typeTerm g
  iterate (fun x => do
    if ← isAt "|" then
      let pos := (← take).pos
      return some (.binary x pos "|" (← typeTerm g))
    return none) first

/-! Parameters. -/

structure Param where
  name : Option Word
  type : Option Expr

def param (g : Grammar) (name? : Option Word) (isTypeParam : Bool) : Parse Param := do
  match name? with
  | some name => named name
  | none =>
    if ← isKind .ident then named (← word)
    else if ← isAt "..." then dotsType none
    else if isTypeParam && (← isAt "~") then return ⟨none, some (← typeSet g none)⟩
    else withSet ⟨none, some (← g.type)⟩
where
  dotsType (name : Option Word) : Parse Param := do
    let pos ← expect "..."
    return ⟨name, some (.dots pos (some (← g.type)))⟩
  withSet (p : Param) : Parse Param := do
    match p.type with
    | some t => if isTypeParam && (← isAt "|") then return ⟨p.name, some (← typeSet g t)⟩ else return p
    | none => return p
  named (name : Word) : Parse Param := do
    if ← isKind .ident then withSet ⟨some name, some (← g.type)⟩
    else if ← isAtAny ["*", "<-", "func", "chan", "map", "struct", "interface", "("] then
      withSet ⟨some name, some (← g.type)⟩
    else if ← isAt "[" then
      let (name, type) ← arrayOrInstance g name
      withSet ⟨name, some type⟩
    else if ← isAt "..." then dotsType name
    else if ← isAt "." then withSet ⟨none, some (← qualifiedName g (some name))⟩
    else if isTypeParam && (← isAt "~") then return ⟨some name, some (← typeSet g none)⟩
    else if isTypeParam && (← isAt "|") then
      return ⟨none, some (← typeSet g (some (.name name)))⟩
    else return ⟨some name, none⟩

def unnamedEntry (type : Expr) : Entry Expr where
  names := []
  type := type
  stop := type.stop

/--
The entries of named parameters: names without a type belong to the next type. Every type needs a
name, and every name a type. `names` are the names since the last type.
-/
def namedEntries? (names : List Word) : List Param → Option (List (Entry Expr))
  | [] => if names.isEmpty then some [] else none
  | ⟨none, _⟩ :: _ => none
  | ⟨some name, none⟩ :: ps => namedEntries? (names ++ [name]) ps
  | ⟨some name, some type⟩ :: ps => do
    let rest ← namedEntries? [] ps
    return { names := names ++ [name], type := type, stop := type.stop } :: rest

/--
The entries of parameters. If no parameter has both a name and a type, then all names are types,
which type parameters may not be.
-/
def entries? (isTypeParam : Bool) (ps : List Param) : Option (List (Entry Expr)) :=
  if ps.any fun p => p.name.isSome && p.type.isSome then namedEntries? [] ps
  else if isTypeParam && !ps.isEmpty then none
  else ps.mapM fun
    | ⟨some name, _⟩ => some (unnamedEntry (.name name))
    | ⟨none, some type⟩ => some (unnamedEntry type)
    | ⟨none, none⟩ => none

/--
Parameters up to a closing bracket, which stays. The name of the first one may have been stepped
over, and with it its type.
-/
def paramList (g : Grammar) (name? : Option Word) (type? : Option Expr) (closing : String) :
    Parse (List (Entry Expr)) := do
  let isTypeParam := closing == "]"
  let first ← match name?, type? with
    | some name, some type =>
      pure [{ name := some name, type := some (← if isTypeParam then typeSet g type else pure type) }]
    | some name, none => pure [← param g (some name) isTypeParam]
    | none, _ => pure []
  let hasMore ← if first.isEmpty then pure true else isAtComma closing
  unless first.isEmpty do if hasMore then advance
  let rest ← if hasMore then listUpTo closing (param g none isTypeParam) else pure []
  StateT.lift (entries? isTypeParam (first ++ rest))

def params (g : Grammar) : Parse (EntryList Expr) := do
  let opening ← expect "("
  let entries ← paramList g none none ")"
  let closing ← expect ")"
  return ⟨opening, entries, closing, closing.shift 1⟩

def typeParams? (g : Grammar) : Parse (Option (EntryList Expr)) := do
  if ← isAt "[" then
    let opening := (← take).pos
    let entries ← paramList g none none "]"
    let closing ← expect "]"
    if entries.isEmpty then failure
    return some ⟨opening, entries, closing, closing.shift 1⟩
  return none

def results? (g : Grammar) : Parse (Option (EntryList Expr)) := do
  if ← isAt "(" then return some (← params g)
  match ← g.type? with
  | some type => return some ⟨.unknown, [unnamedEntry type], .unknown, type.stop⟩
  | none => return none

def functionType (g : Grammar) : Parse (Signature Expr) := do
  let pos ← expect "func"
  let params ← params g
  return ⟨pos, none, params, ← results? g⟩

/-! Structs and interfaces. -/

def field (g : Grammar) : Parse (Entry Expr) := do
  let (names, type) ← if ← isAt "*" then do
      let pos := (← take).pos
      pure ([], Expr.star pos (← qualifiedName g none))
    else do
      let name ← word
      if ← isAt "." then pure ([], ← qualifiedName g (some name))
      else if (← isKind .string) || (← isKind .semicolon) || (← isAt "\x7d") then
        pure ([], .name name)
      else do
        let others ← many do
          if ← accept "," then return some (← word)
          return none
        if others.isEmpty && (← isAt "[") then do
          let (name?, type) ← arrayOrInstance g name
          pure (name?.toList, type)
        else pure (name :: others, ← g.type)
  let tag ← if ← isKind .string then do
      let token ← take
      pure (some ⟨token.pos, token.text⟩)
    else pure none
  let hasComment ← semicolon
  let stop := match tag with
    | some tag => Word.stop tag
    | none => type.stop
  return ⟨names, type, tag, hasComment, stop⟩

def structType (g : Grammar) : Parse Expr := do
  let pos ← expect "struct"
  let opening ← expect "\x7b"
  let fields ← many do
    if (← isKind .ident) || (← isAt "*") then return some (← field g)
    return none
  let closing ← expect "\x7d"
  return .struct pos ⟨opening, fields, closing, closing.shift 1⟩

def methodOrType (g : Grammar) : Parse (List Word × Expr) := do
  let x ← typeName none
  match x with
  | .name name =>
    if ← isAt "[" then do
      let opening := (← take).pos
      let first ← nested g.expr
      let rest ← if ← isAtComma "]" then do
          advance
          nested (listUpTo "]" g.type)
        else pure []
      let closing ← expect "]"
      return ([], .index x opening (first :: rest) closing)
    else if ← isAt "(" then do
      let params ← params g
      return ([name], .signature ⟨.unknown, none, params, ← results? g⟩)
    else return ([], x)
  | _ => return ([], ← if ← isAt "[" then typeInstance g x else pure x)

def element? (g : Grammar) : Parse (Option (Entry Expr)) := do
  let part ← if ← isKind .ident then do
      let (names, x) ← methodOrType g
      pure (some (names, ← if names.isEmpty then typeSet g (some x) else pure x))
    else if ← isAt "~" then pure (some ([], ← typeSet g none))
    else do
      match ← g.type? with
      | some x => pure (some ([], ← typeSet g (some x)))
      | none => pure none
  match part with
  | none => return none
  | some (names, type) =>
    let hasComment ← semicolon
    return some ⟨names, type, none, hasComment, type.stop⟩

def interfaceType (g : Grammar) : Parse Expr := do
  let pos ← expect "interface"
  let opening ← expect "\x7b"
  let methods ← many (element? g)
  let closing ← expect "\x7d"
  return .interface pos ⟨opening, methods, closing, closing.shift 1⟩

/-! Types. -/

def channelType (g : Grammar) : Parse Expr := do
  let pos := (← current).token.pos
  if ← accept "chan" then
    if ← isAt "<-" then
      let arrow := (← take).pos
      return .channel pos arrow .send (← g.type)
    return .channel pos .unknown .both (← g.type)
  let arrow ← expect "<-"
  let _ ← expect "chan"
  return .channel pos arrow .receive (← g.type)

def mapType (g : Grammar) : Parse Expr := do
  let pos ← expect "map"
  let _ ← expect "["
  let key ← g.type
  let _ ← expect "]"
  return .map pos key (← g.type)

def typeStep (g : Grammar) : Parse (Option Expr) := do
  let token := (← current).token
  if token.kind == .ident then return some (← qualifiedName g none)
  if token.kind != .keyword && token.kind != .operator then return none
  match token.text with
  | "[" => return some (← arrayType g (← expect "[") none)
  | "struct" => return some (← structType g)
  | "*" =>
    let pos ← expect "*"
    return some (.star pos (← g.type))
  | "func" => return some (.signature (← functionType g))
  | "interface" => return some (← interfaceType g)
  | "map" => return some (← mapType g)
  | "chan" | "<-" => return some (← channelType g)
  | "(" =>
    let opening ← expect "("
    let x ← g.type
    return some (.paren opening x (← expect ")"))
  | _ => return none

end RecordCodec.Source.Grammar
