import RecordCodec.Schema.YamlToken

/-!
This module contains the trees of YAML texts: `parse?` reads the first document of a text.
-/

namespace RecordCodec.Schema.Yaml

inductive Node where
  | scalar (text : String) (isPlain : Bool)
  | sequence (items : List Node)
  | mapping (entries : List (Node × Node))
  deriving Inhabited

def Node.empty : Node :=
  .scalar "" true

abbrev Parse :=
  StateT (List Token) Option

def peek : Parse Token := do
  match ← get with
  | t :: _ => return t
  | [] => failure

def skip : Parse Unit :=
  modify List.tail

def isAt (ts : List Token) : Parse Bool := do
  return ts.contains (← peek)

/--
How a node is read: `node inBlock indentless`. Block collections are read only in a block, and a
block sequence without an indentation of its own only if `indentless` says so.
-/
abbrev NodeParse :=
  (inBlock indentless : Bool) → Parse Node

def nodeUnless (node : NodeParse) (inBlock indentless : Bool) (ts : List Token) : Parse Node := do
  if ← isAt ts then return .empty else node inBlock indentless

def blockSequence (node : NodeParse) : (fuel : Nat) → Parse (List Node)
  | 0 => failure
  | fuel + 1 => do
    match ← peek with
    | .blockEntry =>
      skip
      let item ← nodeUnless node true false [.blockEntry, .blockEnd]
      return item :: (← blockSequence node fuel)
    | .blockEnd =>
      skip
      return []
    | _ => failure

def indentlessSequence (node : NodeParse) : (fuel : Nat) → Parse (List Node)
  | 0 => failure
  | fuel + 1 => do
    match ← peek with
    | .blockEntry =>
      skip
      let item ← nodeUnless node true false [.blockEntry, .key, .value, .blockEnd]
      return item :: (← indentlessSequence node fuel)
    | _ => return []

def entryValue (node : NodeParse) (inBlock : Bool) (ts : List Token) : Parse Node := do
  match ← peek with
  | .value =>
    skip
    nodeUnless node inBlock inBlock ts
  | _ => return .empty

def blockMapping (node : NodeParse) : (fuel : Nat) → Parse (List (Node × Node))
  | 0 => failure
  | fuel + 1 => do
    match ← peek with
    | .key =>
      skip
      let key ← nodeUnless node true true [.key, .value, .blockEnd]
      let value ← entryValue node true [.key, .value, .blockEnd]
      return (key, value) :: (← blockMapping node fuel)
    | .blockEnd =>
      skip
      return []
    | _ => failure

def separator (isFirst : Bool) : Parse Unit := do
  unless isFirst do
    match ← peek with
    | .flowEntry => skip
    | _ => failure

def flowSequence (node : NodeParse) (isFirst : Bool) : (fuel : Nat) → Parse (List Node)
  | 0 => failure
  | fuel + 1 => do
    if ← isAt [.flowSequenceEnd] then
      skip
      return []
    separator isFirst
    match ← peek with
    | .flowSequenceEnd =>
      skip
      return []
    | .key =>
      skip
      let key ← if ← isAt [.value, .flowEntry, .flowSequenceEnd] then do
          skip
          pure .empty
        else node false false
      let value ← entryValue node false [.flowEntry, .flowSequenceEnd]
      return .mapping [(key, value)] :: (← flowSequence node false fuel)
    | _ =>
      let item ← node false false
      return item :: (← flowSequence node false fuel)

def flowMapping (node : NodeParse) (isFirst : Bool) : (fuel : Nat) → Parse (List (Node × Node))
  | 0 => failure
  | fuel + 1 => do
    if ← isAt [.flowMappingEnd] then
      skip
      return []
    separator isFirst
    match ← peek with
    | .flowMappingEnd =>
      skip
      return []
    | .key =>
      skip
      let key ← nodeUnless node false false [.value, .flowEntry, .flowMappingEnd]
      let value ← entryValue node false [.flowEntry, .flowMappingEnd]
      return (key, value) :: (← flowMapping node false fuel)
    | _ =>
      let key ← node false false
      return (key, .empty) :: (← flowMapping node false fuel)

def content (node : NodeParse) (inBlock indentless : Bool) : Parse Node := do
  let fuel := (← get).length + 1
  match ← peek with
  | .blockEntry => if indentless then .sequence <$> indentlessSequence node fuel else failure
  | .scalar text isPlain =>
    skip
    return .scalar text isPlain
  | .flowSequenceStart =>
    skip
    .sequence <$> flowSequence node true fuel
  | .flowMappingStart =>
    skip
    .mapping <$> flowMapping node true fuel
  | .blockSequenceStart =>
    if inBlock then
      skip
      .sequence <$> blockSequence node fuel
    else failure
  | .blockMappingStart =>
    if inBlock then
      skip
      .mapping <$> blockMapping node fuel
    else failure
  | _ => failure

def nodeUpTo : (depth : Nat) → NodeParse
  | 0 => fun _ _ => failure
  | depth + 1 => content (nodeUpTo depth)

def lookahead : Nat := 3

/--
Read the first document, if there is one. What comes after it may be anything, except that the next
tokens need to be well formed.
-/
def firstDocument : Parse (Option Node) := do
  let depth := (← get).length + 1
  let document ← match ← peek with
    | .streamEnd => pure none
    | .documentStart =>
      skip
      some <$> nodeUnless (nodeUpTo depth) true false [.documentStart, .documentEnd, .streamEnd]
    | _ => some <$> nodeUpTo depth true false
  if ((← get).take lookahead).contains .invalid then failure
  return document

def parse? (text : String) : Option (Option Node) :=
  (firstDocument.run (tokenize text)).map Prod.fst

end RecordCodec.Schema.Yaml
