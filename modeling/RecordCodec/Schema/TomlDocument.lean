import RecordCodec.Schema.TomlSyntax

/-!
This module contains the documents that TOML texts describe: `document?` carries out the statements of
a text one after the other. A key may be defined once only, except that a table which is only implied
may be defined later, and that an array may be replaced.
-/

namespace RecordCodec.Schema.Toml

/--
A value of a document. The tables of an array that statements start one by one are kept apart from
other arrays.
-/
inductive Value where
  | text (s : String)
  | other
  | array (items : List Value)
  | table (entries : List (String × Value))
  | tables (tables : List (List (String × Value)))
  deriving Inhabited

abbrev Table :=
  List (String × Value)

namespace Table

def put (t : Table) (name : String) (v : Value) : Table :=
  if (t.lookup name).isSome then t.map fun (n, w) => if n == name then (n, v) else (n, w)
  else t ++ [(name, v)]

def modifyAt? (f : Table → Option Table) : Key → Table → Option Table
  | [], t => f t
  | name :: names, t =>
    match t.lookup name with
    | some (.table inner) => (modifyAt? f names inner).map fun inner => put t name (.table inner)
    | some (.tables ts) =>
      match ts.getLast? with
      | some last =>
        (modifyAt? f names last).map fun last => put t name (.tables (ts.dropLast ++ [last]))
      | none => none
    | _ => none

def at? : Key → Table → Option Table
  | [], t => some t
  | name :: names, t =>
    match t.lookup name with
    | some (.table inner) => at? names inner
    | some (.tables ts) => ts.getLast?.bind (at? names)
    | _ => none

def putAt? (v : Value) : Key → Table → Option Table
  | [], _ => none
  | [name], t => some (put t name v)
  | name :: names, t =>
    match t.lookup name with
    | some (.table inner) => (putAt? v names inner).map fun inner => put t name (.table inner)
    | some _ => none
    | none => (putAt? v names []).map fun inner => put t name (.table inner)

end Table

structure Building where
  root : Table := []
  context : Key := []
  implied : List String := []
  arrays : List String := []
  keys : List Key := []
  deriving Inhabited

abbrev Build :=
  StateT Building Option

def modifyTable (k : Key) (f : Table → Option Table) : Build Unit := do
  let b ← get
  match b.root.modifyAt? f k with
  | some root => set { b with root }
  | none => failure

def imply (k : Key) : Build Unit :=
  modify fun b => { b with implied := k.text :: b.implied }

def affirm (k : Key) : Build Unit :=
  modify fun b => { b with implied := b.implied.filter (· != k.text) }

def noteType (name : String) (isArray : Bool) : Build Unit :=
  modify fun b =>
    let text := Key.text (b.context ++ if name == "" then [] else [name])
    let others := b.arrays.filter (· != text)
    { b with arrays := if isArray then text :: others else others }

def define (name : String) (v : Value) : Build Unit := do
  let b ← get
  let k := b.context ++ [name]
  match b.root.at? b.context with
  | none => failure
  | some t =>
    if (t.lookup name).isNone then modifyTable b.context fun t => some (t.put name v)
    else if b.arrays.contains k.text then
      affirm k
      modifyTable b.context fun t => some (t.put name v)
    else if b.implied.contains k.text then affirm k
    else failure

def makeParents (done : Key) : Key → Build Unit
  | [] => pure ()
  | [_] => pure ()
  | name :: names => do
    match (← get).root.at? done with
    | none => failure
    | some t =>
      match t.lookup name with
      | none =>
        imply (done ++ [name])
        modifyTable done fun t => some (t.put name (.table []))
      | some (.table _) | some (.tables _) => pure ()
      | some _ => failure
      makeParents (done ++ [name]) names

def enter (k : Key) (isArray : Bool) : Build Unit := do
  makeParents [] k
  let name := k.getLast?.getD ""
  modify fun b => { b with context := k.dropLast }
  if isArray then
    modifyTable k.dropLast fun t =>
      match t.lookup name with
      | none => some (t.put name (.tables [[]]))
      | some (.tables ts) => some (t.put name (.tables (ts ++ [[]])))
      | some _ => none
  else define name (.table [])
  modify fun b => { b with context := k }

def enterImplied : Key → Build Unit
  | [] => pure ()
  | [_] => pure ()
  | name :: names => do
    let k := (← get).context ++ [name]
    imply k
    enter k false
    enterImplied names

def noteKey (name : String) : Build Unit :=
  modify fun b => { b with keys := b.keys ++ [b.context ++ [name]] }

def Literal.isArray : Literal → Bool
  | array _ => true
  | _ => false

mutual

def valueOf (name : String) (inArray : Bool) : Literal → Build Value
  | .text s => return .text s
  | .other => return .other
  | .array items => do
    noteType name true
    return .array (← itemsOf name items)
  | .table entries => do
    let outer := (← get).context
    let k := outer ++ [name]
    imply k
    enter k inArray
    let t ← entriesOf k [] entries
    modify fun b => { b with context := outer }
    return .table t

def itemsOf (name : String) : List Literal → Build (List Value)
  | [] => return []
  | item :: items => return (← valueOf name true item) :: (← itemsOf name items)

def entriesOf (context : Key) (t : Table) : List (Key × Literal) → Build Table
  | [] => return t
  | (key, item) :: entries => do
    enterImplied key
    let name := key.getLast?.getD ""
    noteKey name
    let v ← valueOf name false item
    define name v
    noteType name item.isArray
    modify fun b => { b with context := context }
    match t.putAt? v key with
    | some t => entriesOf context t entries
    | none => failure

end

def Statement.run : Statement → Build Unit
  | table key => do
    enter key false
    noteType "" false
    modify fun b => { b with keys := b.keys ++ [key] }
  | arrayTable key => do
    enter key true
    noteType "" false
    modify fun b => { b with keys := b.keys ++ [key] }
  | assign key value => do
    let outer := (← get).context
    enterImplied key
    let name := key.getLast?.getD ""
    noteKey name
    let v ← valueOf name false value
    define name v
    noteType name value.isArray
    modify fun b => { b with context := outer }

def document? (text : String) : Option (Table × List Key) := do
  let statements ← parse? text
  let (_, b) ← (statements.forM Statement.run).run {}
  return (b.root, b.keys)

end RecordCodec.Schema.Toml
