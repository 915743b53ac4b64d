import RecordCodec.Source.Comment

/-!
This module contains the tree of a Go source text. Each node keeps the positions that its layout
depends on.
-/

namespace RecordCodec.Source

structure Word where
  pos : Pos
  text : String
  deriving DecidableEq, Repr, Inhabited

def Word.stop (w : Word) : Pos :=
  w.pos.advanceAll w.text.toList

/--
One entry of a field, method or parameter list: names of one type. An embedded field or an unnamed
parameter has no names. `hasComment` says whether a comment follows on its line.
-/
structure Entry (ε : Type) where
  names : List Word
  type : ε
  tag : Option Word := none
  hasComment : Bool := false
  stop : Pos
  deriving Repr, Inhabited

structure EntryList (ε : Type) where
  opening : Pos
  entries : List (Entry ε)
  closing : Pos
  stop : Pos
  deriving Repr, Inhabited

def EntryList.count (l : EntryList ε) : Nat :=
  (l.entries.map fun e => max 1 e.names.length).foldl (· + ·) 0

structure Signature (ε : Type) where
  pos : Pos
  typeParams : Option (EntryList ε)
  params : EntryList ε
  results : Option (EntryList ε)
  deriving Repr, Inhabited

def Signature.stop (s : Signature ε) : Pos :=
  match s.results with
  | some results => results.stop
  | none => s.params.stop

inductive Spec (ε : Type) where
  | imported (name : Option Word) (path : Word) (stop : Pos)
  | value (names : List Word) (type : Option ε) (values : List ε) (hasComment : Bool)
  | type (name : Word) (typeParams : Option (EntryList ε)) (isAlias : Bool) (type : ε)
  deriving Repr, Inhabited

def Spec.start : Spec ε → Pos
  | .imported (some name) _ _ => name.pos
  | .imported none path _ => path.pos
  | .value names _ _ _ => (names.head?.map Word.pos).getD .unknown
  | .type name _ _ _ => name.pos

/--
Declarations after one keyword. The parentheses are unknown if there are none. `doc` is where the
comment above the keyword starts.
-/
structure Group (ε : Type) where
  doc : Option Pos
  pos : Pos
  keyword : String
  opening : Pos
  specs : List (Spec ε)
  closing : Pos
  deriving Repr, Inhabited

structure Block (σ : Type) where
  opening : Pos
  stmts : List σ
  closing : Pos
  deriving Repr, Inhabited

inductive Direction where
  | both
  | send
  | receive
  deriving DecidableEq, Repr, Inhabited

mutual

inductive Expr where
  | name (word : Word)
  | literal (kind : TokenKind) (word : Word)
  /-- Three dots, with the element type of a variadic parameter. -/
  | dots (pos : Pos) (elem : Option Expr)
  | function (sig : Signature Expr) (body : Block Stmt)
  | composite (type : Option Expr) (opening : Pos) (elems : List Expr) (closing : Pos)
  | paren (opening : Pos) (x : Expr) (closing : Pos)
  | select (x : Expr) (field : Word)
  | index (x : Expr) (opening : Pos) (indices : List Expr) (closing : Pos)
  | slice (x : Expr) (opening : Pos) (low high bound : Option Expr) (closing : Pos)
  /-- A type assertion; without a type it is the guard of a type switch. -/
  | assert (x : Expr) (opening : Pos) (type : Option Expr) (closing : Pos)
  /-- A call; the position of the dots is unknown if there are none. -/
  | call (f : Expr) (opening : Pos) (args : List Expr) (dots : Pos) (closing : Pos)
  | star (pos : Pos) (x : Expr)
  | unary (pos : Pos) (op : String) (x : Expr)
  | binary (x : Expr) (pos : Pos) (op : String) (y : Expr)
  | pair (key : Expr) (colon : Pos) (value : Expr)
  | array (pos : Pos) (length : Option Expr) (elem : Expr)
  | struct (pos : Pos) (fields : EntryList Expr)
  | signature (sig : Signature Expr)
  | interface (pos : Pos) (methods : EntryList Expr)
  | map (pos : Pos) (key value : Expr)
  | channel (pos : Pos) (arrow : Pos) (direction : Direction) (elem : Expr)

inductive Stmt where
  | declare (group : Group Expr)
  | empty (pos : Pos)
  | labeled (label : Word) (colon : Pos) (stmt : Stmt)
  | expr (x : Expr)
  | send (channel : Expr) (arrow : Pos) (value : Expr)
  | step (x : Expr) (pos : Pos) (op : String)
  | assign (lhs : List Expr) (pos : Pos) (op : String) (rhs : List Expr)
  | launch (pos : Pos) (keyword : String) (call : Expr)
  | giveBack (pos : Pos) (results : List Expr)
  | branch (pos : Pos) (keyword : String) (label : Option Word)
  | block (body : Block Stmt)
  | choose (pos : Pos) (init : Option Stmt) (cond : Expr) (body : Block Stmt)
      (otherwise : Option Stmt)
  /-- A clause of a switch; the default clause has no expressions. -/
  | clause (pos : Pos) (exprs : List Expr) (colon : Pos) (body : List Stmt)
  | switch (pos : Pos) (init : Option Stmt) (tag : Option Expr) (body : Block Stmt)
  | typeSwitch (pos : Pos) (init : Option Stmt) (guard : Stmt) (body : Block Stmt)
  /-- A clause of a select; the default clause has no statement. -/
  | communicate (pos : Pos) (comm : Option Stmt) (colon : Pos) (body : List Stmt)
  | select (pos : Pos) (body : Block Stmt)
  | loop (pos : Pos) (init : Option Stmt) (cond : Option Expr) (post : Option Stmt)
      (body : Block Stmt)
  | range (pos : Pos) (key value : Option Expr) (opPos : Pos) (op : String) (x : Expr)
      (body : Block Stmt)

end

instance : Inhabited Expr := ⟨.name default⟩

instance : Inhabited Stmt := ⟨.empty default⟩

namespace Expr

def start : Expr → Pos
  | name word => word.pos
  | literal _ word => word.pos
  | dots pos _ => pos
  | function sig _ => sig.pos
  | composite (some type) _ _ _ => type.start
  | composite none opening _ _ => opening
  | paren opening _ _ => opening
  | select x _ => x.start
  | index x _ _ _ => x.start
  | slice x _ _ _ _ _ => x.start
  | assert x _ _ _ => x.start
  | call f _ _ _ _ => f.start
  | star pos _ => pos
  | unary pos _ _ => pos
  | binary x _ _ _ => x.start
  | pair key _ _ => key.start
  | array pos _ _ => pos
  | struct pos _ => pos
  | signature sig => if sig.pos.isKnown then sig.pos else sig.params.opening
  | interface pos _ => pos
  | map pos _ _ => pos
  | channel pos _ _ _ => pos

def stop : Expr → Pos
  | name word => word.stop
  | literal _ word => word.stop
  | dots _ (some elem) => elem.stop
  | dots pos none => pos.shift 3
  | function _ body => body.closing.shift 1
  | composite _ _ _ closing => closing.shift 1
  | paren _ _ closing => closing.shift 1
  | select _ field => field.stop
  | index _ _ _ closing => closing.shift 1
  | slice _ _ _ _ _ closing => closing.shift 1
  | assert _ _ _ closing => closing.shift 1
  | call _ _ _ _ closing => closing.shift 1
  | star _ x => x.stop
  | unary _ _ x => x.stop
  | binary _ _ _ y => y.stop
  | pair _ _ value => value.stop
  | array _ _ elem => elem.stop
  | struct _ fields => fields.stop
  | signature sig => sig.stop
  | interface _ methods => methods.stop
  | map _ _ value => value.stop
  | channel _ _ _ elem => elem.stop

def unparen : Expr → Expr
  | paren _ x _ => x.unparen
  | x => x

def isTypeElem : Expr → Bool
  | array .. | struct .. | signature .. | interface .. | map .. | channel .. => true
  | unary _ op _ => op == "~"
  | binary x _ _ y => x.isTypeElem || y.isTypeElem
  | paren _ x _ => x.isTypeElem
  | _ => false

def isTypeName : Expr → Bool
  | name _ => true
  | select x _ => x.isTypeName
  | _ => false

end Expr

def Spec.stop : Spec Expr → Pos
  | .imported _ _ stop => stop
  | .value names type? values _ =>
    match values.getLast?, type?, names.getLast? with
    | some x, _, _ => x.stop
    | none, some t, _ => t.stop
    | none, none, some name => name.stop
    | none, none, none => .unknown
  | .type _ _ _ t => t.stop

def Group.stop (g : Group Expr) : Pos :=
  if g.closing.isKnown then g.closing.shift 1
  else (g.specs.head?.map Spec.stop).getD .unknown

def Entry.start (e : Entry Expr) : Pos :=
  match e.names with
  | name :: _ => name.pos
  | [] => e.type.start

namespace Stmt

def start : Stmt → Pos
  | declare group => group.pos
  | empty pos => pos
  | labeled label _ _ => label.pos
  | expr x => x.start
  | send channel _ _ => channel.start
  | step x _ _ => x.start
  | assign lhs pos _ _ => (lhs.head?.map Expr.start).getD pos
  | launch pos _ _ => pos
  | giveBack pos _ => pos
  | branch pos _ _ => pos
  | block body => body.opening
  | choose pos _ _ _ _ => pos
  | clause pos _ _ _ => pos
  | switch pos _ _ _ => pos
  | typeSwitch pos _ _ _ => pos
  | communicate pos _ _ _ => pos
  | select pos _ => pos
  | loop pos _ _ _ _ => pos
  | range pos _ _ _ _ _ _ => pos

end Stmt

inductive Decl where
  | group (group : Group Expr)
  | function (doc : Option Pos) (receiver : Option (EntryList Expr)) (name : Word)
      (sig : Signature Expr) (body : Option (Block Stmt))

instance : Inhabited Decl := ⟨.group default⟩

namespace Decl

def keyword : Decl → String
  | group g => g.keyword
  | function .. => "func"

def doc : Decl → Option Pos
  | group g => g.doc
  | function doc .. => doc

def start : Decl → Pos
  | group g => g.pos
  | function _ _ _ sig _ => sig.pos

def stop : Decl → Pos
  | group g => g.stop
  | function _ _ _ _ (some body) => body.closing.shift 1
  | function _ _ _ sig none => sig.stop

def isImport (d : Decl) : Bool :=
  d.keyword == "import"

end Decl

structure File where
  pos : Pos
  name : Word
  decls : List Decl
  comments : List CommentGroup
  size : Nat
  deriving Inhabited

end RecordCodec.Source
