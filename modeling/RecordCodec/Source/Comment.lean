import RecordCodec.Source.Token

/-!
This module contains the comments of a source text: `attach` collects them into groups and notes for
each token the groups that stand around it.
-/

namespace RecordCodec.Source

structure Comment where
  pos : Pos
  text : String
  deriving DecidableEq, Repr, Inhabited

namespace Comment

def isLine (c : Comment) : Bool :=
  c.text.toList.take 2 == ['/', '/']

def stop (c : Comment) : Pos :=
  c.pos.advanceAll c.text.toList

end Comment

abbrev CommentGroup :=
  List Comment

/--
A token with the comment groups around it: `line` is the group on the line of the token before it,
if nothing else follows there, and `lead` is the group that ends on the line above it.
-/
structure Item where
  token : Token
  lead : Option CommentGroup := none
  line : Option CommentGroup := none
  deriving Repr, Inhabited

/--
The comments at the start of some tokens that are at most `gap` lines apart, the line where the last
one ends, and the other tokens. The group may go on from the line `endLine`.
-/
def takeGroup (gap : Nat) : (endLine : Nat) → List Token → CommentGroup × Nat × List Token
  | endLine, [] => ([], endLine, [])
  | endLine, t :: ts =>
    if t.kind == .comment && t.pos.line ≤ endLine + gap then
      let (group, last, rest) := takeGroup gap t.stop.line ts
      (⟨t.pos, t.text⟩ :: group, last, rest)
    else ([], endLine, t :: ts)

/--
All groups of the comments at the start of some tokens, the line where the last one ends, and the
other tokens. `fuel` bounds the number of groups.
-/
def takeGroups : (fuel : Nat) → List Token → List CommentGroup × Option Nat × List Token
  | 0, ts => ([], none, ts)
  | fuel + 1, ts =>
    match ts with
    | t :: _ =>
      if t.kind == .comment then
        let (group, last, rest) := takeGroup 1 t.pos.line ts
        match takeGroups fuel rest with
        | (groups, some last, rest) => (group :: groups, some last, rest)
        | (groups, none, rest) => (group :: groups, some last, rest)
      else ([], none, ts)
    | [] => ([], none, [])

/--
The next token with its comment groups, all groups before it, and the tokens after it. `line` is the
line of the token before it.
-/
def nextItem? (line : Nat) (ts : List Token) : Option (Item × List CommentGroup × List Token) := do
  let isSame := ts.head?.any fun t => t.kind == .comment && t.pos.line == line
  let (own, ownEnd, others) := if isSame then takeGroup 0 line ts else ([], 0, ts)
  let (groups, last, rest) := takeGroups others.length others
  -- The own group is judged by what follows it, which may be another comment.
  let follower ← others.head?
  let token ← rest.head?
  let isLine := isSame &&
    (follower.pos.line != ownEnd || follower.kind == .semicolon || follower.kind == .eof)
  let item : Item := {
    token := token
    line := if isLine then some own else none
    lead := if last.any (· + 1 == token.pos.line) then groups.getLast? else none }
  return (item, (if isSame then [own] else []) ++ groups, rest.tail)

/--
The tokens of a text with the comment groups around them, and all groups in order. `fuel` bounds the
number of tokens.
-/
def attachFrom : (fuel : Nat) → (line : Nat) → List Token → List Item × List CommentGroup
  | 0, _, _ => ([], [])
  | fuel + 1, line, ts =>
    match nextItem? line ts with
    | none => ([], [])
    | some (item, groups, rest) =>
      let (items, more) := attachFrom fuel item.token.pos.line rest
      (item :: items, groups ++ more)

def attach (ts : List Token) : List Item × List CommentGroup :=
  attachFrom ts.length 0 ts

end RecordCodec.Source
