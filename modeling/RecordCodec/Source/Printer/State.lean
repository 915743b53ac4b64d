import RecordCodec.Source.BuildConstraint
import RecordCodec.Source.Columns
import RecordCodec.Source.DocComment

/-!
This module contains the state of the printer of source trees and the steps that write to its
output. White space is held back until the next token is known, because the comments before the
token are placed in it.
-/

namespace RecordCodec.Source

inductive White where
  | blank
  | cell
  | newline
  | divider
  | indent
  | unindent
  deriving DecidableEq, Repr, Inhabited

namespace White

def isBreak : White → Bool
  | newline | divider => true
  | _ => false

end White

inductive Mark where
  | word
  | integer
  | symbol (text : String)
  | eof
  deriving DecidableEq, Repr, Inhabited

/--
The state of the printer. `pos` is the current position in the source text, `out` the one in the
output, and `last` the position in the source after the last text that was written. `recorded` holds
the output lines of the tokens that callers asked for. `buildExpressions` and `buildLists` are the
places in the output where comments stand that state when the file is built.
-/
structure Printer where
  normalizesNumbers : Bool
  output : Array Atom := #[]
  indent : Nat := 0
  level : Nat := 0
  noExtraBlank : Bool := false
  noExtraBreak : Bool := false
  endsColumns : Bool := false
  impliesSemicolon : Bool := false
  lastMark : Option Mark := none
  /-- The opening bracket that was printed last, if nothing follows it. -/
  lastOpening : Option String := none
  pending : List White := []
  pos : Pos := .start
  out : Pos := .start
  last : Pos := .unknown
  comments : List CommentGroup := []
  recorded : List (Option Nat) := []
  buildExpressions : List Nat := []
  buildLists : List Nat := []
  deriving Inhabited

abbrev Print :=
  StateM Printer

def Pos.infinite : Pos := ⟨0x40000000, 0x40000000, 0⟩

namespace Print

/-! Writing. -/

def writeIndent : Print Unit :=
  modify fun p => { p with
    output := p.output ++ List.replicate p.indent Atom.tab
    pos := p.pos.shift p.indent
    out := p.out.shift p.indent }

def startLine : Print Unit := do
  if (← get).out.column == 1 then writeIndent

def after (p : Pos) (s : String) : Pos :=
  s.toList.foldl (fun p c =>
    if Atom.endsLine c then ⟨p.offset + 1, p.line + 1, 1⟩ else p.advance c) p

def writeText (pos : Pos) (s : String) : Print Unit := do
  startLine
  modify fun p =>
    let pos := after (if pos.isKnown then pos else p.pos) s
    { p with
      output := p.output.push (.text s)
      endsColumns := p.endsColumns || (Atom.text s).isSplit
      pos := pos
      out := after p.out s
      last := pos }

def writeBreaks (isSection : Bool) (count : Nat) : Print Unit := do
  let isSection := isSection || (← get).endsColumns
  startLine
  modify fun p => { p with
    endsColumns := false
    output := p.output ++ List.replicate count (if isSection then Atom.divider else .line)
    pos := ⟨p.pos.offset + count, p.pos.line + count, 1⟩
    out := ⟨p.out.offset + count, p.out.line + count, 1⟩ }

def writeSpace (atom : Atom) : Print Unit := do
  startLine
  modify fun p => { p with
    output := p.output.push (if p.endsColumns then .blank else atom)
    pos := p.pos.shift 1
    out := p.out.shift 1 }

/--
Write white space. A line end directly before the end of an indentation comes after it, so that a
label stands further left, and ends the section; `held` is such a line end.
-/
def writeWhite (held : Option White) : List White → Print Unit
  | [] => writeHeld held
  | w :: ws => do
    match w with
    | .unindent =>
      modify fun p => { p with indent := p.indent - 1 }
      writeWhite (held.map fun _ => .divider) ws
    | .indent =>
      writeHeld held
      modify fun p => { p with indent := p.indent + 1 }
      writeWhite none ws
    | .blank =>
      writeHeld held
      writeSpace .blank
      writeWhite none ws
    | .cell =>
      writeHeld held
      writeSpace .cell
      writeWhite none ws
    | .newline | .divider =>
      writeHeld held
      writeWhite (some w) ws
where
  writeHeld : Option White → Print Unit
    | none => pure ()
    | some w => writeBreaks (w == .divider) 1

def writePending (now later : List White) : Print Unit := do
  modify fun p => { p with pending := [] }
  writeWhite none now
  modify fun p => { p with pending := later }

/-! Comments. -/

def breaksLine (group : CommentGroup) : Bool :=
  group.any fun c =>
    c.isLine || c.text.toList.contains '\n' || some c.pos.line != group.head?.map (·.pos.line)

/--
Whether a group of comments comes before a position of the source. A group that breaks the line does
not where a line end would stand for a semicolon.
-/
def isBefore (p : Printer) (next : Pos) (group : CommentGroup) : Bool :=
  (group.head?.any (·.pos.offset < next.offset)) && (!p.impliesSemicolon || !breaksLine group)

def hasCommentBefore (next : Pos) : Print Bool := do
  let p ← get
  return p.comments.head?.any (isBefore p next)

def commentSizeBefore (next : Pos) : Print Nat := do
  let p ← get
  let groups := p.comments.takeWhile (isBefore p next)
  return ((groups.flatten).map (·.text.utf8ByteSize)).foldl (· + ·) 0

/--
The pending white space before a comment on the line of the last text: blanks are dropped. The
second part, if there is any, starts at the first line end or end of an indentation.
-/
def splitSameLine : List White → List White × Option (List White)
  | [] => ([], none)
  | w :: ws =>
    match w with
    | .blank => splitSameLine ws
    | .cell | .indent =>
      let (kept, rest) := splitSameLine ws
      (w :: kept, rest)
    | _ => ([], some (w :: ws))

/--
The pending white space before a comment on another line: blanks and cells are dropped, and so is
the first line end, which the flag tells. The second part, if there is any, starts there or at the
end of an indentation that closes a block.
-/
def splitOtherLine (appliesUnindent : Bool) : List White → List White × Option (List White) × Bool
  | [] => ([], none, false)
  | w :: ws =>
    match w with
    | .blank | .cell => splitOtherLine appliesUnindent ws
    | .indent => keep w ws
    | .unindent =>
      if ws.head? == some .unindent || appliesUnindent then keep w ws
      else ([], some (w :: ws), false)
    | .newline | .divider => ([], some ws, true)
where
  keep (w : White) (ws : List White) : List White × Option (List White) × Bool :=
    let (kept, rest, dropped) := splitOtherLine appliesUnindent ws
    (w :: kept, rest, dropped)

def writeSplit (kept : List White) (rest : Option (List White)) : Print Unit :=
  match rest with
  | some rest => writePending kept rest
  | none => modify fun p => { p with pending := kept }

/--
Write the white space before a comment at a position. `next` is the position of the token after all
comments and `mark` what it is; `prev` is the comment before it in its group, if there is one.
-/
def writeCommentStart (pos next : Pos) (prev : Option Comment) (mark : Option Mark) :
    Print Unit := do
  let p ← get
  if p.output.isEmpty then return
  if pos.line == p.last.line && prev.all (!·.isLine) then
    let isSeparated ← match prev with
      | some _ => pure false
      | none => do
        let (kept, rest) := splitSameLine p.pending
        writeSplit kept rest
        pure (kept.contains .cell)
    unless isSeparated do
      writeSpace (if pos.line == next.line then .blank else .tab)
  else
    let appliesUnindent := mark != some (.symbol "\x7d") && pos.column == next.column
    let (kept, rest, dropped) := splitOtherLine appliesUnindent p.pending
    writeSplit kept rest
    let p ← get
    let lines := if pos.isKnown && p.last.isKnown then pos.line - p.last.line else 0
    let lines := if p.indent == 0 && dropped && prev.isNone then lines + 1 else lines
    let lines := if lines == 0 && prev.any Comment.isLine then 1 else lines
    if 0 < lines then writeBreaks true (min lines 2)

def isBlankLine (line : List Char) : Bool :=
  line.all (· ≤ ' ')

def commonMargin : List Char → List Char → List Char
  | a :: as, b :: bs => if a == b && (a ≤ ' ' || a == '*') then a :: commonMargin as bs else []
  | _, _ => []

def dropEnd (stop : List Char) (cs : List Char) : List Char :=
  if stop.isSuffixOf cs then cs.take (cs.length - stop.length) else cs

def marginBelow (first margin : List Char) : List Char :=
  let body := first.drop 2
  if isBlankLine body then
    let blanks := min 3 ((margin.reverse.takeWhile (· == ' ')).length)
    if 0 < blanks then margin.take (margin.length - blanks)
    else if margin.getLast? == some '\t' then margin.dropLast
    else margin
  else
    let space := body.takeWhile (· ≤ ' ')
    dropEnd (if space.head? == some '\t' then space else ' ' :: ' ' :: space) margin

/--
The lines of a comment between marks without their common margin. The text inside stays aligned, as
does a line of stars, and the closing mark is aligned with the opening one.
-/
def stripMargin (lines : List (List Char)) : List (List Char) :=
  match lines, lines.getLast? with
  | first :: rest@(_ :: _), some last =>
    let inner := rest.dropLast.map fun line => if isBlankLine line then [] else line
    let margin := match inner.filter (!·.isEmpty) with
      | [] => commonMargin last last
      | line :: lines => lines.foldl commonMargin (commonMargin line line)
    let hasStars := margin.contains '*'
    let margin := if hasStars then dropEnd [' '] (margin.takeWhile (· != '*'))
      else marginBelow first margin
    let isClosing := (DocComment.cutAt? ['*', '/'] last).any fun (before, _) => isBlankLine before
    let closing := if hasStars then [' ', '*', '/'] else ['*', '/']
    let (last, margin) := if isClosing then (margin ++ closing, margin)
      else (last, commonMargin margin last)
    first :: (inner ++ [last]).map fun line => if line.isEmpty then [] else line.drop margin.length
  | _, _ => lines

def noteBuildLine (c : Comment) : Print Unit :=
  modify fun p =>
    if (buildExpression? c.text).isSome then
      { p with buildExpressions := p.buildExpressions ++ [p.output.size] }
    else if (buildLists? c.text).isSome then
      { p with buildLists := p.buildLists ++ [p.output.size] }
    else p

def atMargin (c : Comment) (step : Print Unit) : Print Unit := do
  if "//line ".isPrefixOf c.text && (!c.pos.isKnown || c.pos.column == 1) then
    let indent := (← get).indent
    modify fun p => { p with indent := 0 }
    step
    modify fun p => { p with indent := indent }
  else step

def writeComment (c : Comment) : Print Unit := do
  let text := c.text.toList
  if c.isLine then
    noteBuildLine c
    atMargin c (writeText c.pos (String.ofList (Text.trimEnd text)))
  else
    let isShifted := c.pos.isKnown && c.pos.column == 1 && 0 < (← get).indent
    let lines := match Text.lines text with
      | first :: rest =>
        first :: if isShifted then rest.map fun line => ' ' :: ' ' :: ' ' :: line else rest
      | [] => []
    match stripMargin lines with
    | [] => return
    | first :: rest =>
      writeText c.pos (String.ofList (Text.trimEnd first))
      for line in rest do
        writeBreaks true 1
        unless line.isEmpty do
          writeText (← get).pos (String.ofList (Text.trimEnd line))

/--
The pending white space after a comment: blanks and cells are dropped, and so are line ends, except
for one if it is needed. Says whether a line end is still needed, and whether the end of a section
was dropped.
-/
def keepAfterComment : (needsBreak : Bool) → List White → List White × Bool × Bool
  | needsBreak, [] => ([], needsBreak, false)
  | needsBreak, w :: ws =>
    match w with
    | .blank | .cell => keepAfterComment needsBreak ws
    | .indent | .unindent =>
      let (kept, needsBreak, dropped) := keepAfterComment needsBreak ws
      (w :: kept, needsBreak, dropped)
    | .newline | .divider =>
      if needsBreak then
        let (kept, needsBreak, dropped) := keepAfterComment false ws
        (w :: kept, needsBreak, dropped)
      else
        let (kept, needsBreak, dropped) := keepAfterComment false ws
        (kept, needsBreak, dropped || w == .divider)

/--
Write the white space after comments. Says whether a line end was written, and whether the end of a
section was dropped.
-/
def writeCommentStop (needsBreak : Bool) : Print (Bool × Bool) := do
  let (kept, stillNeeded, dropped) := keepAfterComment needsBreak (← get).pending
  writePending kept []
  if stillNeeded then writeBreaks false 1
  return (needsBreak, dropped)

def nextComments : Print Unit :=
  modify fun p => { p with comments := p.comments.tail }

def groupStop (group : CommentGroup) : Pos :=
  (group.getLast?.map Comment.stop).getD .unknown

/--
Whether a group of comments documents the token at a position: the token is a keyword other than the
one of imports, the group starts its line, and only a line end or a blank stands between them.
-/
def documents (p : Printer) (group : CommentGroup) (next : Pos) : Bool :=
  let stop := groupStop group
  let isKeyword := match p.lastMark with
    | some (.symbol s) => s != "import" && keywords.contains s
    | _ => false
  isKeyword && group.head?.any (·.pos.column == 1) &&
    (next == ⟨stop.offset + 1, stop.line + 1, 1⟩ || next == stop.shift 1)

/--
Write the comments before a token, and the white space around them. `last` is the comment that was
written last. Gives back that comment, or nothing if the rest was written too, in which case it says
whether the end of a section was dropped. `fuel` bounds the number of groups.
-/
def writeGroups (next : Pos) (mark : Option Mark) :
    (fuel : Nat) → (last : Option Comment) → Print (Option Comment ⊕ (Bool × Bool))
  | 0, last => return .inl last
  | fuel + 1, last => do
    let p ← get
    match p.comments with
    | group :: _ =>
      if !isBefore p next group then return .inl last
      let isDoc := documents p group next
      let shown := if isDoc then DocComment.format group else group
      if shown.isEmpty then
        writeCommentStart ((group.head?.map Comment.pos).getD .unknown) next last mark
        modify fun p => { p with pos := next, last := next }
        nextComments
        return .inr (← writeCommentStop false)
      let last ← shown.foldlM (fun last c => do
        writeCommentStart c.pos next last mark
        writeComment c
        return some c) last
      let last := if isDoc then group.getLast? else last
      if isDoc then
        modify fun p => { p with pos := groupStop group, last := groupStop group }
      nextComments
      writeGroups next mark fuel last
    | [] => return .inl last

/--
Whether a blank or a line end is wanted between a comment between marks and the token after it on
its line. A closing bracket directly after its opening one wants it too.
-/
def wantsSpace (p : Printer) (last : Comment) (next : Pos) (mark : Option Mark) : Bool :=
  !p.noExtraBlank && !last.isLine && last.pos.line == next.line && mark != some (.symbol ",") &&
    (mark != some (.symbol ")") || p.lastOpening == some "(") &&
    (mark != some (.symbol "]") || p.lastOpening == some "[")

/--
Write the comments before a token, and the white space around them. Says whether a line end was
written, and whether the end of a section was dropped.
-/
def writeComments (next : Pos) (mark : Option Mark) : Print (Bool × Bool) := do
  match ← writeGroups next mark ((← get).comments.length + 1) none with
  | .inr result => return result
  | .inl none => return (false, false)
  | .inl (some last) =>
    let p ← get
    let isWanted := wantsSpace p last next mark
    let breaks := isWanted && p.pending.any White.isBreak && !p.noExtraBreak && p.level == 0
    if isWanted && !breaks then writeSpace .blank
    writeCommentStop (breaks || last.isLine || mark == some .eof ||
      (mark == some (.symbol "\x7d") && !p.noExtraBreak))

def flush (next : Pos) (mark : Option Mark) : Print (Bool × Bool) := do
  if ← hasCommentBefore next then writeComments next mark
  else
    writePending (← get).pending []
    return (false, false)

/-! Printing. -/

def noteOpening : Print Unit :=
  modify fun p =>
    match p.lastMark with
    | none => p
    | some (.symbol s) => { p with lastOpening := if s == "(" || s == "[" then some s else none }
    | some _ => { p with lastOpening := none }

def pendingLimit : Nat := 16

def white (w : White) : Print Unit := do
  noteOpening
  if (← get).pending.length == pendingLimit then writePending (← get).pending []
  modify fun p => { p with
    pending := p.pending ++ [w]
    impliesSemicolon := p.impliesSemicolon && !w.isBreak
    lastMark := none }

def goTo (pos : Pos) : Print Unit :=
  modify fun p => if pos.isKnown then { p with pos := pos } else p

def token (mark : Mark) (text : String) (impliesSemicolon : Bool) : Print Unit := do
  noteOpening
  modify fun p => { p with lastMark := some mark }
  let next := (← get).pos
  let (wroteBreak, droppedSection) ← flush next (some mark)
  let p ← get
  let lines := if p.impliesSemicolon then 0 else min (next.line - p.pos.line) 2
  let lines := if wroteBreak && lines == 2 then 1 else lines
  if 0 < lines then writeBreaks droppedSection lines
  modify fun p => { p with
    recorded := match p.recorded with
      | none :: rest => some p.out.line :: rest
      | lines => lines }
  writeText next text
  modify fun p => { p with impliesSemicolon := impliesSemicolon && lines == 0 }

def name (text : String) : Print Unit :=
  token .word text true

def wouldJoin (last : Option Mark) (text : String) : Bool :=
  match last, text.toList with
  | some .integer, c :: _ => c == '.'
  | some (.symbol "+"), c :: _ => c == '+'
  | some (.symbol "-"), c :: _ => c == '-'
  | some (.symbol "/"), c :: _ => c == '*'
  | some (.symbol "<"), c :: _ => c == '-' || c == '<'
  | some (.symbol "&"), c :: _ => c == '&' || c == '^'
  | _, _ => false

def symbol (text : String) : Print Unit := do
  if wouldJoin (← get).lastMark text then
    modify fun p => { p with pending := [.blank] }
  token (.symbol text) text
    (["break", "continue", "fallthrough", "return", "++", "--", ")", "]", "\x7d"].contains text)

def recordLine (step : Print Unit) : Print Nat := do
  modify fun p => { p with recorded := none :: p.recorded }
  step
  let line := ((← get).recorded.head?.getD none).getD 0
  modify fun p => { p with recorded := p.recorded.tail }
  return line

def isPast (line : Nat) : Print Bool := do
  return line < (← get).out.line

/--
Print line ends up to a line of the source, at least `least` and at most two. White space `before`
comes first. The first line end ends the section if `isSection` is set, and then counts twice in the
number that is given back.
-/
def breakTo (line least : Nat) (before : Option White) (isSection : Bool) : Print Nat := do
  let lines := max (min (line - (← get).pos.line) 2) least
  if lines == 0 then return 0
  if let some w := before then white w
  if isSection then
    white .divider
    for _ in List.range (lines - 1) do white .newline
    return lines + 1
  for _ in List.range lines do white .newline
  return lines

end Print

end RecordCodec.Source
