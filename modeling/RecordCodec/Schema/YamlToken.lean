import RecordCodec.Text.Quoted
import RecordCodec.Text.Unquoted

/-!
This module contains the tokens of YAML texts. `tokenize` splits a text into tokens: it adds those that
indentation stands for, and marks the keys that only a later colon shows to be keys. Anchors, tags,
directives and block scalars are not read.
-/

namespace RecordCodec.Schema.Yaml

open RecordCodec.Text

inductive Token where
  | documentStart
  | documentEnd
  | streamEnd
  | blockSequenceStart
  | blockMappingStart
  | blockEnd
  | flowSequenceStart
  | flowSequenceEnd
  | flowMappingStart
  | flowMappingEnd
  | blockEntry
  | flowEntry
  | key
  | value
  | scalar (text : String) (isPlain : Bool)
  | invalid
  deriving DecidableEq, Repr, Inhabited

/-! Characters. -/

def isSpace (c : Char) : Bool :=
  c == ' ' || c == '\t'

def isBreak (c : Char) : Bool :=
  c == '\n' || c == '\r' || c.toNat == 0x85 || c.toNat == 0x2028 || c.toNat == 0x2029

def isAtGap : List Char → Bool
  | [] => true
  | c :: _ => isSpace c || isBreak c

def isAllowed (c : Char) : Bool :=
  let n := c.toNat
  n == 0x09 || n == 0x0A || n == 0x0D || (0x20 ≤ n && n ≤ 0x7E) || n == 0x85 || (0xA0 ≤ n && n ≤ 0xFFFD)
    || 0x10000 ≤ n

def byteOrderMark : Char :=
  Char.ofNat 0xFEFF

/-! Positions. -/

structure Cursor where
  rest : List Char
  line : Nat := 0
  column : Nat := 0
  index : Nat := 0
  deriving DecidableEq, Repr, Inhabited

namespace Cursor

def advance (c : Cursor) (count : Nat := 1) : Cursor :=
  { c with rest := c.rest.drop count, column := c.column + count, index := c.index + count }

def advanceLine (c : Cursor) : Cursor :=
  let count := match c.rest with
    | '\r' :: '\n' :: _ => 2
    | _ => 1
  { rest := c.rest.drop count, line := c.line + 1, column := 0, index := c.index + count }

def breakChar (c : Cursor) : Char :=
  match c.rest with
  | b :: _ => if b.toNat == 0x2028 || b.toNat == 0x2029 then b else '\n'
  | [] => '\n'

def isAtMarker (c : Cursor) : Bool :=
  c.column == 0 && (c.rest.take 3 == ['-', '-', '-'] || c.rest.take 3 == ['.', '.', '.'])
    && isAtGap (c.rest.drop 3)

def advanceWhile (c : Cursor) (p : Char → Bool) : Cursor :=
  c.advance (c.rest.takeWhile p).length

def skipComments : (fuel : Nat) → Cursor → Cursor
  | 0, c => c
  | fuel + 1, c =>
    let c := c.advanceWhile (!isBreak ·)
    let next := skipGap c.rest.length c
    if next.rest.head? == some '#' then skipComments fuel next else c
where
  skipGap : Nat → Cursor → Cursor
    | 0, c => c
    | fuel + 1, c =>
      match c.rest with
      | x :: _ =>
        if isSpace x then skipGap fuel c.advance
        else if isBreak x then skipGap fuel c.advanceLine
        else c
      | [] => c

end Cursor

/-! Scalars. -/

structure Gap where
  spaces : List Char := []
  isBroken : Bool := false
  firstBreak : Option Char := none
  breaks : List Char := []
  deriving DecidableEq, Repr, Inhabited

namespace Gap

def text (g : Gap) : List Char :=
  if !g.isBroken then g.spaces
  else if g.firstBreak == some '\n' then if g.breaks.isEmpty then [' '] else g.breaks
  else g.firstBreak.toList ++ g.breaks

def read? (tabColumn : Nat) : (fuel : Nat) → Gap → Cursor → Option (Gap × Cursor)
  | 0, g, c => some (g, c)
  | fuel + 1, g, c =>
    match c.rest with
    | x :: _ =>
      if isSpace x then
        if g.isBroken then
          if x == '\t' && c.column < tabColumn then none else read? tabColumn fuel g c.advance
        else read? tabColumn fuel { g with spaces := g.spaces ++ [x] } c.advance
      else if isBreak x then
        let g := if g.isBroken then { g with breaks := g.breaks ++ [c.breakChar] }
          else { g with spaces := [], isBroken := true, firstBreak := some c.breakChar }
        read? tabColumn fuel g c.advanceLine
      else some (g, c)
    | [] => some (g, c)

end Gap

def endsPlain (inFlow : Bool) (cs : List Char) : Bool :=
  match cs with
  | [] => true
  | c :: rest =>
    isAtGap cs || (c == ':' && isAtGap rest)
      || (inFlow && [',', '?', '[', ']', '\x7b', '\x7d'].contains c)

def plainRun (inFlow : Bool) : List Char → List Char
  | [] => []
  | c :: cs => if endsPlain inFlow (c :: cs) then [] else c :: plainRun inFlow cs

structure ScalarRead where
  text : List Char
  endsBroken : Bool
  cursor : Cursor
  deriving Repr, Inhabited

def readPlain? (inFlow : Bool) (indent : Nat) : (fuel : Nat) → (text : List Char) → (gap : Gap) →
    Cursor → Option ScalarRead
  | 0, _, _, _ => none
  | fuel + 1, text, gap, c =>
    if c.isAtMarker || c.rest.head? == some '#' then some ⟨text, gap.isBroken, c⟩
    else
      let run := plainRun inFlow c.rest
      if run.isEmpty then some ⟨text, gap.isBroken, c⟩
      else
        let text := text ++ gap.text ++ run
        let c := c.advance run.length
        if c.rest.isEmpty || !isAtGap c.rest then some ⟨text, false, c⟩
        else match Gap.read? indent (c.rest.length + 1) {} c with
          | none => none
          | some (gap, c) =>
            if !inFlow && c.column < indent then some ⟨text, gap.isBroken, c⟩
            else readPlain? inFlow indent fuel text gap c

def escapedChar? (c : Char) : Option Char :=
  [('0', 0), ('a', 7), ('b', 8), ('t', 9), ('\t', 9), ('n', 10), ('v', 11), ('f', 12), ('r', 13),
    ('e', 27), (' ', 32), ('"', 34), (apostrophe, 39), ('\\', 92), ('N', 0x85), ('_', 0xA0),
    ('L', 0x2028), ('P', 0x2029)].lookup c |>.map Char.ofNat

def escapeLength? (c : Char) : Option Nat :=
  [('x', 2), ('u', 4), ('U', 8)].lookup c

/--
Read the characters of a quoted scalar up to white space, its end or an escaped line end. The result
has what was read, whether an escaped line end stopped it, and what is left.
-/
def quotedRun? (quote : Char) : (fuel : Nat) → List Char → Cursor →
    Option (List Char × Bool × Cursor)
  | 0, _, _ => none
  | fuel + 1, text, c =>
    if isAtGap c.rest then some (text, false, c)
    else match c.rest with
      | [] => some (text, false, c)
      | x :: rest =>
        if x == quote then
          if quote == apostrophe && rest.head? == some apostrophe then
            quotedRun? quote fuel (text ++ [apostrophe]) (c.advance 2)
          else some (text, false, c)
        else if x == '\\' && quote != apostrophe then
          match rest with
          | [] => none
          | e :: rest =>
            if isBreak e then some (text, true, c.advance.advanceLine)
            else match escapedChar? e, escapeLength? e with
              | some x, _ => quotedRun? quote fuel (text ++ [x]) (c.advance 2)
              | none, some count =>
                match takeDigits? 16 count rest with
                | some (n, _) =>
                  if isScalarValue n then
                    quotedRun? quote fuel (text ++ [Char.ofNat n]) (c.advance (2 + count))
                  else none
                | none => none
              | none, none => none
        else quotedRun? quote fuel (text ++ [x]) c.advance

def readQuoted? (quote : Char) : (fuel : Nat) → (text : List Char) → Cursor → Option ScalarRead
  | 0, _, _ => none
  | fuel + 1, text, c =>
    if c.isAtMarker || c.rest.isEmpty then none
    else match quotedRun? quote (c.rest.length + 1) text c with
      | none => none
      | some (text, isBroken, c) =>
        if c.rest.head? == some quote then some ⟨text, false, c.advance⟩
        else match Gap.read? 0 (c.rest.length + 1) { isBroken } c with
          | none => none
          | some (gap, c) => readQuoted? quote fuel (text ++ gap.text) c

/-! Scanning. -/

structure KeyStart where
  isRequired : Bool
  number : Nat
  line : Nat
  column : Nat
  index : Nat
  deriving DecidableEq, Repr

structure Scanner where
  cursor : Cursor
  tokens : Array Token := #[]
  /-- The column of the innermost block, -1 outside of blocks. -/
  indent : Int := -1
  indents : List Int := []
  keyAllowed : Bool := true
  /-- The last place where a key may start, for each flow collection and for the text around them. -/
  keys : List (Option KeyStart) := [none]

namespace Scanner

def inFlow (s : Scanner) : Bool :=
  1 < s.keys.length

def push (s : Scanner) (t : Token) : Scanner :=
  { s with tokens := s.tokens.push t }

def keyStart? (s : Scanner) : Option KeyStart :=
  s.keys.head?.join

def setKey (s : Scanner) (k : Option KeyStart) : Scanner :=
  { s with keys := k :: s.keys.tail }

def dropKey? (s : Scanner) : Option Scanner :=
  match s.keyStart? with
  | some k => if k.isRequired then none else some (s.setKey none)
  | none => some s

def saveKey? (s : Scanner) : Option Scanner :=
  if s.keyAllowed then
    let c := s.cursor
    s.dropKey?.map (·.setKey (some ⟨!s.inFlow && s.indent == c.column, s.tokens.size, c.line, c.column,
      c.index⟩))
  else some s

def openBlock (s : Scanner) (column : Nat) (number : Option Nat) (t : Token) : Scanner :=
  if s.inFlow || (column : Int) ≤ s.indent then s
  else
    { s with
      indent := column
      indents := s.indent :: s.indents
      tokens := s.tokens.insertIdxIfInBounds (number.getD s.tokens.size) t }

def closeBlocks (s : Scanner) (column : Int) : Scanner :=
  if s.inFlow then s else go s.indent s.indents s.tokens
where
  go (indent : Int) (indents : List Int) (tokens : Array Token) : Scanner :=
    if indent ≤ column then { s with indent, indents, tokens }
    else match indents with
      | [] => { s with indent, indents, tokens }
      | outer :: indents => go outer indents (tokens.push .blockEnd)

def allowsTab (s : Scanner) : Bool :=
  s.inFlow || !s.keyAllowed

def skipBlank : (fuel : Nat) → Scanner → Scanner
  | 0, s => s
  | fuel + 1, s =>
    let c := s.cursor
    let c := if c.column == 0 && c.rest.head? == some byteOrderMark then c.advance else c
    let c := c.advanceWhile fun x => x == ' ' || (x == '\t' && s.allowsTab)
    let c := if c.rest.head? == some '#' then c.skipComments c.rest.length else c
    match c.rest with
    | x :: _ =>
      if isBreak x then
        skipBlank fuel { s with
          cursor := c.advanceLine, keyAllowed := s.keyAllowed || !s.inFlow }
      else { s with cursor := c }
    | [] => { s with cursor := c }

def endStream? (s : Scanner) : Option Scanner := do
  let s ← (s.closeBlocks (-1)).dropKey?
  return s.push .streamEnd

def marker? (s : Scanner) (t : Token) : Option Scanner := do
  let s ← (s.closeBlocks (-1)).dropKey?
  return { s with keyAllowed := false, cursor := s.cursor.advance 3 }.push t

def openFlow? (s : Scanner) (t : Token) : Option Scanner := do
  let s ← s.saveKey?
  return { s with keys := none :: s.keys, keyAllowed := true, cursor := s.cursor.advance }.push t

def closeFlow? (s : Scanner) (t : Token) : Option Scanner := do
  let s ← s.dropKey?
  let keys := if s.inFlow then s.keys.tail else s.keys
  return { s with keys, keyAllowed := false, cursor := s.cursor.advance }.push t

def flowEntry? (s : Scanner) : Option Scanner := do
  let s ← s.dropKey?
  return { s with keyAllowed := true, cursor := s.cursor.advance }.push .flowEntry

def blockEntry? (s : Scanner) : Option Scanner := do
  let s ← if s.inFlow then some s
    else if s.keyAllowed then some (s.openBlock s.cursor.column none .blockSequenceStart)
    else none
  let s ← s.dropKey?
  return { s with keyAllowed := true, cursor := s.cursor.advance }.push .blockEntry

def key? (s : Scanner) : Option Scanner := do
  let s ← if s.inFlow then some s
    else if s.keyAllowed then some (s.openBlock s.cursor.column none .blockMappingStart)
    else none
  let s ← s.dropKey?
  return { s with keyAllowed := !s.inFlow, cursor := s.cursor.advance }.push .key

/--
Whether a colon here makes a key of what starts at a place: both are on one line and near to each
other. `none` if it has to and cannot.
-/
def isKey? (s : Scanner) (k : KeyStart) : Option Bool :=
  if k.line < s.cursor.line || k.index + 1024 < s.cursor.index then
    if k.isRequired then none else some false
  else some true

def value? (s : Scanner) : Option Scanner := do
  let k := s.keyStart?
  let isKey ← match k with
    | some k => s.isKey? k
    | none => some false
  let s ← match k, isKey with
    | some k, true =>
      let s := { s with tokens := s.tokens.insertIdxIfInBounds k.number .key }
      let s := s.openBlock k.column (some k.number) .blockMappingStart
      some { s.setKey none with keyAllowed := false }
    | _, _ =>
      let s := s.setKey none
      if s.inFlow then some { s with keyAllowed := false }
      else if s.keyAllowed then
        some (s.openBlock s.cursor.column none .blockMappingStart)
      else none
  return { s with cursor := s.cursor.advance }.push .value

def quoted? (s : Scanner) (quote : Char) : Option Scanner := do
  let s ← s.saveKey?
  let c := s.cursor.advance
  let r ← readQuoted? quote (c.rest.length + 1) [] c
  return { s with keyAllowed := false, cursor := r.cursor }.push (.scalar (String.ofList r.text) false)

def plain? (s : Scanner) : Option Scanner := do
  let s ← s.saveKey?
  let c := s.cursor
  let r ← readPlain? s.inFlow (s.indent + 1).toNat (c.rest.length + 1) [] {} c
  return { s with keyAllowed := r.endsBroken, cursor := r.cursor }.push
    (.scalar (String.ofList r.text) true)

def indicators : List Char :=
  ['-', '?', ':', ',', '[', ']', '\x7b', '\x7d', '#', '&', '*', '!', '|', '>', apostrophe, '"', '%', '@',
    backQuote]

def startsPlain (inFlow : Bool) : List Char → Bool
  | [] => false
  | c :: rest =>
    if c == '-' then !(rest.head?.map isSpace).getD false
    else if c == '?' || c == ':' then !inFlow && !isAtGap rest
    else !indicators.contains c && !isAtGap (c :: rest)

def next? (s : Scanner) : Option Scanner :=
  let s := s.skipBlank (s.cursor.rest.length + 1)
  let s := s.closeBlocks s.cursor.column
  match s.cursor.rest with
  | [] => s.endStream?
  | c :: rest =>
    if s.cursor.isAtMarker then s.marker? (if c == '-' then .documentStart else .documentEnd)
    else if c == '[' then s.openFlow? .flowSequenceStart
    else if c == '\x7b' then s.openFlow? .flowMappingStart
    else if c == ']' then s.closeFlow? .flowSequenceEnd
    else if c == '\x7d' then s.closeFlow? .flowMappingEnd
    else if c == ',' then s.flowEntry?
    else if c == '-' && isAtGap rest then s.blockEntry?
    else if c == '?' && (s.inFlow || isAtGap rest) then s.key?
    else if c == ':' && (s.inFlow || isAtGap rest) then s.value?
    else if c == apostrophe || c == '"' then s.quoted? c
    else if startsPlain s.inFlow (c :: rest) then s.plain?
    else none

def run : (fuel : Nat) → Scanner → Array Token
  | 0, s => s.tokens.push .invalid
  | fuel + 1, s =>
    match s.next? with
    | none => s.tokens.push .invalid
    | some s => if s.tokens.back? == some .streamEnd then s.tokens else run fuel s

end Scanner

def tokenize (text : String) : List Token :=
  let cs := text.toList
  if cs.all isAllowed then (Scanner.run (cs.length + 1) { cursor := { rest := cs } }).toList
  else [.invalid]

end RecordCodec.Schema.Yaml
