import RecordCodec.Number.Integer
import RecordCodec.Text.Category
import RecordCodec.Text.Unquoted

/-!
This module contains the tokens of Go source text: `tokenize` splits a text into its tokens and
comments and adds the semicolons that line ends stand for.
-/

namespace RecordCodec.Source

open RecordCodec.Text RecordCodec.Number

structure Pos where
  offset : Nat
  line : Nat
  column : Nat
  deriving DecidableEq, Repr, Inhabited

namespace Pos

def unknown : Pos := ⟨0, 0, 0⟩

def start : Pos := ⟨0, 1, 1⟩

def isKnown (p : Pos) : Bool :=
  p.line != 0

def advance (p : Pos) (c : Char) : Pos :=
  let size := (utf8Char c).length
  if c == '\n' then ⟨p.offset + size, p.line + 1, 1⟩
  else ⟨p.offset + size, p.line, p.column + size⟩

def advanceAll (p : Pos) (cs : List Char) : Pos :=
  cs.foldl advance p

def shift (p : Pos) (size : Nat) : Pos :=
  ⟨p.offset + size, p.line, p.column + size⟩

end Pos

inductive TokenKind where
  | ident
  | int
  | float
  | imag
  | char
  | string
  | keyword
  | operator
  /-- A semicolon, written or implied by the end of a line. -/
  | semicolon
  | comment
  | eof
  deriving DecidableEq, Repr, Inhabited

structure Token where
  kind : TokenKind
  text : String
  pos : Pos
  stop : Pos
  deriving DecidableEq, Repr, Inhabited

def keywords : List String :=
  ["break", "case", "chan", "const", "continue", "default", "defer", "else", "fallthrough", "for",
    "func", "go", "goto", "if", "import", "interface", "map", "package", "range", "return",
    "select", "struct", "switch", "type", "var"]

def operators : List String :=
  ["<<=", ">>=", "&^=", "...", "&&", "||", "<-", "++", "--", "==", "!=", "<=", ">=", ":=", "+=",
    "-=", "*=", "/=", "%=", "&=", "|=", "^=", "<<", ">>", "&^", "+", "-", "*", "/", "%", "&", "|",
    "^", "<", ">", "=", "!", "(", ")", "[", "]", "\x7b", "\x7d", ",", ".", ":", "~"]

def endsStatement (kind : TokenKind) (text : String) : Bool :=
  match kind with
  | .ident | .int | .float | .imag | .char | .string => true
  | .keyword => ["break", "continue", "fallthrough", "return"].contains text
  | .operator => ["++", "--", ")", "]", "\x7d"].contains text
  | _ => false

def isNameStart (c : Char) : Bool :=
  c == '_' || isLetter c

def isNameChar (c : Char) : Bool :=
  isNameStart c || isDigit c

/-! Numbers. -/

def separatorsFit (cs : List Char) : Bool :=
  underscoresFit cs

def scanExponent? (cs : List Char) : Option (List Char × List Char) :=
  let (sign, rest) := match cs with
    | '+' :: rest => (['+'], rest)
    | '-' :: rest => (['-'], rest)
    | rest => ([], rest)
  let digits := rest.takeWhile fun c => isDecimal c || c == '_'
  if digits.any isDecimal then some (sign ++ digits, rest.dropWhile fun c => isDecimal c || c == '_')
  else none

def scanNumber? (cs : List Char) : Option (TokenKind × List Char × List Char) := do
  let (start, base, body) := match cs with
    | '0' :: c :: rest =>
      match baseOfLetter? c with
      | some base => (['0', c], base, rest)
      | none => ([], 10, cs)
    | _ => ([], 10, cs)
  let isDigit := if base == 16 then isHex else isDecimal
  let isDigitOrSeparator (c : Char) : Bool := isDigit c || c == '_'
  let whole := body.takeWhile isDigitOrSeparator
  let rest := body.dropWhile isDigitOrSeparator
  let (fraction, rest) := match rest with
    | '.' :: rest => ('.' :: rest.takeWhile isDigitOrSeparator, rest.dropWhile isDigitOrSeparator)
    | rest => ([], rest)
  let isReal := !fraction.isEmpty
  if isReal && (base == 2 || base == 8) then failure
  unless (whole ++ fraction).any isDigit do failure
  let (exponent, rest) ← match rest with
    | c :: after =>
      if c == 'e' || c == 'E' then do
        if start != [] then failure
        let (e, rest) ← scanExponent? after
        pure (c :: e, rest)
      else if c == 'p' || c == 'P' then do
        if base != 16 then failure
        let (e, rest) ← scanExponent? after
        pure (c :: e, rest)
      else pure ([], rest)
    | [] => pure ([], [])
  if base == 16 && isReal && exponent.isEmpty then failure
  let isReal := isReal || !exponent.isEmpty
  let (suffix, rest) := match rest with
    | 'i' :: rest => (['i'], rest)
    | rest => ([], rest)
  let text := start ++ whole ++ fraction ++ exponent ++ suffix
  let isInteger := !isReal && suffix.isEmpty
  if isInteger && !digitsFit start base whole then failure
  if text.contains '_' && !separatorsFit text then failure
  let kind := if !suffix.isEmpty then TokenKind.imag else if isReal then .float else .int
  return (kind, text, rest)
where
  digitsFit (start : List Char) (base : Nat) (whole : List Char) : Bool :=
    let base := if start.isEmpty && whole.head? == some '0' then 8 else base
    whole.all fun c => c == '_' || ((digitValue? c).any (· < base))

/-! Quoted literals. -/

/--
The characters of a literal up to its closing quote, which is included, and what follows it; also
the number of characters that the literal stands for. Escapes must be well formed. `fuel` bounds the
length.
-/
def scanQuoted? (quote : Char) : (fuel : Nat) → (count : Nat) → List Char →
    Option (List Char × Nat × List Char)
  | 0, _, _ => none
  | _, _, [] => none
  | fuel + 1, count, c :: cs =>
    if c == quote then some ([c], count, cs)
    else if c == '\n' then none
    else if c == '\\' then do
      let (_, rest) ← unescape? quote cs
      let escape := cs.take (cs.length - rest.length)
      let (more, count, rest) ← scanQuoted? quote fuel (count + 1) rest
      return (c :: escape ++ more, count, rest)
    else do
      let (more, count, rest) ← scanQuoted? quote fuel (count + 1) cs
      return (c :: more, count, rest)

def scanRaw? : List Char → Option (List Char × List Char)
  | [] => none
  | c :: cs =>
    if c == backQuote then some ([c], cs)
    else (scanRaw? cs).map fun (more, rest) => (c :: more, rest)

/-! Comments. -/

def scanBlockComment? : List Char → Option (List Char × List Char)
  | '*' :: '/' :: cs => some (['*', '/'], cs)
  | c :: cs => (scanBlockComment? cs).map fun (more, rest) => (c :: more, rest)
  | [] => none

def withoutReturns (cs : List Char) : List Char :=
  cs.filter (· != '\r')

/--
The rest of a block comment without its carriage returns, except for one whose removal would close
the comment. `wasStar` says whether a star comes directly before.
-/
def withoutBlockReturns : (wasStar : Bool) → List Char → List Char
  | _, [] => []
  | wasStar, c :: cs =>
    if c == '\r' && !(wasStar && cs.head? == some '/') then withoutBlockReturns wasStar cs
    else c :: withoutBlockReturns (c == '*') cs

/-! The text as a whole. -/

def scanToken? (cs : List Char) : Option (TokenKind × List Char × List Char) :=
  match cs with
  | [] => some (.eof, [], [])
  | '/' :: '/' :: rest =>
    let isInLine (c : Char) : Bool := c != '\n'
    some (.comment, '/' :: '/' :: rest.takeWhile isInLine, rest.dropWhile isInLine)
  | '/' :: '*' :: rest =>
    (scanBlockComment? rest).map fun (more, rest) => (.comment, '/' :: '*' :: more, rest)
  | c :: rest =>
    if isNameStart c then
      let name := c :: rest.takeWhile isNameChar
      let kind := if keywords.contains (String.ofList name) then TokenKind.keyword else .ident
      some (kind, name, rest.dropWhile isNameChar)
    else if isDecimal c || (c == '.' && rest.head?.any isDecimal) then scanNumber? cs
    else if c == '"' then
      (scanQuoted? '"' (rest.length + 1) 0 rest).map fun (more, _, rest) => (.string, c :: more, rest)
    else if c == apostrophe then do
      let (more, count, rest) ← scanQuoted? apostrophe (rest.length + 1) 0 rest
      if count == 1 then return (.char, c :: more, rest) else failure
    else if c == backQuote then
      (scanRaw? rest).map fun (more, rest) => (.string, c :: more, rest)
    else if c == ';' then some (.semicolon, [c], rest)
    else do
      let op ← operators.find? fun op => (op.toList).isPrefixOf cs
      return (.operator, op.toList, cs.drop op.length)
where
  apostrophe : Char := Char.ofNat 39

def isSpace (wantsSemicolon : Bool) (c : Char) : Bool :=
  c == ' ' || c == '\t' || c == '\r' || (c == '\n' && !wantsSemicolon)

def impliedSemicolon : String :=
  "\n"

def tokenText (kind : TokenKind) (cs : List Char) : List Char :=
  match kind, cs with
  | .comment, '/' :: '*' :: rest => '/' :: '*' :: withoutBlockReturns false rest
  | .comment, _ => withoutReturns cs
  | .string, c :: _ => if c == backQuote then withoutReturns cs else cs
  | _, _ => cs

def trailingNumber? (cs : List Char) : Option (List Char × Option Nat) :=
  let digits := (cs.reverse.takeWhile (· != ':')).reverse
  if digits.length == cs.length then none
  else
    let number := if digits.isEmpty || !digits.all Char.isDigit then none
      else some (digits.foldl (fun n c => 10 * n + (c.toNat - '0'.toNat)) 0)
    some (cs.take (cs.length - digits.length - 1), number.filter (· < Nat.pow 2 64))

def isPlaceNumber (n : Nat) : Bool :=
  (0 < n && n ≤ Nat.pow 2 30) || Nat.pow 2 63 ≤ n

/--
Whether the text of an instruction about line numbers is well formed. It ends in the number of a line,
which that of a column may follow; a text without a colon is no instruction.
-/
def isLineInstruction (cs : List Char) : Bool :=
  match trailingNumber? cs with
  | none => true
  | some (_, none) => false
  | some (before, some n) =>
    isPlaceNumber n && match trailingNumber? before with
      | some (_, some line) => isPlaceNumber line
      | _ => true

/--
Whether a comment at a position is acceptable: it is not if it is a malformed instruction about line
numbers. One that runs up to the end of its line must start the line to be an instruction.
-/
def isLegalComment (pos : Pos) (cs : List Char) : Bool :=
  if "//line ".toList.isPrefixOf cs then
    let body := cs.drop 7
    pos.column != 1 ||
      isLineInstruction (if body.getLast? == some '\r' then body.dropLast else body)
  else if "/*line ".toList.isPrefixOf cs then
    isLineInstruction ((cs.take (cs.length - 2)).drop 7)
  else true

def firstLineEnd? (pos : Pos) : List Char → Option Pos
  | [] => none
  | c :: cs => if c == '\n' then some pos else firstLineEnd? (pos.advance c) cs

def scanAll? : (fuel : Nat) → (wantsSemicolon : Bool) → (pos : Pos) → List Char →
    Option (List Token)
  | 0, _, _, _ => none
  | fuel + 1, wantsSemicolon, pos, cs =>
    let space := cs.takeWhile (isSpace wantsSemicolon)
    let cs := cs.dropWhile (isSpace wantsSemicolon)
    let pos := pos.advanceAll space
    let implied (pos : Pos) : Token := ⟨.semicolon, impliedSemicolon, pos, pos⟩
    match cs with
    | '\n' :: rest => do
      let more ← scanAll? fuel false (pos.advance '\n') rest
      return implied pos :: more
    | [] =>
      let eof : Token := ⟨.eof, "", pos, pos⟩
      some (if wantsSemicolon then [implied pos, eof] else [eof])
    | _ => do
      let (kind, text, rest) ← scanToken? cs
      let shown := tokenText kind text
      let token : Token := ⟨kind, String.ofList shown, pos, pos.advanceAll shown⟩
      let next := pos.advanceAll text
      if kind == .comment then
        if !isLegalComment pos text then failure
        match if wantsSemicolon then firstLineEnd? pos text else none with
        | some lineEnd => do
          let more ← scanAll? fuel false next rest
          return token :: implied lineEnd :: more
        | none => do
          let more ← scanAll? fuel wantsSemicolon next rest
          return token :: more
      else do
        let more ← scanAll? fuel (endsStatement kind token.text) next rest
        return token :: more

def byteOrderMark : Char :=
  Char.ofNat 0xfeff

def isLegal (c : Char) : Bool :=
  c != Char.ofNat 0 && c != byteOrderMark

/--
The tokens and comments of a text, the last of which is its end. A text with a malformed token or an
illegal character has none.
-/
def tokenize? (text : String) : Option (List Token) :=
  let (pos, cs) := match text.toList with
    | c :: cs => if c == byteOrderMark then ((⟨3, 1, 4⟩ : Pos), cs) else (Pos.start, c :: cs)
    | [] => (Pos.start, [])
  if cs.all isLegal then scanAll? (cs.length + 1) false pos cs else none

end RecordCodec.Source
