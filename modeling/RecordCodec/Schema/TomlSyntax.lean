import RecordCodec.Number.Float
import RecordCodec.Number.Integer
import RecordCodec.Text.Category
import RecordCodec.Text.Quoted
import RecordCodec.Text.Trim
import RecordCodec.Text.Unquoted

/-!
This module contains the syntax of TOML texts: `parse?` reads the statements of a text. Dates are not
read.
-/

namespace RecordCodec.Schema.Toml

open RecordCodec.Text RecordCodec.Number

abbrev Key :=
  List String

def Key.text (k : Key) : String :=
  ".".intercalate k

inductive Literal where
  | text (s : String)
  | other
  | array (items : List Literal)
  | table (entries : List (Key × Literal))
  deriving Inhabited

/--
A statement: the start of a table, the start of the next table of an array, or a key with its value.
-/
inductive Statement where
  | table (key : Key)
  | arrayTable (key : Key)
  | assign (key : Key) (value : Literal)
  deriving Inhabited

/-! Characters. -/

def isSpace (c : Char) : Bool :=
  c == ' ' || c == '\t'

def isBreak (c : Char) : Bool :=
  c == '\n' || c == '\r'

def isBare (c : Char) : Bool :=
  c.isAlphanum || c == '_' || c == '-'

def isAllowed : List Char → Bool
  | [] => true
  | c :: cs =>
    let isControl := (c.toNat < 0x20 && !isSpace c && !isBreak c) || c.toNat == 0x7F
    !isControl && c.toNat != 0xFFFD && (c != '\r' || cs.head? == some '\n') && isAllowed cs

/-! Readers. -/

abbrev Parse :=
  StateT (List Char) Option

def peek? : Parse (Option Char) := do
  return (← get).head?

def expect (c : Char) : Parse Unit := do
  match ← get with
  | x :: rest => if x == c then set rest else failure
  | [] => failure

def takeWhile (p : Char → Bool) : Parse (List Char) := do
  let cs ← get
  set (cs.dropWhile p)
  return cs.takeWhile p

def skipSpaces : Parse Unit := do
  discard (takeWhile isSpace)

def skipLines : (fuel : Nat) → Parse Unit
  | 0 => pure ()
  | fuel + 1 => do
    discard (takeWhile fun c => isSpace c || isBreak c)
    if (← peek?) == some '#' then
      discard (takeWhile (!isBreak ·))
      skipLines fuel

/-! Texts. -/

def escapedChar? (c : Char) : Option Char :=
  [('b', 8), ('t', 9), ('n', 10), ('f', 12), ('r', 13), ('"', 34), ('\\', 92)].lookup c
    |>.map Char.ofNat

/--
The characters that a text with escapes stands for. In a text of several lines a backslash at the end
of a line takes away the white space that follows it.
-/
def unescape? (hasLines : Bool) : (fuel : Nat) → List Char → Option (List Char)
  | 0, _ => none
  | _ + 1, [] => some []
  | fuel + 1, c :: cs =>
    if c != '\\' then (unescape? hasLines fuel cs).map (c :: ·)
    else
      let gap := cs.takeWhile fun c => isSpace c || isBreak c
      if hasLines && gap.contains '\n' then unescape? hasLines fuel (cs.drop gap.length)
      else match cs with
        | [] => none
        | e :: rest =>
          match escapedChar? e with
          | some x => (unescape? hasLines fuel rest).map (x :: ·)
          | none =>
            match (if e == 'u' then takeDigits? 16 4 rest
              else if e == 'U' then takeDigits? 16 8 rest else none) with
            | some (n, rest) =>
              if isScalarValue n then (unescape? hasLines fuel rest).map (Char.ofNat n :: ·) else none
            | none => none

def lineUpTo (quote : Char) : (fuel : Nat) → Parse (List Char)
  | 0 => failure
  | fuel + 1 => do
    match ← get with
    | [] => failure
    | c :: rest =>
      if isBreak c then failure
      set rest
      if c == quote then return []
      if c == '\\' && quote == '"' then
        match rest with
        | e :: rest =>
          if isBreak e then failure
          set rest
          return c :: e :: (← lineUpTo quote fuel)
        | [] => failure
      else return c :: (← lineUpTo quote fuel)

def linesUpTo (quote : Char) : (fuel : Nat) → Parse (List Char)
  | 0 => failure
  | fuel + 1 => do
    match ← get with
    | [] => failure
    | c :: rest =>
      if c == quote then
        let quotes := (c :: rest).takeWhile (· == quote)
        set ((c :: rest).drop quotes.length)
        if 6 ≤ quotes.length then failure
        else if 3 ≤ quotes.length then return quotes.drop 3
        else return quotes ++ (← linesUpTo quote fuel)
      else if c == '\\' && quote == '"' then
        match rest with
        | e :: rest =>
          set rest
          return c :: e :: (← linesUpTo quote fuel)
        | [] => failure
      else
        set rest
        return c :: (← linesUpTo quote fuel)

def dropFirstBreak : List Char → List Char
  | '\n' :: cs => cs
  | '\r' :: '\n' :: cs => cs
  | cs => cs

def textOf (quote : Char) (hasLines : Bool) (written : List Char) : Parse String := do
  if quote == '"' then
    match unescape? hasLines (written.length + 1) written with
    | some cs => return String.ofList cs
    | none => failure
  else return String.ofList written

def lineText (quote : Char) : Parse String := do
  let written ← lineUpTo quote ((← get).length + 1)
  textOf quote false written

def quotedText (quote : Char) : Parse String := do
  match ← get with
  | a :: b :: rest =>
    if a == quote && b == quote then
      set rest
      let written ← linesUpTo quote (rest.length + 1)
      textOf quote true (dropFirstBreak written)
    else lineText quote
  | _ => lineText quote

/-! Keys. -/

def keyPart : Parse String := do
  match ← peek? with
  | none => failure
  | some c =>
    if c == '"' || c == apostrophe then
      expect c
      lineText c
    else
      let cs ← takeWhile isBare
      if cs.isEmpty then failure
      return String.ofList cs

def keyUpTo (stop : Char) : (fuel : Nat) → Parse Key
  | 0 => failure
  | fuel + 1 => do
    skipSpaces
    let part ← keyPart
    skipSpaces
    if (← peek?) == some '.' then
      expect '.'
      return part :: (← keyUpTo stop fuel)
    else
      expect stop
      return [part]

/-! Numbers. -/

def underscoresFit (cs : List Char) : Bool :=
  go false cs
where
  go (afterDigit : Bool) : List Char → Bool
    | [] => afterDigit
    | c :: cs => (c != '_' || afterDigit) && go (isHex c) cs

def hasLeadingZero (cs : List Char) : Bool :=
  match cs with
  | '0' :: c :: _ => c != 'b' && c != 'o' && c != 'x'
  | s :: '0' :: _ :: _ => s == '-' || s == '+'
  | _ => false

def pointsFit : List Char → Bool
  | [] => true
  | '.' :: cs => (cs.head?.map isDecimal).getD false && pointsFit cs
  | _ :: cs => pointsFit cs

def isInteger (cs : List Char) : Bool :=
  underscoresFit cs && !hasLeadingZero cs && (readSigned 64 cs).isOk

def isFraction (cs : List Char) : Bool :=
  let parts := (splitAtAll (fun c => c == '.' || c == 'e' || c == 'E') cs).filter (!List.isEmpty ·)
  parts.all underscoresFit && !(parts.head?.map hasLeadingZero).getD false && pointsFit cs
    && (readFloat .double (cs.filter (· != '_'))).isOk

def number : Parse Literal := do
  let sign ← takeWhile fun c => c == '-' || c == '+'
  if 1 < sign.length then failure
  match ← get with
  | '0' :: b :: rest =>
    match [('b', 2), ('o', 8), ('x', 16)].lookup b with
    | some base =>
      unless sign.isEmpty do failure
      set rest
      let digits ← takeWhile fun c => c == '_' || ((digitValue? c).map (decide <| · < base)).getD false
      if isInteger ('0' :: b :: digits) then return .other else failure
    | none => decimal sign
  | cs =>
    if cs.take 3 == ['i', 'n', 'f'] || cs.take 3 == ['n', 'a', 'n'] then
      set (cs.drop 3)
      return .other
    else decimal sign
where
  decimal (sign : List Char) : Parse Literal := do
    let digits ← takeWhile fun c => isDecimal c || c == '_'
    unless (digits.head?.map isDecimal).getD false do failure
    let fraction ← if [some '.', some 'e', some 'E'].contains (← peek?) then
        takeWhile fun c => isDecimal c || ['_', '.', '-', '+', 'e', 'E'].contains c
      else pure []
    let whole := sign ++ digits ++ fraction
    if fraction.isEmpty then
      if isInteger whole then return .other else failure
    else if isFraction whole then return .other else failure

/-! Values. -/

def arrayItems (value : Parse Literal) : (fuel : Nat) → Parse (List Literal)
  | 0 => failure
  | fuel + 1 => do
    skipLines ((← get).length + 1)
    if (← peek?) == some ']' then
      expect ']'
      return []
    let item ← value
    skipLines ((← get).length + 1)
    if (← peek?) == some ',' then
      expect ','
      return item :: (← arrayItems value fuel)
    else
      expect ']'
      return [item]

def tableEntries (value : Parse Literal) : (fuel : Nat) → Parse (List (Key × Literal))
  | 0 => failure
  | fuel + 1 => do
    let key ← keyUpTo '=' ((← get).length + 1)
    skipSpaces
    let item ← value
    skipSpaces
    if (← peek?) == some ',' then
      expect ','
      return (key, item) :: (← tableEntries value fuel)
    else
      expect '\x7d'
      return [(key, item)]

def valueStep (value : Parse Literal) : Parse Literal := do
  skipSpaces
  let fuel := (← get).length + 1
  match ← peek? with
  | none => failure
  | some c =>
    if c == '[' then
      expect c
      .array <$> arrayItems value fuel
    else if c == '\x7b' then
      expect c
      skipSpaces
      if (← peek?) == some '\x7d' then
        expect '\x7d'
        return .table []
      else .table <$> tableEntries value fuel
    else if c == '"' || c == apostrophe then
      expect c
      .text <$> quotedText c
    else if isDecimal c || ['-', '+', 'i', 'n'].contains c then number
    else
      let word ← takeWhile isLetter
      if word == "true".toList || word == "false".toList then return .other else failure

def valueUpTo : (depth : Nat) → Parse Literal
  | 0 => failure
  | depth + 1 => valueStep (valueUpTo depth)

/-! Statements. -/

def statement : Parse Statement := do
  let fuel := (← get).length + 1
  match ← get with
  | '[' :: '[' :: rest =>
    set rest
    let key ← keyUpTo ']' fuel
    expect ']'
    return .arrayTable key
  | '[' :: rest =>
    set rest
    .table <$> keyUpTo ']' fuel
  | _ =>
    let key ← keyUpTo '=' fuel
    .assign key <$> valueUpTo fuel

def lineEnd : Parse Unit := do
  skipSpaces
  match ← peek? with
  | none => pure ()
  | some c => unless c == '#' || isBreak c do failure

def statements : (fuel : Nat) → Parse (List Statement)
  | 0 => failure
  | fuel + 1 => do
    skipLines ((← get).length + 1)
    if (← get).isEmpty then return []
    let s ← statement
    lineEnd
    return s :: (← statements fuel)

def parse? (text : String) : Option (List Statement) :=
  let cs := match text.toList with
    | c :: cs => if c.toNat == 0xFEFF then cs else c :: cs
    | [] => []
  if isAllowed cs then ((statements (cs.length + 1)).run cs).map Prod.fst else none

end RecordCodec.Schema.Toml
