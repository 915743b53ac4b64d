import RecordCodec.Text.Category
import RecordCodec.Text.Utf8

/-!
This module contains the running text of comments: doubled quotes in it are written as curly ones,
except in the addresses of web pages.
-/

namespace RecordCodec.Source.RunningText

open RecordCodec.Text

abbrev Bytes :=
  List UInt8

def isOneOf (chars : String) (b : UInt8) : Bool :=
  chars.toList.any fun c => c.toNat == b.toNat

def isPlain (b : UInt8) : Bool :=
  (Char.ofNat b.toNat).isAlphanum

/-! Addresses. -/

def isScheme (s : List Char) : Bool :=
  ["file", "ftp", "gopher", "http", "https", "mailto", "nntp"].contains (String.ofList s)

def isHostByte (b : UInt8) : Bool :=
  isPlain b || isOneOf "_@-.[]:" b

def isPunctuation (b : UInt8) : Bool :=
  isOneOf ".,:;?!" b

def isPathByte (b : UInt8) : Bool :=
  isPlain b || b == apostropheByte || isOneOf "$()*+&#=@~_/-[]\x7b\x7d%" b
where
  apostropheByte : UInt8 := 39

def closingOf? (b : UInt8) : Option UInt8 :=
  if isOneOf "(" b then some 41
  else if isOneOf "[" b then some 93
  else if isOneOf "\x7b" b then some 125
  else none

/--
Where a path ends. `pos` is the position of the bytes, `stop` the end so far, and `open_` are the
brackets that are to be closed.
-/
def pathStop (pos stop : Nat) (open_ : Bytes) : Bytes → Nat
  | [] => stop
  | b :: bs =>
    if isPunctuation b then pathStop (pos + 1) stop open_ bs
    else if !isPathByte b then stop
    else match closingOf? b with
      | some closing => pathStop (pos + 1) stop (closing :: open_) bs
      | none =>
        if isOneOf ")]\x7d" b then
          match open_ with
          | [] => stop
          | expected :: outer =>
            if expected != b then stop
            else pathStop (pos + 1) (if outer.isEmpty then pos + 1 else stop) outer bs
        else pathStop (pos + 1) (if open_.isEmpty then pos + 1 else stop) open_ bs

def addressSize? (text : Bytes) : Option Nat := do
  if text.length < 7 then failure
  let colon ← [3, 4, 5, 6].find? fun i => text[i]? == some 58
  if (text.drop colon).take 3 != [58, 47, 47] then failure
  if !isScheme ((text.take colon).map fun b => Char.ofNat b.toNat) then failure
  let host := (text.drop (colon + 3)).takeWhile isHostByte
  let size := (host.reverse.dropWhile isPunctuation).length
  if host.head?.all isPunctuation then failure
  let stop := colon + 3 + size
  return pathStop stop stop [] (text.drop stop)

/-! Quotes. -/

def nameSize (text : Bytes) : Nat :=
  go 0 (pieces text)
where
  go (size : Nat) : List Piece → Nat
    | .char c :: rest =>
      if isLetter c || c == '_' || (0 < size && c.toNat < 128 && c.isDigit) then
        go (size + (utf8Char c).length) rest
      else size
    | _ => size

def curlyQuote? : Bytes → Option Bytes
  | 96 :: 96 :: _ => some (utf8Char '“')
  | 39 :: 39 :: _ => some (utf8Char '”')
  | _ => none

/--
How many bytes of a text with three back quotes at its start stay as they are. More back quotes are
looked for at a distance of `pos`, which is where the text stands.
-/
def fenceSize (pos : Nat) (text : Bytes) : Nat :=
  3 + ((text.drop (pos + 3)).takeWhile (· == 96)).length

/--
A text with curly quotes, which stands at `pos`. Addresses stay as they are if `keepsAddresses` is
set; a name is not the start of one unless it is the scheme. `fuel` bounds the length.
-/
def curl (keepsAddresses : Bool) : (fuel pos : Nat) → Bytes → Bytes
  | 0, _, text => text
  | fuel + 1, pos, text =>
    match text with
    | [] => []
    | b :: rest =>
      let keep (size : Nat) : Bytes :=
        text.take size ++ curl keepsAddresses fuel (pos + size) (text.drop size)
      match if keepsAddresses then addressSize? text else none with
      | some size => keep size
      | none =>
        let name := if keepsAddresses then nameSize text else 0
        if 0 < name then keep name
        else if [96, 96, 96].isPrefixOf text then keep (fenceSize pos text)
        else match curlyQuote? text with
          | some quote => quote ++ curl keepsAddresses fuel (pos + 2) (text.drop 2)
          | none => b :: curl keepsAddresses fuel (pos + 1) rest

def curled (keepsAddresses : Bool) (text : List Char) : List Char :=
  let bytes := text.flatMap utf8Char
  (pieces (curl keepsAddresses (bytes.length + 1) 0 bytes)).map Piece.toChar

/-! Links. -/

/--
A text with curly quotes, and the names of the links in it. A link is a name in brackets that is among
`names`. `before` is the text since the last link, `inside` the text since the last opening bracket if
it is not closed, and `name` what was read in brackets, all in reverse.
-/
def linked (names : List (List Char)) (before : List Char) (inside : Option (List Char))
    (name : List Char) : List Char → List Char × List (List Char)
  | [] => (curled true (unread before inside).reverse, [])
  | c :: cs =>
    match inside with
    | some inner =>
      if c == '[' then linked names (unread before inside) (some []) name cs
      else if c == ']' then
        if names.contains name.reverse then
          let (rest, used) := linked names [] none [] cs
          (curled true before.reverse ++ '[' :: curled false inner.reverse ++ ']' :: rest,
            name.reverse :: used)
        else linked names (']' :: unread before inside) none [] cs
      else
        let shown := if c == '\n' || c == '\t' then ' ' else c
        linked names before (some (c :: inner)) (shown :: name) cs
    | none =>
      if c == '[' then linked names before (some []) name cs
      else if c == ']' then linked names (c :: before) none [] cs
      else linked names (c :: before) none name cs
where
  unread (before : List Char) : Option (List Char) → List Char
    | some inner => inner ++ '[' :: before
    | none => before

def format (names : List (List Char)) (text : List Char) : List Char × List (List Char) :=
  linked names [] none [] text

end RecordCodec.Source.RunningText
