import RecordCodec.Text.Utf8

/-!
This module contains the reading of quoted text: what stands between double quotes with escapes, or
between back quotes as it is.
-/

namespace RecordCodec.Text

def digitValue? (c : Char) : Option Nat :=
  let n := c.toNat
  if 48 ≤ n && n ≤ 57 then some (n - 48)
  else if 97 ≤ n && n ≤ 102 then some (n - 87)
  else if 65 ≤ n && n ≤ 70 then some (n - 55)
  else none

def digitsValue? (base : Nat) (ds : List Char) : Option Nat :=
  ds.foldlM (fun n c => do
    let d ← digitValue? c
    if d < base then some (n * base + d) else none) 0

def takeDigits? (base count : Nat) (cs : List Char) : Option (Nat × List Char) :=
  if count ≤ cs.length then (digitsValue? base (cs.take count)).map (·, cs.drop count) else none

def isScalarValue (n : Nat) : Bool :=
  n < 0xd800 || (0xdfff < n && n < 0x110000)

/--
The bytes of the escape that starts after a backslash, and what follows it. `quote` is the quote
that the escape may name.
-/
def unescape? (quote : Char) : List Char → Option (List UInt8 × List Char)
  | [] => none
  | c :: cs =>
    if c == quote || c == '\\' then some (utf8Char c, cs)
    else match c with
      | 'a' => some ([7], cs)
      | 'b' => some ([8], cs)
      | 'f' => some ([12], cs)
      | 'n' => some ([10], cs)
      | 'r' => some ([13], cs)
      | 't' => some ([9], cs)
      | 'v' => some ([11], cs)
      | 'x' => (takeDigits? 16 2 cs).map fun (n, rest) => ([n.toUInt8], rest)
      | 'u' => point 4 cs
      | 'U' => point 8 cs
      | _ => do
        let (n, rest) ← takeDigits? 8 3 (c :: cs)
        if n < 256 then some ([n.toUInt8], rest) else none
where
  point (count : Nat) (cs : List Char) : Option (List UInt8 × List Char) := do
    let (n, rest) ← takeDigits? 16 count cs
    if isScalarValue n then some (utf8Char (Char.ofNat n), rest) else none

/--
The bytes of a text between double quotes, whose opening quote is gone: the closing quote must be
its last character. `fuel` bounds the number of characters.
-/
def unquoteDouble? : (fuel : Nat) → List Char → Option (List UInt8)
  | 0, _ => none
  | _ + 1, [] => none
  | fuel + 1, c :: cs =>
    if c == '"' then (if cs.isEmpty then some [] else none)
    else if c == '\n' then none
    else if c == '\\' then do
      let (bytes, rest) ← unescape? '"' cs
      return bytes ++ (← unquoteDouble? fuel rest)
    else do
      return utf8Char c ++ (← unquoteDouble? fuel cs)

def backQuote : Char :=
  Char.ofNat 96

def unquoteRaw? : List Char → Option (List UInt8)
  | [] => none
  | c :: cs =>
    if c == backQuote then (if cs.isEmpty then some [] else none)
    else if c == '\r' then unquoteRaw? cs
    else do return utf8Char c ++ (← unquoteRaw? cs)

def showBytes (bytes : List UInt8) : String :=
  String.ofList ((pieces bytes).map Piece.toChar)

def unquote? (s : String) : Option String :=
  match s.toList with
  | [] => none
  | c :: cs =>
    if c == '"' then (unquoteDouble? (cs.length + 1) cs).map showBytes
    else if c == backQuote then (unquoteRaw? cs).map showBytes
    else none

end RecordCodec.Text
