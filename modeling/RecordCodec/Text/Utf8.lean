/-!
This module contains the UTF-8 view of byte strings: `pieces` splits a byte string into the
characters it encodes and the stray bytes that belong to none, and `String.utf8Bytes` goes back.
-/

namespace RecordCodec.Text

inductive Piece where
  | char (c : Char)
  | stray (b : UInt8)
  deriving DecidableEq, Repr, Inhabited

def isContinuation (b : UInt8) : Bool :=
  0x80 ≤ b && b ≤ 0xbf

def payload (b : UInt8) : Nat :=
  b.toNat % 64

def startsThree (a b : UInt8) : Bool :=
  if a == 0xe0 then 0xa0 ≤ b && b ≤ 0xbf
  else if a == 0xed then 0x80 ≤ b && b ≤ 0x9f
  else 0xe1 ≤ a && a ≤ 0xef && isContinuation b

def startsFour (a b : UInt8) : Bool :=
  if a == 0xf0 then 0x90 ≤ b && b ≤ 0xbf
  else if a == 0xf4 then 0x80 ≤ b && b ≤ 0x8f
  else 0xf1 ≤ a && a ≤ 0xf3 && isContinuation b

/--
Split a byte string into characters and stray bytes. A byte that starts no well formed sequence is
stray, and splitting goes on with the byte after it.
-/
def pieces : List UInt8 → List Piece
  | [] => []
  | a :: r =>
    if a < 0x80 then .char (Char.ofNat a.toNat) :: pieces r
    else match r with
      | [] => [.stray a]
      | b :: r' =>
        if 0xc2 ≤ a && a ≤ 0xdf && isContinuation b then
          .char (Char.ofNat (a.toNat % 32 * 64 + payload b)) :: pieces r'
        else match r' with
          | [] => .stray a :: pieces (b :: [])
          | c :: r'' =>
            if startsThree a b && isContinuation c then
              .char (Char.ofNat ((a.toNat % 16 * 64 + payload b) * 64 + payload c)) :: pieces r''
            else match r'' with
              | [] => .stray a :: pieces (b :: c :: [])
              | d :: r''' =>
                if startsFour a b && isContinuation c && isContinuation d then
                  .char (Char.ofNat
                    (((a.toNat % 8 * 64 + payload b) * 64 + payload c) * 64 + payload d))
                    :: pieces r'''
                else .stray a :: pieces (b :: c :: d :: r''')

def utf8Char (c : Char) : List UInt8 :=
  let n := c.toNat
  if n < 0x80 then [n.toUInt8]
  else if n < 0x800 then [(0xc0 + n / 64).toUInt8, (0x80 + n % 64).toUInt8]
  else if n < 0x10000 then
    [(0xe0 + n / 4096).toUInt8, (0x80 + n / 64 % 64).toUInt8, (0x80 + n % 64).toUInt8]
  else
    [(0xf0 + n / 262144).toUInt8, (0x80 + n / 4096 % 64).toUInt8, (0x80 + n / 64 % 64).toUInt8,
      (0x80 + n % 64).toUInt8]

def utf8Bytes (s : String) : List UInt8 :=
  s.toList.flatMap utf8Char

def Piece.bytes : Piece → List UInt8
  | .char c => utf8Char c
  | .stray b => [b]

def Piece.toChar : Piece → Char
  | .char c => c
  | .stray _ => Char.ofNat 0xfffd

def Piece.isChar : Piece → Bool
  | .char _ => true
  | .stray _ => false

def isUtf8 (bytes : List UInt8) : Bool :=
  (pieces bytes).all Piece.isChar

def decodeUtf8? (bytes : List UInt8) : Option String :=
  if isUtf8 bytes then some (String.ofList ((pieces bytes).map Piece.toChar)) else none

end RecordCodec.Text
