import RecordCodec.Text.Category
import RecordCodec.Text.Utf8

/-!
This module contains quoted text: between quotes, printable characters stand for themselves and all
others are written as escapes.
-/

namespace RecordCodec.Text

def hexDigit (n : Nat) : Char :=
  if n < 10 then Char.ofNat (48 + n) else Char.ofNat (87 + n)

def hexDigits : (width : Nat) → (n : Nat) → List Char
  | 0, _ => []
  | width + 1, n => hexDigits width (n / 16) ++ [hexDigit (n % 16)]

def letterEscape? (c : Char) : Option Char :=
  match c.toNat with
  | 7 => some 'a'
  | 8 => some 'b'
  | 9 => some 't'
  | 10 => some 'n'
  | 11 => some 'v'
  | 12 => some 'f'
  | 13 => some 'r'
  | _ => none

def escapeChar (quote c : Char) : List Char :=
  if c == quote || c == '\\' then ['\\', c]
  else if isPrintable c then [c]
  else match letterEscape? c with
    | some e => ['\\', e]
    | none =>
      if c.toNat < 32 || c.toNat == 127 then '\\' :: 'x' :: hexDigits 2 c.toNat
      else if c.toNat < 0x10000 then '\\' :: 'u' :: hexDigits 4 c.toNat
      else '\\' :: 'U' :: hexDigits 8 c.toNat

def escapePiece (quote : Char) : Piece → List Char
  | .char c => escapeChar quote c
  | .stray b => '\\' :: 'x' :: hexDigits 2 b.toNat

def quote (s : String) : String :=
  String.ofList ('"' :: s.toList.flatMap (escapeChar '"') ++ ['"'])

def quotePieces (ps : List Piece) : String :=
  String.ofList ('"' :: ps.flatMap (escapePiece '"') ++ ['"'])

def apostrophe : Char :=
  Char.ofNat 39

def quoteChar (c : Char) : String :=
  String.ofList (apostrophe :: escapeChar apostrophe c ++ [apostrophe])

end RecordCodec.Text
