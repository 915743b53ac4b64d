import RecordCodec.Text.Quoted

/-!
This module contains dumps of bytes: lines of sixteen bytes in hexadecimal and as characters.
-/

namespace RecordCodec.Tool

open RecordCodec.Text

def dumpColumns : Nat := 16

def dumpChar (b : UInt8) : Char :=
  if b < 32 || 126 < b then '.' else Char.ofNat b.toNat

def dumpColumn (i : Nat) (b : Option UInt8) : List Char :=
  let digits := match b with
    | some b => hexDigits 2 b.toNat
    | none => [' ', ' ']
  digits ++ (if i % 8 == 7 then [' ', ' '] else [' '])

def dumpLine (offset : Nat) (bytes : List UInt8) : String :=
  let columns := (List.range dumpColumns).flatMap fun i => dumpColumn i bytes[i]?
  String.ofList (hexDigits 8 offset ++ [' ', ' '] ++ columns ++ ['|'] ++ bytes.map dumpChar ++
    ['|', '\n'])

def hexDump (bytes : List UInt8) : String :=
  let count := (bytes.length + dumpColumns - 1) / dumpColumns
  String.join ((List.range count).map fun i =>
    dumpLine (i * dumpColumns) ((bytes.drop (i * dumpColumns)).take dumpColumns))

end RecordCodec.Tool
