import RecordCodec.Text.Span
import RecordCodec.Text.Trim

/-!
This module contains the widths of texts on a terminal, and texts that are padded to a width.
-/

namespace RecordCodec.Text

def wideSpans : List Span := [
  ⟨0x1100, 0x115F, 1⟩, ⟨0x231A, 0x231B, 1⟩, ⟨0x2329, 0x232A, 1⟩, ⟨0x23E9, 0x23EC, 1⟩,
  ⟨0x23F0, 0x23F3, 3⟩, ⟨0x25FD, 0x25FE, 1⟩, ⟨0x2614, 0x2615, 1⟩, ⟨0x2648, 0x2653, 1⟩,
  ⟨0x2E80, 0x303E, 1⟩, ⟨0x3041, 0x33FF, 1⟩, ⟨0x3400, 0x4DBF, 1⟩, ⟨0x4E00, 0xA4C6, 1⟩,
  ⟨0xA960, 0xA97C, 1⟩, ⟨0xAC00, 0xD7A3, 1⟩, ⟨0xF900, 0xFAFF, 1⟩, ⟨0xFE10, 0xFE19, 1⟩,
  ⟨0xFE30, 0xFE6B, 1⟩, ⟨0xFF01, 0xFF60, 1⟩, ⟨0xFFE0, 0xFFE6, 1⟩, ⟨0x17000, 0x18CD5, 1⟩,
  ⟨0x1B000, 0x1B2FB, 1⟩, ⟨0x1F300, 0x1F64F, 1⟩, ⟨0x1F680, 0x1F6FF, 1⟩, ⟨0x1F900, 0x1F9FF, 1⟩,
  ⟨0x20000, 0x3FFFD, 1⟩]

def narrowSpans : List Span := [
  ⟨0x0000, 0x001F, 1⟩, ⟨0x007F, 0x009F, 1⟩, ⟨0x0300, 0x036F, 1⟩, ⟨0x0483, 0x0489, 1⟩,
  ⟨0x0591, 0x05BD, 1⟩, ⟨0x0610, 0x061A, 1⟩, ⟨0x064B, 0x065F, 1⟩, ⟨0x200B, 0x200F, 1⟩,
  ⟨0x20D0, 0x20F0, 1⟩, ⟨0xFE00, 0xFE0F, 1⟩, ⟨0xFE20, 0xFE2F, 1⟩]

def charWidth (c : Char) : Nat :=
  if inSpans narrowSpans c then 0 else if inSpans wideSpans c then 2 else 1

def width (s : String) : Nat :=
  (s.toList.map charWidth).foldl (· + ·) 0

def padTo (n : Nat) (s : String) : String :=
  s ++ String.ofList (List.replicate (n - width s) ' ')

def padLines (s : String) : String :=
  let ls := (lines s.toList).map String.ofList
  let widest := (ls.map width).foldl max 0
  "\n".intercalate (ls.map (padTo widest))

end RecordCodec.Text
