import RecordCodec.Text.Width

/-!
This module contains inputs of one line of text with a cursor.
-/

namespace RecordCodec.Tool

open RecordCodec.Text

/--
An input: the prompt before it, the placeholder that an empty one shows, the text, and how many of its
characters stand before the cursor. Only a focused input takes keys.
-/
structure LineInput where
  prompt : String
  placeholder : String
  text : List Char := []
  cursor : Nat := 0
  isFocused : Bool := false
  deriving DecidableEq, Repr, Inhabited

inductive Edit where
  | insert (c : Char)
  | backspace
  | delete
  | left
  | right
  | lineStart
  | lineEnd
  deriving DecidableEq, Repr

namespace LineInput

/--
The characters that a typed character enters: a line end or a tab is a space, and other control
characters are nothing.
-/
def typed (c : Char) : List Char :=
  if c == '\n' || c == '\r' || c == '\t' then [' ']
  else if c.toNat < 0x20 || (0x7F ≤ c.toNat && c.toNat ≤ 0x9F) || c.toNat == 0xFFFD then []
  else [c]

def insert (i : LineInput) (cs : List Char) : LineInput :=
  { i with
    text := i.text.take i.cursor ++ cs ++ i.text.drop i.cursor
    cursor := i.cursor + cs.length }

def edit (i : LineInput) (e : Edit) : LineInput :=
  if !i.isFocused then i
  else match e with
    | .insert c => i.insert (typed c)
    | .backspace =>
      { i with
        text := i.text.take (i.cursor - 1) ++ i.text.drop i.cursor
        cursor := i.cursor - 1 }
    | .delete => { i with text := i.text.take i.cursor ++ i.text.drop (i.cursor + 1) }
    | .left => { i with cursor := i.cursor - 1 }
    | .right => { i with cursor := min (i.cursor + 1) i.text.length }
    | .lineStart => { i with cursor := 0 }
    | .lineEnd => { i with cursor := i.text.length }

def columns : Nat := 41

def view (i : LineInput) : String :=
  i.prompt ++ padTo columns (if i.text.isEmpty then i.placeholder else String.ofList i.text)

end LineInput

end RecordCodec.Tool
