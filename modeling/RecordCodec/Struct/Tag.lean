import RecordCodec.Text.Unquoted
import RecordCodec.Text.Trim

/-!
This module contains struct tags: texts of the form `key:"value" key:"value"`, and the entry that
names the record field of a struct field.
-/

namespace RecordCodec.Tag

open RecordCodec.Text

def isKeyChar (c : Char) : Bool :=
  ' ' < c && c != ':' && c != '"' && c != Char.ofNat 127

def closing? : List Char → Option (List Char × List Char)
  | [] => none
  | '"' :: cs => some (['"'], cs)
  | '\\' :: c :: cs => (closing? cs).map fun (v, rest) => ('\\' :: c :: v, rest)
  | c :: cs => (closing? cs).map fun (v, rest) => (c :: v, rest)

def lookup? (key : List Char) : (fuel : Nat) → List Char → Option String
  | 0, _ => none
  | fuel + 1, cs =>
    let cs := cs.dropWhile (· == ' ')
    let name := cs.takeWhile isKeyChar
    match cs.dropWhile isKeyChar with
    | ':' :: '"' :: cs =>
      if name.isEmpty then none
      else match closing? cs with
        | none => none
        | some (value, rest) =>
          if name == key then unquote? (String.ofList ('"' :: value)) else lookup? key fuel rest
    | _ => none

def get (tag key : String) : String :=
  (lookup? key.toList (tag.length + 1) tag.toList).getD ""

def key : String :=
  "lb"

structure Entry where
  name : String
  options : List String
  deriving DecidableEq, Repr

def entry (tag : String) : Entry :=
  match splitAtAll (· == ',') (get tag key).toList with
  | [] => ⟨"", []⟩
  | name :: options => ⟨String.ofList name, options.map String.ofList⟩

def Entry.isSkipped (e : Entry) : Bool :=
  e.name == "-"

end RecordCodec.Tag
