import RecordCodec.Text.Case
import RecordCodec.Text.Category
import RecordCodec.Text.Trim

/-!
This module contains the names of records and fields: what an identifier is, how a declared name
becomes an exported struct field name and back, and when the two correspond.
-/

namespace RecordCodec.Naming

open RecordCodec.Text

def isIdentifier (s : String) : Bool :=
  match s.toList with
  | [] => false
  | c :: cs => starts c && cs.all fun c => starts c || isDigit c
where
  starts (c : Char) : Bool := c == '_' || isLetter c

def isSeparator (c : Char) : Bool :=
  c == '_' || c == '-'

def capitalize : List Char → List Char
  | [] => []
  | c :: cs => toUpper c :: cs

/--
The exported name of a declared name: `t_vec_string` becomes `TVecString`. A name that would not
start with a letter has an `F` put in front.
-/
def exported (name : String) : String :=
  String.ofList <|
    match (runs isSeparator name.toList).flatMap capitalize with
    | [] => ['F']
    | c :: cs => if isLetter c then c :: cs else 'F' :: c :: cs

def snake (name : String) : String :=
  String.ofList (go none name.toList)
where
  /-- A word starts at an upper case letter after a lower case letter or digit, or at the last of
  several upper case letters when a lower case letter follows it. -/
  startsWord (prev : Option Char) (next : List Char) : Bool :=
    match prev with
    | none => false
    | some p => isLower p || isDigit p || (isUpper p && next.head?.any isLower)
  go (prev : Option Char) : List Char → List Char
    | [] => []
    | c :: cs =>
      if isUpper c then
        (if startsWord prev cs then ['_'] else []) ++ toLower c :: go (some c) cs
      else c :: go (some c) cs

/--
Whether the struct field name `host` corresponds to the declared name: up to case, with or without
the separators of the declared name.
-/
def corresponds (host name : String) : Bool :=
  equalFold host.toList name.toList ||
    equalFold host.toList (name.toList.filter (!isSeparator ·))

end RecordCodec.Naming
