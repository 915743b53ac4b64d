import RecordCodec.Source.BuildConstraint
import RecordCodec.Source.Columns

/-!
This module contains the placement of the comments that state when a file is built: they are
collected at the top of the file, and both ways to state a condition are made to agree.
-/

namespace RecordCodec.Source

namespace Atom

def isMargin : Atom → Bool
  | blank | tab => true
  | _ => false

def isLineComment : Atom → Bool
  | text s => "//".isPrefixOf s
  | _ => false

end Atom

namespace BuildLine

def splitLine : List Atom → List Atom × List Atom
  | [] => ([], [])
  | a :: as =>
    if a.isBreak then ([a], as)
    else
      let (line, rest) := splitLine as
      (a :: line, rest)

def outputLines (atoms : List Atom) : List (List Atom) :=
  go atoms.length atoms
where
  go : (fuel : Nat) → List Atom → List (List Atom)
    | 0, _ => []
    | fuel + 1, atoms =>
      if atoms.isEmpty then []
      else (splitLine atoms).1 :: go fuel (splitLine atoms).2

/--
The place after the last blank line among the blank lines and comments at the start of an output.
`pos` is the place of the lines, and `last` the one after the last blank line before them.
-/
def lastPlace (pos last : Nat) : List (List Atom) → Nat
  | [] => last
  | line :: lines =>
    let content := line.dropWhile Atom.isMargin
    let next := pos + line.length
    if content.head?.any Atom.isBreak then lastPlace next next lines
    else if content.head?.any Atom.isLineComment && line.getLast?.any Atom.isBreak then
      lastPlace next last lines
    else last

def constraintAt? (output : List Atom) (pos : Nat) : Option Constraint :=
  match output[pos]? with
  | some (.text s) => Constraint.ofComment? s
  | _ => none

/--
The condition that holds for the file. One expression decides it; without any, all lists have to hold.
There is none if a comment is malformed or if there are several expressions.
-/
def constraint? (output : List Atom) (expressions lists : List Nat) : Option Constraint := do
  match expressions with
  | [] =>
    match ← lists.mapM (constraintAt? output) with
    | [] => none
    | x :: xs => some (xs.foldl .and x)
  | [pos] => constraintAt? output pos
  | _ => none

def block (output : List Atom) (expressions lists : List Nat) : List Atom :=
  match constraint? output expressions lists with
  | some x =>
    let lines := x.expressionLine :: if lists.isEmpty then [] else x.listLines
    (lines.flatMap fun line => [.text line, .line]) ++ [.line]
  | none => ((expressions ++ lists).flatMap fun pos => (splitLine (output.drop pos)).1) ++ [.line]

def endsBlank (atoms : List Atom) : Bool :=
  match atoms.reverse with
  | a :: b :: _ => a.isBreak && b.isBreak
  | _ => false

def appendLines (xs ys : List Atom) : List Atom :=
  xs ++ if ys.head?.any Atom.isBreak && (xs.isEmpty || endsBlank xs) then ys.tail else ys

def without (output : List Atom) (done : List Atom) (start : Nat) : List Nat → List Atom
  | [] => appendLines done (output.drop start)
  | pos :: places =>
    if pos < start then without output done start places
    else
      let done := appendLines done ((output.take pos).drop start)
      without output done (pos + (splitLine (output.drop pos)).1.length) places

def gather (expressions lists : List Nat) (output : List Atom) : List Atom :=
  let places := (expressions ++ lists).mergeSort
  if places.isEmpty then output
  else
    let last := lastPlace 0 0 (outputLines output)
    let start := match expressions.head?.filter (· < last), lists.head?.filter (· < last) with
      | some pos, _ | none, some pos => pos
      | none, none => last
    let rest := without output [] start places
    let rest := if endsBlank rest then rest.dropLast else rest
    output.take start ++ block output expressions lists ++ rest

end BuildLine

end RecordCodec.Source
