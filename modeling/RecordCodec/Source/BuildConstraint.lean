import RecordCodec.Text.Trim

/-!
This module contains the conditions under which a file is built. A condition is written on one line as
an expression, or on several lines as lists of tags.
-/

namespace RecordCodec.Source

open RecordCodec.Text

inductive Constraint where
  | tag (name : String)
  | not (x : Constraint)
  | and (x y : Constraint)
  | or (x y : Constraint)
  deriving DecidableEq, Repr, Inhabited

namespace Constraint

/-! Texts. -/

def enclose (isNeeded : Bool) (s : String) : String :=
  if isNeeded then "(" ++ s ++ ")" else s

def isAnd : Constraint → Bool
  | and .. => true
  | _ => false

def isOr : Constraint → Bool
  | or .. => true
  | _ => false

def text : Constraint → String
  | tag name => name
  | not x => "!" ++ enclose (x.isAnd || x.isOr) x.text
  | and x y => enclose x.isOr x.text ++ " && " ++ enclose y.isOr y.text
  | or x y => enclose x.isAnd x.text ++ " || " ++ enclose y.isAnd y.text

/-! Expressions. -/

inductive Mark where
  | opening
  | closing
  | negation
  | both
  | either
  | tag (name : String)
  deriving DecidableEq, Repr

def isTagChar (c : Char) : Bool :=
  isLetter c || isDigit c || c == '_' || c == '.'

def marks? : (fuel : Nat) → List Char → Option (List Mark)
  | 0, _ => none
  | fuel + 1, cs =>
    match cs with
    | [] => some []
    | ' ' :: rest | '\t' :: rest => marks? fuel rest
    | '(' :: rest => (marks? fuel rest).map (.opening :: ·)
    | ')' :: rest => (marks? fuel rest).map (.closing :: ·)
    | '!' :: rest => (marks? fuel rest).map (.negation :: ·)
    | '&' :: '&' :: rest => (marks? fuel rest).map (.both :: ·)
    | '|' :: '|' :: rest => (marks? fuel rest).map (.either :: ·)
    | _ =>
      let name := cs.takeWhile isTagChar
      if name.isEmpty then none
      else (marks? fuel (cs.dropWhile isTagChar)).map (.tag (String.ofList name) :: ·)

def join (x : Option Constraint) (y : Constraint) : Constraint :=
  match x with
  | some x => or x y
  | none => y

mutual

def expression? : (fuel : Nat) → List Mark → Option (Constraint × List Mark)
  | 0, _ => none
  | fuel + 1, ts => do
    let (x, ts) ← operand? fuel ts
    rest? fuel none x ts

/--
The rest of a condition after a conjunction `x`, and the other tokens. `before` is what stands before
the conjunction.
-/
def rest? : (fuel : Nat) → (before : Option Constraint) → (x : Constraint) → List Mark →
    Option (Constraint × List Mark)
  | 0, _, _, _ => none
  | fuel + 1, before, x, .both :: ts => do
    let (y, ts) ← operand? fuel ts
    rest? fuel before (and x y) ts
  | fuel + 1, before, x, .either :: ts => do
    let (y, ts) ← operand? fuel ts
    rest? fuel (some (join before x)) y ts
  | _, before, x, ts => some (join before x, ts)

def operand? : (fuel : Nat) → List Mark → Option (Constraint × List Mark)
  | 0, _ => none
  | _, .tag name :: ts => some (tag name, ts)
  | fuel + 1, .opening :: ts => do
    match ← expression? fuel ts with
    | (x, .closing :: ts) => some (x, ts)
    | _ => none
  | fuel + 1, .negation :: ts =>
    match ts with
    | .negation :: _ => none
    | _ => do
      let (x, ts) ← operand? fuel ts
      return (not x, ts)
  | _, _ => none

end

def maxOperands : Nat := 1000

def parse? (cs : List Char) : Option Constraint := do
  let ts ← marks? (cs.length + 1) cs
  let isOperand : Mark → Bool
    | .tag _ | .opening | .negation => true
    | _ => false
  if maxOperands < (ts.filter isOperand).length then failure
  match ← expression? (3 * ts.length + 3) ts with
  | (x, []) => some x
  | _ => none

/-! Lists of tags. -/

def ignored : Constraint :=
  tag "ignore"

def ofListed (cs : List Char) : Constraint :=
  match cs with
  | '!' :: rest =>
    if rest.isEmpty || rest.head? == some '!' then ignored else not (ofTag rest)
  | _ => ofTag cs
where
  ofTag (cs : List Char) : Constraint :=
    if !cs.isEmpty && cs.all isTagChar then tag (String.ofList cs) else ignored

def maxListed : Nat := 100

def parseLists? (cs : List Char) : Option Constraint :=
  let lists := (words cs).map fun list => (splitAtAll (· == ',') list).map ofListed
  let count := (lists.map List.length).foldl (· + ·) 0
  if maxListed + 1 < count then none
  else match lists.filterMap (foldFirst and) with
    | [] => some ignored
    | x :: xs => some (xs.foldl or x)
where
  foldFirst (f : Constraint → Constraint → Constraint) : List Constraint → Option Constraint
    | [] => none
    | x :: xs => some (xs.foldl f x)

def pushNot (isNegated : Bool) : Constraint → Constraint
  | tag name => if isNegated then not (tag name) else tag name
  | not x => x.pushNot (!isNegated)
  | and x y =>
    if isNegated then or (x.pushNot true) (y.pushNot true)
    else and (x.pushNot false) (y.pushNot false)
  | or x y =>
    if isNegated then and (x.pushNot true) (y.pushNot true)
    else or (x.pushNot false) (y.pushNot false)

def conjuncts : Constraint → List Constraint
  | and x y => x.conjuncts ++ y.conjuncts
  | x => [x]

def disjuncts : Constraint → List Constraint
  | or x y => x.disjuncts ++ y.disjuncts
  | x => [x]

def lists? (x : Constraint) : Option (List (List (List Constraint))) :=
  let split := (x.pushNot false).conjuncts.map fun line => line.disjuncts.map conjuncts
  if split.any (·.any (·.any fun x => x.isAnd || x.isOr)) then none
  else if split.all (·.length ≤ 1) then some [[(split.map List.flatten).flatten]]
  else some split

end Constraint

/-! Lines. -/

def afterKeyword? (keyword : String) (cs : List Char) : Option (List Char) :=
  if !keyword.toList.isPrefixOf cs then none
  else
    let rest := trimEnd (cs.drop keyword.length)
    if rest.isEmpty || rest.head?.any isBlank then some (trim rest) else none

def buildExpression? (comment : String) : Option (List Char) :=
  afterKeyword? "//go:build" comment.toList

def buildLists? (comment : String) : Option (List Char) :=
  match comment.toList with
  | '/' :: '/' :: rest => afterKeyword? "+build" (trim rest)
  | _ => none

def Constraint.ofComment? (comment : String) : Option Constraint :=
  match buildExpression? comment with
  | some cs => parse? cs
  | none => (buildLists? comment).bind parseLists?

def Constraint.expressionLine (x : Constraint) : String :=
  "//go:build " ++ x.text

def Constraint.listLines (x : Constraint) : List String :=
  match x.lists? with
  | none => ["// +build error: expression too complex for // +build lines"]
  | some lines => lines.map fun line =>
    "// +build" ++ String.join (line.map fun tags => " " ++ ",".intercalate (tags.map text))

end RecordCodec.Source
