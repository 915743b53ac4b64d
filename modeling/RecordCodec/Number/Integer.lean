import RecordCodec.Text.Unquoted

/-!
This module contains the reading of integers. A number is decimal unless a prefix gives its base,
and underscores may divide its digits.
-/

namespace RecordCodec.Number

inductive ReadError where
  | malformed
  | outOfRange
  deriving DecidableEq, Repr

def ReadError.message : ReadError → String
  | malformed => "invalid syntax"
  | outOfRange => "value out of range"

def isDecimal (c : Char) : Bool :=
  '0' ≤ c && c ≤ '9'

def isHex (c : Char) : Bool :=
  (Text.digitValue? c).isSome

def baseOfLetter? (c : Char) : Option Nat :=
  match c with
  | 'b' | 'B' => some 2
  | 'o' | 'O' => some 8
  | 'x' | 'X' => some 16
  | _ => none

def splitSign : List Char → Bool × List Char
  | '-' :: cs => (true, cs)
  | '+' :: cs => (false, cs)
  | cs => (false, cs)

inductive Passed where
  | start
  | digit
  | underscore
  | another
  deriving DecidableEq, Repr

def dividesDigits (isDigit : Char → Bool) (last : Passed) : List Char → Bool
  | [] => last != .underscore
  | c :: cs =>
    if isDigit c then dividesDigits isDigit .digit cs
    else if c == '_' then last == .digit && dividesDigits isDigit .underscore cs
    else last != .underscore && dividesDigits isDigit .another cs

def underscoresFit (cs : List Char) : Bool :=
  match (splitSign cs).2 with
  | '0' :: c :: rest =>
    match baseOfLetter? c with
    | some base => dividesDigits (if base == 16 then isHex else isDecimal) .digit rest
    | none => dividesDigits isDecimal .start ('0' :: c :: rest)
  | rest => dividesDigits isDecimal .start rest

def splitBase : List Char → Nat × List Char
  | '0' :: c :: d :: cs =>
    match baseOfLetter? c with
    | some base => (base, d :: cs)
    | none => (8, c :: d :: cs)
  | '0' :: cs => (8, cs)
  | cs => (10, cs)

/--
The number that digits stand for, after a number that the digits before them stand for. The first
digit that takes it beyond the limit, or that is no digit, ends the reading.
-/
def accumulate (base limit n : Nat) : List Char → Except ReadError Nat
  | [] => .ok n
  | '_' :: cs => accumulate base limit n cs
  | c :: cs =>
    match letterValue? c with
    | none => .error .malformed
    | some d =>
      if base ≤ d then .error .malformed
      else if limit < n * base + d then .error .outOfRange
      else accumulate base limit (n * base + d) cs
where
  letterValue? (c : Char) : Option Nat :=
    if isDecimal c then some (c.toNat - 48)
    else if 'a' ≤ c && c ≤ 'z' then some (c.toNat - 87)
    else if 'A' ≤ c && c ≤ 'Z' then some (c.toNat - 55)
    else none

def readUnsigned (bits : Nat) (cs : List Char) : Except ReadError Nat := do
  if cs.isEmpty then throw .malformed
  let (base, digits) := splitBase cs
  let n ← accumulate base (Nat.pow 2 bits - 1) 0 digits
  if digits.contains '_' && !underscoresFit cs then throw .malformed
  return n

def readSigned (bits : Nat) (cs : List Char) : Except ReadError Int :=
  let (isNegative, rest) := splitSign cs
  let half := Nat.pow 2 (bits - 1)
  match readUnsigned bits rest with
  | .error e => .error e
  | .ok n =>
    if isNegative then (if half < n then .error .outOfRange else .ok (-n))
    else if half ≤ n then .error .outOfRange
    else .ok n

def readBool (cs : List Char) : Except ReadError Bool :=
  if ["1", "t", "T", "true", "TRUE", "True"].contains (String.ofList cs) then .ok true
  else if ["0", "f", "F", "false", "FALSE", "False"].contains (String.ofList cs) then .ok false
  else .error .malformed

end RecordCodec.Number
