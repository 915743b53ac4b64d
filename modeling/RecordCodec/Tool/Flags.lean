import RecordCodec.Number.Integer
import RecordCodec.Text.Quoted
import RecordCodec.Text.Utf8

/-!
This module contains the flags of command lines: `parseFlags` splits arguments into the values of
flags and the operands.
-/

namespace RecordCodec.Tool

open RecordCodec.Text RecordCodec.Number

structure Flag where
  name : String
  letter : Option Char := none
  isSwitch : Bool := false
  deriving DecidableEq, Repr, Inhabited

inductive FlagError where
  | malformed (argument : String)
  | unknownName (name : String)
  | unknownLetter (letter : Char) (letters : String)
  | noValue (name : String)
  | noLetterValue (letter : Char) (letters : String)
  | notTruthValue (flag : Flag) (value : String)
  deriving DecidableEq, Repr

def firstByte (c : Char) : Char :=
  Char.ofNat (((utf8Char c).head?.map UInt8.toNat).getD 0)

def Flag.shown (f : Flag) : String :=
  match f.letter with
  | some c => "-" ++ String.singleton c ++ ", --" ++ f.name
  | none => "--" ++ f.name

def FlagError.message : FlagError → String
  | malformed argument => "bad flag syntax: " ++ argument
  | unknownName name => "unknown flag: --" ++ name
  | unknownLetter letter letters =>
    "unknown shorthand flag: " ++ quoteChar (firstByte letter) ++ " in -" ++ letters
  | noValue name => "flag needs an argument: --" ++ name
  | noLetterValue letter letters =>
    "flag needs an argument: " ++ quoteChar (firstByte letter) ++ " in -" ++ letters
  | notTruthValue flag value =>
    "invalid argument " ++ quote value ++ " for " ++ quote flag.shown ++
      " flag: strconv.ParseBool: parsing " ++ quote value ++ ": " ++ ReadError.malformed.message

structure Arguments where
  values : List (String × String) := []
  operands : List String := []
  deriving DecidableEq, Repr, Inhabited

namespace Arguments

def value (a : Arguments) (name default : String) : String :=
  (a.values.reverse.lookup name).getD default

def isOn (a : Arguments) (name : String) : Bool :=
  match readBool (a.value name "false").toList with
  | .ok b => b
  | .error _ => false

def set (a : Arguments) (f : Flag) (value : String) : Except FlagError Arguments :=
  if f.isSwitch && !(readBool value.toList).isOk then .error (.notTruthValue f value)
  else .ok { a with values := a.values ++ [(f.name, value)] }

end Arguments

def switchedOn : String := "true"

/--
Take flags that are given by letters, where `rest` are the arguments that follow. The value of a
flag follows its letter, or else is the next argument.
-/
def parseLetters (flags : List Flag) (a : Arguments) (rest : List String) : List Char →
    Except FlagError (Arguments × List String)
  | [] => .ok (a, rest)
  | c :: cs =>
    let letters := String.ofList (c :: cs)
    match flags.find? (·.letter == some c), cs, rest with
    | none, _, _ => .error (.unknownLetter c letters)
    | some f, '=' :: x :: value, rest => do
      return (← a.set f (String.ofList (x :: value)), rest)
    | some f, cs, rest =>
      if f.isSwitch then do parseLetters flags (← a.set f switchedOn) rest cs
      else match cs, rest with
        | [], [] => .error (.noLetterValue c letters)
        | [], value :: rest => do return (← a.set f value, rest)
        | cs, rest => do return (← a.set f (String.ofList cs), rest)

/--
Take a flag that is given by name, where `rest` are the arguments that follow. The value of a flag
follows an equals sign, or else is the next argument.
-/
def parseName (flags : List Flag) (a : Arguments) (rest : List String) (argument : List Char) :
    Except FlagError (Arguments × List String) :=
  let name := String.ofList (argument.takeWhile (· != '='))
  if name == "" || name.toList.head? == some '-' then
    .error (.malformed ("--" ++ String.ofList argument))
  else match flags.find? (·.name == name), argument.dropWhile (· != '='), rest with
    | none, _, _ => .error (.unknownName name)
    | some f, _ :: value, rest => do return (← a.set f (String.ofList value), rest)
    | some f, [], rest =>
      if f.isSwitch then do return (← a.set f switchedOn, rest)
      else match rest with
        | [] => .error (.noValue name)
        | value :: rest => do return (← a.set f value, rest)

def parseFlags (flags : List Flag) : (fuel : Nat) → Arguments → List String →
    Except FlagError Arguments
  | 0, a, _ => .ok a
  | _ + 1, a, [] => .ok a
  | fuel + 1, a, argument :: rest =>
    match argument.toList with
    | ['-', '-'] => .ok { a with operands := a.operands ++ rest }
    | '-' :: '-' :: cs => do
      let (a, rest) ← parseName flags a rest cs
      parseFlags flags fuel a rest
    | '-' :: c :: cs => do
      let (a, rest) ← parseLetters flags a rest (c :: cs)
      parseFlags flags fuel a rest
    | _ => parseFlags flags fuel { a with operands := a.operands ++ [argument] } rest

/-! Finding a command among flags. -/

def takesNext (flags : List Flag) (argument : String) : Bool :=
  let cs := argument.toList
  !cs.contains '=' &&
    match cs with
    | '-' :: '-' :: name =>
      !((flags.find? (·.name == String.ofList name)).map Flag.isSwitch).getD false
    | ['-', c] =>
      c.toNat < 128 && !((flags.find? (·.letter == some c)).map Flag.isSwitch).getD false
    | _ => false

def wordsOf (flags : List Flag) : List String → List String
  | [] => []
  | s :: rest =>
    if s == "--" then []
    else if takesNext flags s then
      match rest with
      | _ :: next :: rest => wordsOf flags (next :: rest)
      | _ => []
    else if s == "" || s.toList.head? == some '-' then wordsOf flags rest
    else s :: wordsOf flags rest

def dropWord (flags : List Flag) (word : String) : List String → List String
  | [] => []
  | s :: rest =>
    if s == "--" then s :: rest
    else if takesNext flags s then
      match rest with
      | value :: rest => s :: value :: dropWord flags word rest
      | [] => [s]
    else if s == word then rest
    else s :: dropWord flags word rest

end RecordCodec.Tool
