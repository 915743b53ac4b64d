import RecordCodec.Number.Integer

/-!
This module contains floating point numbers as bit patterns: rounding a fraction to the nearest
number of a format, and the shortest decimal that reads back as a given number. All arithmetic is
exact.
-/

namespace RecordCodec.Number

structure FloatFormat where
  /-- The bits of the mantissa, without the leading one that is not stored. -/
  mantissaBits : Nat
  exponentBits : Nat
  deriving DecidableEq, Repr

namespace FloatFormat

def single : FloatFormat := ⟨23, 8⟩

def double : FloatFormat := ⟨52, 11⟩

def infinity (f : FloatFormat) : Nat :=
  (Nat.pow 2 f.exponentBits - 1) * Nat.pow 2 f.mantissaBits

def signBit (f : FloatFormat) : Nat :=
  Nat.pow 2 (f.mantissaBits + f.exponentBits)

def notANumber (f : FloatFormat) : Nat :=
  f.infinity + Nat.pow 2 (f.mantissaBits - 1)

def minExponent (f : FloatFormat) : Int :=
  2 - Nat.pow 2 (f.exponentBits - 1) - f.mantissaBits

end FloatFormat

def roundDiv (num den : Nat) : Nat :=
  let q := num / den
  let r := num % den
  if den < 2 * r || (2 * r == den && q % 2 == 1) then q + 1 else q

def scale (num den base : Nat) (e : Int) : Nat × Nat :=
  if 0 ≤ e then (num * Nat.pow base e.toNat, den) else (num, den * Nat.pow base (-e).toNat)

def floorLog2 (num den : Nat) : Int :=
  let e : Int := (Nat.log2 num : Int) - Nat.log2 den
  let (n, d) := scale num den 2 (-e)
  if d ≤ n then e else e - 1

/--
The bit pattern of the number of a format nearest to the fraction `num / den`. Fractions beyond the
greatest number have none.
-/
def FloatFormat.nearest? (f : FloatFormat) (num den : Nat) : Option Nat :=
  if num == 0 then some 0
  else
    let step := max (floorLog2 num den - f.mantissaBits) f.minExponent
    let (n, d) := scale num den 2 (-step)
    let bits := (step - f.minExponent).toNat * Nat.pow 2 f.mantissaBits + roundDiv n d
    if bits < f.infinity then some bits else none

structure Numeral where
  digits : Nat
  base : Nat
  exponent : Int
  deriving DecidableEq, Repr

/--
The digits of a numeral up to the first character that belongs to none: digits, underscores and at
most one point. The result has the digits, whether there are any, how many follow the point, and
what is left.
-/
def takeNumeral (base : Nat) (isDigit : Char → Bool) :
    (seenPoint : Bool) → (n : Nat) → (any : Bool) → (places : Nat) → List Char →
      Nat × Bool × Nat × List Char
  | _, n, any, places, [] => (n, any, places, [])
  | seenPoint, n, any, places, c :: cs =>
    if c == '_' then takeNumeral base isDigit seenPoint n any places cs
    else if c == '.' && !seenPoint then takeNumeral base isDigit true n any places cs
    else if isDigit c then
      takeNumeral base isDigit seenPoint (n * base + (Text.digitValue? c).getD 0) true
        (if seenPoint then places + 1 else places) cs
    else (n, any, places, c :: cs)

/--
The exponent after its letter. Digits after the fifth do not count, because no number of any format
is that large or small.
-/
def readExponent? (cs : List Char) : Option Int :=
  let (isNegative, digits) := splitSign cs
  match digits with
  | [] => none
  | c :: _ =>
    if isDecimal c && digits.all (fun c => isDecimal c || c == '_') then
      let e := digits.foldl (fun e c => if c == '_' || 10000 ≤ e then e else e * 10 + (c.toNat - 48)) 0
      some (if isNegative then -(e : Int) else e)
    else none

/--
Read an unsigned numeral: decimal digits with an optional exponent of ten, or hexadecimal digits
with an exponent of two.
-/
def readNumeral? (cs : List Char) : Option Numeral :=
  match cs with
  | '0' :: x :: c :: rest =>
    if x == 'x' || x == 'X' then hexadecimal (c :: rest) else decimal cs
  | _ => decimal cs
where
  decimal (cs : List Char) : Option Numeral :=
    match takeNumeral 10 isDecimal false 0 false 0 cs with
    | (_, false, _, _) => none
    | (n, true, places, []) => some ⟨n, 10, -places⟩
    | (n, true, places, e :: rest) => do
      guard (e == 'e' || e == 'E')
      return ⟨n, 10, (← readExponent? rest) - places⟩
  hexadecimal (cs : List Char) : Option Numeral :=
    match takeNumeral 16 isHex false 0 false 0 cs with
    | (n, true, places, p :: rest) => do
      guard (p == 'p' || p == 'P')
      return ⟨n, 2, (← readExponent? rest) - 4 * places⟩
    | _ => none

def decimalLength (n : Nat) : Nat :=
  (Nat.toDigits 10 n).length

/--
The bit pattern nearest to a numeral. Decimal numerals far outside the range of every format are
settled by the number of their digits.
-/
def Numeral.nearest? (f : FloatFormat) (x : Numeral) : Option Nat :=
  if x.digits == 0 then some 0
  else
    let magnitude := (decimalLength x.digits : Int) + x.exponent
    if x.base == 10 && 400 < magnitude then none
    else if x.base == 10 && magnitude < -400 then some 0
    else
      let (n, d) := scale x.digits 1 x.base x.exponent
      f.nearest? n d

def readNamed? (f : FloatFormat) (cs : List Char) : Option Nat :=
  let (isNegative, rest) := splitSign cs
  let word := String.ofList (rest.map Char.toLower)
  if word == "inf" || word == "infinity" then
    some (if isNegative then f.signBit + f.infinity else f.infinity)
  else if String.ofList (cs.map Char.toLower) == "nan" then
    some (if f == .double then f.notANumber + 1 else f.notANumber)
  else none

def readFloat (f : FloatFormat) (cs : List Char) : Except ReadError Nat :=
  match readNamed? f cs with
  | some bits => .ok bits
  | none =>
    let (isNegative, rest) := splitSign cs
    match readNumeral? rest with
    | none => .error .malformed
    | some x =>
      if cs.contains '_' && !underscoresFit cs then .error .malformed
      else match x.nearest? f with
        | none => .error .outOfRange
        | some bits => .ok (if isNegative then f.signBit + bits else bits)

structure Decimal where
  digits : List Char
  point : Int
  deriving DecidableEq, Repr

def FloatFormat.unpack (f : FloatFormat) (bits : Nat) : Nat × Int :=
  let mantissa := bits % Nat.pow 2 f.mantissaBits
  let exponent := bits / Nat.pow 2 f.mantissaBits
  if exponent == 0 then (mantissa, f.minExponent)
  else (mantissa + Nat.pow 2 f.mantissaBits, f.minExponent + (exponent - 1))

def decimalPoint (num den : Nat) : Int :=
  let e : Int := (decimalLength num : Int) - decimalLength den
  let (n, d) := scale num den 10 (-e)
  if d ≤ n then e + 1 else e

def Decimal.ofNat (n : Nat) (e : Int) : Decimal :=
  let ds := Nat.toDigits 10 n
  ⟨(ds.reverse.dropWhile (· == '0')).reverse, e + ds.length⟩

/--
The numbers that read back as a number of a format: a range around it, in quarters of its step, that
includes its ends if the number is even.
-/
structure Neighbourhood where
  lower : Nat
  center : Nat
  upper : Nat
  includesEnds : Bool
  exponent : Int

def FloatFormat.neighbourhood (f : FloatFormat) (bits : Nat) : Neighbourhood :=
  let (m, e) := f.unpack bits
  let isPower := bits % Nat.pow 2 f.mantissaBits == 0 && 1 < bits / Nat.pow 2 f.mantissaBits
  ⟨if isPower then 4 * m - 1 else 4 * m - 2, 4 * m, 4 * m + 2, m % 2 == 0, e - 2⟩

def Neighbourhood.multiple? (h : Neighbourhood) (e : Int) : Option Nat :=
  let (n, d) := scale 1 1 2 h.exponent
  let (num, den) := scale n d 10 (-e)
  let isInside (c : Nat) : Bool :=
    if h.includesEnds then h.lower * num ≤ c * den && c * den ≤ h.upper * num
    else h.lower * num < c * den && c * den < h.upper * num
  let below := h.center * num / den
  let nearest := roundDiv (h.center * num) den
  [nearest, below, below + 1].find? isInside

def Neighbourhood.shortest (h : Neighbourhood) : (fuel : Nat) → (e : Int) → Decimal
  | 0, e => .ofNat 0 e
  | fuel + 1, e =>
    match h.multiple? e with
    | some n => .ofNat n e
    | none => h.shortest fuel (e - 1)

/--
The shortest decimal that reads back as a positive number. Twenty digits are more than any number of
either format needs.
-/
def FloatFormat.shortest (f : FloatFormat) (bits : Nat) : Decimal :=
  let (m, e) := f.unpack bits
  let (n, d) := scale m 1 2 e
  (f.neighbourhood bits).shortest 20 (decimalPoint n d - 1)

def Decimal.text (x : Decimal) : String :=
  let e := x.point - 1
  if e < -4 || 6 ≤ e then String.ofList (scientific e) else String.ofList positional
where
  scientific (e : Int) : List Char :=
    let mantissa := match x.digits with
      | [] => ['0']
      | [d] => [d]
      | d :: ds => d :: '.' :: ds
    let digits := Nat.toDigits 10 e.natAbs
    mantissa ++ ['e', if e < 0 then '-' else '+'] ++ List.replicate (2 - digits.length) '0' ++ digits
  positional : List Char :=
    if x.point ≤ 0 then
      '0' :: '.' :: List.replicate (-x.point).toNat '0' ++ x.digits
    else
      let whole := x.digits.take x.point.toNat
      let zeros := List.replicate (x.point.toNat - x.digits.length) '0'
      match x.digits.drop x.point.toNat with
      | [] => whole ++ zeros
      | ds => whole ++ '.' :: ds

def FloatFormat.text (f : FloatFormat) (bits : Nat) : String :=
  let isNegative := f.signBit ≤ bits
  let rest := bits % f.signBit
  if f.infinity < rest then "NaN"
  else if rest == f.infinity then (if isNegative then "-Inf" else "+Inf")
  else
    let sign := if isNegative then "-" else ""
    if rest == 0 then sign ++ "0" else sign ++ (f.shortest rest).text

end RecordCodec.Number
