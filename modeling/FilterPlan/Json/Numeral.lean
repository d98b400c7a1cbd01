import FilterPlan.Json.Basic

/-!
# Numerals of JSON

A numeral is an optional minus sign, a whole part without superfluous zeros, an optional fraction
and an optional exponent. A numeral with neither fraction nor exponent is an integer if it fits into
64 bits; every other one is a float. A float is read in two roundings: the leading digits that fit
into 64 bits become a float, and that is multiplied or divided by a power of ten.
-/

namespace FilterPlan.Json

/-- The parts of a numeral, with only digits in the texts. -/
structure Numeral where
  /-- Whether a minus sign stands in front. -/
  isNegative : Bool
  /-- The digits before the point. -/
  whole : Text
  /-- The digits after the point, if there is one. -/
  fraction? : Option Text
  /-- The exponent, if one is written. -/
  exponent? : Option Int

namespace Numeral

/-- Reads the digits of an exponent after its sign, to the end of the text. -/
def exponentDigits? (t : Text) : Option Nat :=
  if t.isEmpty || !t.all Char.isDigit then none else some (Nat.ofDigitChars 10 t 0)

/-- Reads an optional exponent, to the end of the text. -/
def exponentPart? : Text → Option (Option Int)
  | [] => some none
  | e :: t =>
    if e == 'e' || e == 'E' then
      match t with
      | '-' :: t => (exponentDigits? t).map fun n => some (-(n : Int))
      | '+' :: t => (exponentDigits? t).map fun n => some (n : Int)
      | t => (exponentDigits? t).map fun n => some (n : Int)
    else none

/-- Reads the parts after the whole part. -/
def ofTail? (isNegative : Bool) (whole : Text) : Text → Option Numeral
  | '.' :: t =>
    let fraction := t.takeWhile Char.isDigit
    if fraction.isEmpty then none
    else (exponentPart? (t.dropWhile Char.isDigit)).map fun e => ⟨isNegative, whole, some fraction, e⟩
  | t => (exponentPart? t).map fun e => ⟨isNegative, whole, none, e⟩

/-- Reads the whole part, which is `0` or begins with another digit, and what follows. -/
def ofUnsigned? (isNegative : Bool) (t : Text) : Option Numeral :=
  let whole := t.takeWhile Char.isDigit
  let tail := t.dropWhile Char.isDigit
  match whole with
  | [] => none
  | '0' :: _ :: _ => none
  | _ => ofTail? isNegative whole tail

/-- Reads a numeral that takes up the whole text. -/
def ofText? : Text → Option Numeral
  | '-' :: t => ofUnsigned? true t
  | t => ofUnsigned? false t

/-- Appends digits to a number while it stays below `2 ^ 64`: the number, and how many digits went in. -/
def accumulate (n : Nat) : Text → Nat × Nat
  | [] => (n, 0)
  | d :: rest =>
    let next := 10 * n + (d.toNat - '0'.toNat)
    if next < Text.wordBound then
      let (value, taken) := accumulate next rest
      (value, taken + 1)
    else (n, 0)

/-- The power of ten, for exponents up to 308. -/
def tenPow (k : Nat) : Float :=
  Float.ofScientific 1 false k

/-- The greatest exponent whose power of ten is a float. -/
def maxExponent : Nat := 308

/-- Divides by a power of ten. -/
def scaleDown (x : Float) (k : Nat) : Float :=
  if k ≤ maxExponent then x / tenPow k
  else if x == 0 then x
  else scaleDown (x / tenPow maxExponent) (k - maxExponent)
termination_by k
decreasing_by simp only [maxExponent] at *; omega

/-- Multiplies by a power of ten, or gives `none` beyond the largest float. -/
def scaleUp? (x : Float) (k : Nat) : Option Float :=
  if k ≤ maxExponent then
    let y := x * tenPow k
    if y.isInf then none else some y
  else if x == 0 then some x
  else none

/-- The float that the numeral stands for, or `none` beyond the largest float. -/
def float? (a : Numeral) : Option Float :=
  let (head, taken) := accumulate 0 a.whole
  let (digits, decimals) := accumulate head (a.fraction?.getD [])
  let exponent : Int := (a.whole.length - taken : Nat) - decimals + a.exponent?.getD 0
  let x := digits.toUInt64.toFloat
  let scaled := if 0 ≤ exponent then scaleUp? x exponent.toNat else some (scaleDown x (-exponent).toNat)
  scaled.map fun y => if a.isNegative then -y else y

/-- The integer that the numeral stands for, if it is written as one and fits into 64 bits. -/
def integer? (a : Numeral) : Option Number :=
  if a.fraction?.isSome || a.exponent?.isSome then none
  else
    let n := Nat.ofDigitChars 10 a.whole 0
    if a.isNegative then
      if 0 < n && n ≤ Nat.pow 2 63 then some (.negative n) else none
    else if n < Text.wordBound then some (.natural n)
    else none

/-- The value that the numeral stands for; out of range it is unreadable. -/
def value (a : Numeral) : Json :=
  match a.integer? with
  | some n => number n
  | none =>
    match a.float? with
    | some x => number (.float x)
    | none => unreadable

end Numeral

end FilterPlan.Json
