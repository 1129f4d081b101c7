import HarnessIndex.Text.Blank
import HarnessIndex.Text.Word

/-!
# Binary floating point numbers

The numbers with a fractional part that settings may hold: binary floating point with 53 significant
bits. A number is read from decimal by rounding the exact value to the nearest such number, halves
to even, and it is written with the fewest decimal digits that read back as the same number.
-/

namespace HarnessIndex

/-- A binary floating point number. A finite one is its significand times a power of two. -/
inductive Binary64 where
  | finite (negative : Bool) (significand : Nat) (exponent : Int)
  | infinite (negative : Bool)
  | nan
  deriving DecidableEq, Repr, Inhabited

namespace Binary64

/-- The smallest exponent of a number. -/
def minExponent : Int := -1074

def twoTo (exponent : Nat) : Nat :=
  Nat.pow 2 exponent

def tenTo (exponent : Nat) : Nat :=
  Nat.pow 10 exponent

/-- `n` times a power of two, when the power is not negative. -/
def scaleUp (n : Nat) (exponent : Int) : Nat :=
  n * twoTo exponent.toNat

/-- A quotient rounded to the nearest whole number, halves to even. -/
def roundedQuotient (numerator denominator : Nat) : Nat :=
  let quotient := numerator / denominator
  let twice := 2 * (numerator % denominator)
  if twice < denominator then quotient
  else if twice > denominator then quotient + 1
  else quotient + quotient % 2

/-- The exponent with which a positive quotient is stored. -/
def exponentFor (numerator denominator : Nat) : Int :=
  let guess : Int := (numerator.log2 : Int) - denominator.log2 - 52
  let whole := scaleUp numerator (-guess) / scaleUp denominator guess
  max minExponent (if whole < twoTo 52 then guess - 1 else guess)

/-- The number nearest to a quotient. -/
def ofQuotient (negative : Bool) (numerator denominator : Nat) : Binary64 :=
  if numerator = 0 then finite negative 0 0
  else
    let exponent := exponentFor numerator denominator
    let significand :=
      roundedQuotient (scaleUp numerator (-exponent)) (scaleUp denominator exponent)
    if twoTo 1024 ≤ scaleUp significand exponent then infinite negative
    else finite negative significand exponent

/-- The number nearest to `digits` times a power of ten. -/
def ofDecimal (negative : Bool) (digits : Nat) (exponent : Int) : Binary64 :=
  let size : Int := (Nat.toDigits 10 digits).length
  if digits = 0 then finite negative 0 0
  else if 400 < size + exponent then infinite negative
  else if size + exponent < -400 then finite negative 0 0
  else ofQuotient negative (digits * tenTo exponent.toNat) (tenTo (-exponent).toNat)

/-- The whole number that a number is, if it is one. -/
def toInt? : Binary64 → Option Int
  | finite negative significand exponent =>
      let divisor := twoTo (-exponent).toNat
      if significand % divisor = 0 then
        let size : Int := scaleUp significand exponent / divisor
        some (if negative then -size else size)
      else none
  | _ => none

/-- Whether a number is neither infinite nor undefined. -/
def isFinite : Binary64 → Bool
  | finite .. => true
  | _ => false

/-- How many times a quotient below one has to be multiplied by ten to reach one. -/
def leadingZeros (denominator : Nat) : (steps : Nat) → (numerator : Nat) → Nat
  | 0, _ => 0
  | steps + 1, numerator =>
      if denominator ≤ numerator then 0 else leadingZeros denominator steps (numerator * 10) + 1

/-- The place of the decimal point of a positive quotient, counted from its first digit. -/
def pointPlace (numerator denominator : Nat) : Int :=
  if denominator ≤ numerator then (Nat.toDigits 10 (numerator / denominator)).length
  else 1 - leadingZeros denominator 400 numerator

/-- The shortest decimal digits with their point that read back as `number`, which is the quotient;
at most `more` digits are tried after `size`. -/
def shortest (number : Binary64) (numerator denominator : Nat) (place : Int) :
    (more size : Nat) → Nat × Int
  | 0, size => (numerator * tenTo size / denominator, place - size)
  | more + 1, size =>
      let shift : Int := size - place
      let digits :=
        roundedQuotient (numerator * tenTo shift.toNat) (denominator * tenTo (-shift).toNat)
      if ofDecimal false digits (-shift) = number then (digits, -shift)
      else shortest number numerator denominator place more (size + 1)

/-- Drop the zeros at the end of a list of digits. -/
def withoutFinalZeros (digits : Text) : Text :=
  (digits.reverse.dropWhile (· = '0')).reverse

/-- Digits with a decimal point after the first `place` of them. -/
def positional (digits : Text) (place : Int) : Text :=
  if place ≤ 0 then "0." ++ List.replicate (-place).toNat '0' ++ digits
  else if digits.length ≤ place.toNat then
    digits ++ List.replicate (place.toNat - digits.length) '0' ++ ".0"
  else digits.take place.toNat ++ '.' :: digits.drop place.toNat

/-- Digits with a power of ten. -/
def scientific (digits : Text) (exponent : Int) : Text :=
  let power := Text.ofNat exponent.natAbs
  let padded := if power.length < 2 then '0' :: power else power
  let fraction := digits.drop 1
  digits.take 1 ++ (if fraction.isEmpty then [] else '.' :: fraction) ++
    'e' :: (if exponent < 0 then '-' else '+') :: padded

/-- The written form of a positive finite number. -/
def magnitudeText (significand : Nat) (exponent : Int) : Text :=
  if significand = 0 then "0.0"
  else
    let numerator := scaleUp significand exponent
    let denominator := twoTo (-exponent).toNat
    let (digits, power) :=
      shortest (ofQuotient false numerator denominator) numerator denominator
        (pointPlace numerator denominator) 17 1
    let all := Nat.toDigits 10 digits
    let place : Int := all.length + power
    let kept := withoutFinalZeros all
    if -4 < place && place ≤ 16 then positional kept place else scientific kept (place - 1)

/-- The written form of a number. -/
def toText : Binary64 → Text
  | finite negative significand exponent =>
      (if negative then ['-'] else []) ++ magnitudeText significand exponent
  | infinite negative => (if negative then ['-'] else []) ++ "inf"
  | nan => "nan"

/-- What follows decimal digits at the front of a text, with the digits. -/
def takeDigits (text : Text) : Text × Text :=
  (text.takeWhile Text.isAsciiDigit, text.dropWhile Text.isAsciiDigit)

end Binary64

end HarnessIndex
