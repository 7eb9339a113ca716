import Descent.Binary64.Basic
import Descent.Numeral

/-!
# The double nearest to a decimal

Reading a decimal exactly: the double is the one nearest to the value that the decimal denotes, and
of two that are equally near the one with an even significand. Values beyond the greatest double by
half a step or more become infinite. All arithmetic is on natural numbers and exact.
-/

namespace Descent.Binary64

/-- A quotient rounded to the nearest natural number, a half to the even one. -/
def roundQuotient (num den : Nat) : Nat :=
  let quotient := num / den
  let twice := 2 * (num % den)
  if twice < den then quotient
  else if den < twice then quotient + 1
  else quotient + quotient % 2

/-- The exponent of the leading bit of the quotient of two positive numbers. -/
def leadingExponent (num den : Nat) : Int :=
  let estimate : Int := (num.log2 : Int) - den.log2
  if num * Nat.pow 2 (-estimate).toNat < den * Nat.pow 2 estimate.toNat then estimate - 1
  else estimate

/-- The magnitude of the double nearest to the quotient of two positive numbers. -/
def nearestMagnitude (num den : Nat) : Nat :=
  let leading := leadingExponent num den
  let scale := if leading < -1022 then -1074 else leading - 52
  let steps := roundQuotient (num * Nat.pow 2 (-scale).toNat) (den * Nat.pow 2 scale.toNat)
  let magnitude := (scale + 1074).toNat * unitBit + steps
  if magnitude < infiniteMagnitude then magnitude else infiniteMagnitude

/-- The magnitude of the double nearest to `digits * 10 ^ exponent`. Values far outside the range of
doubles are settled by their exponents, without computing the power. -/
def decimalMagnitude (digits : Nat) (exponent : Int) : Nat :=
  if digits = 0 then 0
  else if 400 < exponent then infiniteMagnitude
  else if exponent + digits.log2 + 1 < -400 then 0
  else nearestMagnitude (digits * Nat.pow 10 exponent.toNat) (Nat.pow 10 (-exponent).toNat)

/-- A decimal number: a sign, digits without a point, and a power of ten that scales them. -/
structure Decimal where
  negative : Bool
  digits : Nat
  exponent : Int
deriving DecidableEq, Inhabited

def ofDecimal (d : Decimal) : Binary64 :=
  ofMagnitude d.negative (decimalMagnitude d.digits d.exponent)

/-- Read the exponent of a literal: nothing, or `e` and an integer. -/
def readExponent? : List Char → Option Int
  | [] => some 0
  | c :: rest =>
    if c == 'e' || c == 'E' then
      match rest with
      | '-' :: digits => (readDigits? digits).map fun n => -(n : Int)
      | '+' :: digits => (readDigits? digits).map fun n => (n : Int)
      | digits => (readDigits? digits).map fun n => (n : Int)
    else none
where
  /-- Read a non-empty run of digits to its end. -/
  readDigits? (digits : List Char) : Option Nat :=
    if digits.isEmpty || !digits.all Char.isDigit then none else some (Numeral.nat digits)

/-- Read a literal without its sign: digits, a fraction if there is one, and an exponent if there is
one. -/
def readUnsigned? (negative : Bool) (literal : List Char) : Option Decimal :=
  let whole := literal.takeWhile Char.isDigit
  let afterWhole := literal.dropWhile Char.isDigit
  let (fraction, afterFraction) := match afterWhole with
    | '.' :: rest => (rest.takeWhile Char.isDigit, rest.dropWhile Char.isDigit)
    | rest => ([], rest)
  if whole.isEmpty && fraction.isEmpty then none
  else
    (readExponent? afterFraction).map fun exponent =>
      ⟨negative, Numeral.nat (whole ++ fraction), exponent - fraction.length⟩

/-- Read a decimal literal to its end. -/
def Decimal.ofLiteral? : List Char → Option Decimal
  | '-' :: literal => readUnsigned? true literal
  | '+' :: literal => readUnsigned? false literal
  | literal => readUnsigned? false literal

/-- The double that a decimal literal denotes. -/
def ofLiteral? (literal : List Char) : Option Binary64 :=
  (Decimal.ofLiteral? literal).map ofDecimal

end Descent.Binary64
