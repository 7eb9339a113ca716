import Descent.Binary64.Decimal

/-!
# The shortest decimal of a double

The decimal with the fewest digits that reads back as a given double, of several the nearest to it,
and of two equally near the greater. It is found by testing, for one digit, two digits and so on,
the two neighbours of the double among the decimals with so many digits. The text of a double is
that decimal in positional notation, without an exponent however great or small it is.
-/

namespace Descent.Binary64

/-- The digits tried for the shortest decimal: so many are always enough. -/
def maxDigits : Nat := 17

/-- The value of a magnitude as a quotient: its numerator. -/
def numerator (magnitude : Nat) : Nat :=
  significand magnitude * Nat.pow 2 (exponent magnitude).toNat

/-- The value of a magnitude as a quotient: its denominator. -/
def denominator (magnitude : Nat) : Nat := Nat.pow 2 (-exponent magnitude).toNat

/-- Whether the value of a magnitude is less than a power of ten. -/
def belowPowerOfTen (magnitude : Nat) (k : Int) : Bool :=
  numerator magnitude * Nat.pow 10 (-k).toNat < denominator magnitude * Nat.pow 10 k.toNat

/-- The least `k` from a lower estimate on, in so many steps, such that the value of a magnitude is
below the power of ten at `k`. -/
def scaleFrom (magnitude : Nat) (k : Int) : Nat → Int
  | 0 => k
  | steps + 1 => if belowPowerOfTen magnitude k then k else scaleFrom magnitude (k + 1) steps

/-- The number of digits before the point of the value of a magnitude, negative where zeros follow
the point. -/
def decimalScale (magnitude : Nat) : Int :=
  let leading : Int := (significand magnitude).log2 + exponent magnitude
  scaleFrom magnitude ((leading * 30103).fdiv 100000) 3

/-- A decimal without a sign: digits, and the power of ten that scales them. -/
abbrev Digits : Type := Nat × Int

/-- The digits of a magnitude itself, all of them. -/
def exactDigits (magnitude : Nat) : Digits :=
  let scale := exponent magnitude
  if 0 ≤ scale then (significand magnitude * Nat.pow 2 scale.toNat, 0)
  else (significand magnitude * Nat.pow 5 (-scale).toNat, scale)

/-- A decimal of `n` digits at a scale, where the power of ten after the last of them has one. -/
def gridPoint (n : Nat) (scale : Int) (digits : Nat) : Digits :=
  if digits = Nat.pow 10 n then (1, scale + n) else (digits, scale)

/-- Whether a decimal reads back as a magnitude. -/
def readsBack (magnitude : Nat) (d : Digits) : Bool := decimalMagnitude d.1 d.2 == magnitude

/-- The nearest of the decimals of `n` digits that read back as a magnitude. -/
def nearestDigits? (magnitude : Nat) (k : Int) (n : Nat) : Option Digits :=
  let scale := k - n
  let num := numerator magnitude * Nat.pow 10 (-scale).toNat
  let den := denominator magnitude * Nat.pow 10 scale.toNat
  let below := gridPoint n scale (num / den)
  let above := gridPoint n scale (num / den + 1)
  match readsBack magnitude below, readsBack magnitude above with
  | true, true => if 2 * (num % den) < den then some below else some above
  | true, false => some below
  | false, true => some above
  | false, false => none

/-- The shortest decimal of a magnitude, with at least `n` digits and at most `tries - 1` more. -/
def shortestFrom (magnitude : Nat) (k : Int) (n : Nat) : Nat → Digits
  | 0 => exactDigits magnitude
  | tries + 1 =>
    match nearestDigits? magnitude k n with
    | some digits => digits
    | none => shortestFrom magnitude k (n + 1) tries

/-- The shortest decimal that reads back as a magnitude. -/
def shortestDigits (magnitude : Nat) : Digits :=
  if magnitude = 0 then (0, 0)
  else shortestFrom magnitude (decimalScale magnitude) 1 maxDigits

/-- A decimal in positional notation. There is a digit before the point, and a point only before
digits. -/
def positional (d : Digits) : List Char :=
  let digits := Numeral.ofNat d.1
  if 0 ≤ d.2 then digits ++ List.replicate d.2.toNat '0'
  else
    let places := (-d.2).toNat
    let padded := List.replicate (places + 1 - digits.length) '0' ++ digits
    let whole := padded.length - places
    padded.take whole ++ '.' :: padded.drop whole

def toText (x : Binary64) : List Char :=
  if x.isNaN then "NaN".toList
  else
    let sign := if x.isNegative then ['-'] else []
    if x.isFinite then sign ++ positional (shortestDigits x.magnitude) else sign ++ "inf".toList

end Descent.Binary64
