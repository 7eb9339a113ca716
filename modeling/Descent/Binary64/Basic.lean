/-!
# Double-precision numbers

A double is its 64 bits: a sign, eleven bits of exponent and fifty-two of fraction. The bits without
the sign are the *magnitude*. Magnitudes are ordered as the numbers they stand for, the infinite one
is the greatest that is a number, and those above it are not numbers.

A finite double has the absolute value `significand * 2 ^ exponent`.
-/

namespace Descent

/-- A double-precision number, as its bits. -/
structure Binary64 where
  bits : UInt64
deriving DecidableEq, Inhabited

namespace Binary64

/-- The lowest bit above the fraction. -/
def unitBit : Nat := 0x10000000000000

def signBit : Nat := 0x8000000000000000

def infiniteMagnitude : Nat := 2047 * unitBit

/-- The double with a sign and a magnitude. -/
def ofMagnitude (negative : Bool) (magnitude : Nat) : Binary64 :=
  ⟨UInt64.ofNat ((if negative then signBit else 0) + magnitude)⟩

def isNegative (x : Binary64) : Bool := signBit ≤ x.bits.toNat

/-- The bits without the sign. -/
def magnitude (x : Binary64) : Nat := x.bits.toNat % signBit

/-- Whether the value is not a number. -/
def isNaN (x : Binary64) : Bool := infiniteMagnitude < x.magnitude

/-- Whether the value is a number and not infinite. -/
def isFinite (x : Binary64) : Bool := x.magnitude < infiniteMagnitude

/-- The significand of a magnitude: the fraction, and above it a bit that is zero only in the least
binade. -/
def significand (magnitude : Nat) : Nat :=
  if magnitude < unitBit then magnitude else unitBit + magnitude % unitBit

/-- The exponent of a magnitude, by which its significand is scaled. -/
def exponent (magnitude : Nat) : Int :=
  if magnitude < unitBit then -1074 else (magnitude / unitBit : Nat) - 1075

/-- Equality of doubles as numbers: the two zeros are equal, and what is not a number equals
nothing. -/
protected def beq (x y : Binary64) : Bool :=
  !x.isNaN && !y.isNaN && (x.bits == y.bits || (x.magnitude == 0 && y.magnitude == 0))

instance : BEq Binary64 := ⟨Binary64.beq⟩

end Binary64
end Descent
