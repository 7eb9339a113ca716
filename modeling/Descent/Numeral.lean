/-!
# Decimal numerals of bounded integers

Reading a decimal numeral into a range of integers. The digits are taken from left to right, and
the first problem that is met is the one reported: a character that is no digit, or a value that has
left the range.
-/

namespace Descent

/-- A range of integers, from `least` to `greatest`. -/
structure IntRange where
  least : Int
  greatest : Int
deriving DecidableEq, Inhabited

namespace IntRange

/-- The unsigned integers of so many bits. -/
def unsigned (bits : Nat) : IntRange := ⟨0, Int.ofNat (Nat.pow 2 bits) - 1⟩

/-- The signed integers of so many bits. -/
def signed (bits : Nat) : IntRange :=
  let half := Int.ofNat (Nat.pow 2 (bits - 1))
  ⟨-half, half - 1⟩

end IntRange

/-- Why a text is not the numeral of an integer in a range. -/
inductive NumeralError where
  | empty
  | invalidDigit
  | tooLarge
  | tooSmall
deriving DecidableEq, Inhabited

def NumeralError.message : NumeralError → String
  | empty => "cannot parse integer from empty string"
  | invalidDigit => "invalid digit found in string"
  | tooLarge => "number too large to fit in target type"
  | tooSmall => "number too small to fit in target type"

namespace Numeral

def digitValue (c : Char) : Nat := c.toNat - '0'.toNat

/-- The number that a run of digits denotes, after digits that denote `value`. -/
def natFrom (value : Nat) : List Char → Nat
  | [] => value
  | c :: rest => natFrom (10 * value + digitValue c) rest

/-- The number that a run of digits denotes. -/
def nat (digits : List Char) : Nat := natFrom 0 digits

/-- Read the rest of the digits of a number that must not exceed `limit`. -/
def readMagnitude (limit : Nat) (overflow : NumeralError) (value : Nat) :
    List Char → Except NumeralError Nat
  | [] => .ok value
  | c :: rest =>
    if c.isDigit then
      let value := 10 * value + digitValue c
      if limit < value then .error overflow else readMagnitude limit overflow value rest
    else .error .invalidDigit

/-- Read the digits of a non-negative number in a range. At least one is needed. -/
def readPositive (range : IntRange) (digits : List Char) : Except NumeralError Int :=
  match digits with
  | [] => .error .invalidDigit
  | _ => (readMagnitude range.greatest.toNat .tooLarge 0 digits).map Int.ofNat

/-- Read the digits of a number in a range, after its minus sign. At least one is needed. -/
def readNegative (range : IntRange) (digits : List Char) : Except NumeralError Int :=
  match digits with
  | [] => .error .invalidDigit
  | _ => (readMagnitude (-range.least).toNat .tooSmall 0 digits).map fun n => -Int.ofNat n

/-- Read the numeral of an integer in a range: digits, after a sign if there is one. A minus sign is
allowed only in a range that has negative members. -/
def read (range : IntRange) : List Char → Except NumeralError Int
  | [] => .error .empty
  | '+' :: digits => readPositive range digits
  | '-' :: digits =>
    if range.least < 0 then readNegative range digits else .error .invalidDigit
  | digits => readPositive range digits

/-- The decimal numeral of a natural number. -/
def ofNat (n : Nat) : List Char := Nat.toDigits 10 n

end Numeral
end Descent
