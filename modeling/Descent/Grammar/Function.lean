import Descent.Grammar.Value
import Descent.Lexeme

/-!
# Functions in described grammars

The functions on values and the tests of characters and values that a description of a grammar can
name, and what they mean.
-/

namespace Descent

/-! ## Tests -/

inductive CharTest where
  | oneOf (chars : Text)
  | noneOf (chars : Text)
  /-- Between two characters, both included. -/
  | between (first last : Char)
deriving Inhabited

def CharTest.accepts : CharTest → Char → Bool
  | oneOf chars, c => chars.contains c
  | noneOf chars, c => !chars.contains c
  | between first last, c => first ≤ c && c ≤ last

/-- A test of a value, by its text. -/
inductive ValueTest where
  /-- The text ends with an even digit. -/
  | even
  | nonEmpty
  | always
  | never
  | equals (expected : Text)
deriving Inhabited

def ValueTest.accepts : ValueTest → Value → Bool
  | even, v => v.text.getLast?.any fun c => ['0', '2', '4', '6', '8'].contains c
  | nonEmpty, v => !v.text.isEmpty
  | always, _ => true
  | never, _ => false
  | equals expected, v => v.text == expected

/-! ## Functions -/

inductive Mapping where
  /-- A character or a text with its ASCII letters in upper case. -/
  | upper
  | text
  | length
  /-- A list with the items of those items that are lists themselves. -/
  | flatten
  /-- One more than a number, or than one that is there; otherwise one. -/
  | successor
  /-- The code point of the first character of the text. -/
  | code
  | first
  | second
  | singleton
  | const (value : Value)
deriving Inhabited

namespace Mapping

/-- The values that an item contributes to a flattened list. -/
def splice : Value → List Value
  | .list values => values
  | value => [value]

def apply : Mapping → Value → Value
  | upper, .char c => .char c.toUpper
  | upper, v => .str (String.ofList (v.text.map Char.toUpper))
  | text, v => .str (String.ofList v.text)
  | length, v => .nat (UInt64.ofNat v.length)
  | flatten, .list values => .list (values.flatMap splice)
  | flatten, v => v
  | successor, .nat n => .nat (n + 1)
  | successor, .some (.nat n) => .nat (n + 1)
  | successor, _ => .nat 1
  | code, v => .nat (UInt64.ofNat ((v.text.head?.map Char.toNat).getD 0))
  | first, .pair a _ => a
  | first, v => v
  | second, .pair _ b => b
  | second, v => v
  | singleton, v => .list [v]
  | const value, _ => value

end Mapping

/-- A conversion of the text of a value, which may be refused. -/
inductive Conversion where
  /-- An unsigned integer of so many bits. -/
  | unsigned (bits : Nat)
  /-- A signed integer of so many bits. -/
  | signed (bits : Nat)
  /-- Every value is refused, for the given reason. -/
  | reject (reason : String)
deriving Inhabited

/-- The value of a conversion, or why it is refused. -/
def Conversion.apply : Conversion → Value → Except String Value
  | unsigned bits, v =>
    (Lexeme.convertNumeral (.unsigned bits) v.text).map fun n => .nat (UInt64.ofNat n.toNat)
  | signed bits, v =>
    (Lexeme.convertNumeral (.signed bits) v.text).map fun n => .int (Int64.ofInt n)
  | reject reason, _ => .error reason

/-- The number that a text denotes, or zero if it denotes none of 64 bits. -/
def Value.count (v : Value) : Nat :=
  match Numeral.read (.unsigned 64) v.text with
  | .ok n => n.toNat
  | .error _ => 0

end Descent
