import Descent.Numeral
import Descent.Parser.Sequence
import Descent.Parser.Alternation
import Descent.Parser.Repetition

/-!
# Lexemes

Character classes and small lexemes that most grammars need. All classes hold ASCII characters only.
-/

namespace Descent.Lexeme

open Descent.Parser

/-! ## Character classes -/

def digit : Parser Char := satisfy Char.isDigit

def lower : Parser Char := satisfy Char.isLower

def upper : Parser Char := satisfy Char.isUpper

def letter : Parser Char := satisfy Char.isAlpha

def alphanumeric : Parser Char := satisfy Char.isAlphanum

/-- Whether a character is a space, a tab, a line feed or a carriage return. -/
def isBlank (c : Char) : Bool := c == ' ' || c == '\t' || c == '\n' || c == '\r'

def whitespace : Parser Char := satisfy isBlank

/-! ## Words and numbers -/

/-- A run of letters, which may be empty. -/
def word : Parser String := (many letter).map String.ofList

def digits : Parser Text := many1 digit

/-- Convert a numeral to an integer of a range, or say what is wrong with it. -/
def convertNumeral (range : IntRange) (numeral : Text) : Except String Int :=
  (Numeral.read range numeral).mapError NumeralError.message

def natural : Parser UInt64 :=
  digits.convert fun numeral =>
    (convertNumeral (.unsigned 64) numeral).map fun n => UInt64.ofNat n.toNat

/-- An integer of 64 bits: a natural number, after a minus sign if there is one. -/
def integer : Parser Int64 :=
  ((Parser.char '-').optional.both digits).convert fun (sign, numeral) =>
    (convertNumeral (.signed 64) (sign.toList ++ numeral)).map Int64.ofInt

end Descent.Lexeme
