import Descent.Json.Basic
import Descent.Json.Depth
import Descent.Binary64.Decimal
import Descent.Lexeme
import Descent.Parser.Completion
import Descent.Parser.Recursion

/-!
# The JSON grammar

JSON texts as a grammar of ordered alternatives: a value is tried as an object, an array, a string,
a number and a keyword in turn. Blanks are skipped before the first value and after every token.
Objects keep the order of their members, and a later duplicate of a key wins.
-/

namespace Descent.Json

open Descent.Parser

/-! ## Tokens -/

def blanks : Parser Unit := (many Lexeme.whitespace).map fun _ => ()

/-- A parser and the blanks after what it reads. -/
def token {α : Type} (p : Parser α) : Parser α := p.thenSkip blanks

def symbol (c : Char) : Parser Char := token (char c)

/-- A word that stands for a value. -/
def keyword (word : String) (value : Json) : Parser Json :=
  (token (literal word)).map fun _ => value

/-! ## Strings -/

/-- Whether a character is a digit in base sixteen, in either case. -/
def isHexDigit (c : Char) : Bool :=
  c.isDigit || ('a' ≤ c && c ≤ 'f') || ('A' ≤ c && c ≤ 'F')

/-- The value of a digit in base sixteen. -/
def hexValue (c : Char) : Nat :=
  if c.isDigit then c.toNat - '0'.toNat
  else if 'a' ≤ c then c.toNat - 'a'.toNat + 10
  else c.toNat - 'A'.toNat + 10

/-- The code that digits in base sixteen denote. -/
def hexCode (digits : List Char) : Nat :=
  digits.foldl (fun code digit => code * 16 + hexValue digit) 0

/-- A 16-bit code, as four digits in base sixteen. -/
def hexQuadCode : Parser Nat := (times 4 (satisfy isHexDigit)).map hexCode

/-- Whether a 16-bit code is the first of a surrogate pair. -/
def isHighSurrogate (code : Nat) : Bool := 0xD800 ≤ code && code < 0xDC00

/-- Whether a 16-bit code is the second of a surrogate pair. -/
def isLowSurrogate (code : Nat) : Bool := 0xDC00 ≤ code && code < 0xE000

/-- The code point of a surrogate pair. -/
def pairCode (high low : Nat) : Nat := 0x10000 + (high - 0xD800) * 0x400 + (low - 0xDC00)

/-- The character that one or two 16-bit codes stand for, if they stand for one. -/
def decodeUnits (high : Nat) (low : Option Nat) : Except String Char :=
  match low with
  | none => ofCode high
  | some low =>
    if isHighSurrogate high then ofCode (pairCode high low)
    else .error "Unpaired surrogate in unicode escape"
where
  ofCode (code : Nat) : Except String Char :=
    if code.isValidChar then .ok (Char.ofNat code) else .error "Invalid unicode escape"

/-- A second code, which has to be a low surrogate. -/
def lowSurrogate : Parser Nat :=
  (literal "\\u").skipThen (hexQuadCode.filterExpecting isLowSurrogate "a low surrogate")

/-- The escape of a character by its code or by a surrogate pair, after the backslash. -/
def unicodeEscape : Parser Char :=
  (((char 'u').skipThen hexQuadCode).both lowSurrogate.optional).convert fun (high, low) =>
    decodeUnits high low

def escape : Parser Char :=
  (char '\\').skipThen (choice [
    char '"',
    char '\\',
    char '/',
    (char 'b').map fun _ => '\x08',
    (char 'f').map fun _ => '\x0c',
    (char 'n').map fun _ => '\n',
    (char 'r').map fun _ => '\r',
    (char 't').map fun _ => '\t',
    unicodeEscape])

/-- Whether a character stands for itself in a string. -/
def isUnescaped (c : Char) : Bool := c != '"' && c != '\\' && ' ' ≤ c

def stringLiteral : Parser String :=
  (bracket (char '"') (many (choice [satisfy isUnescaped, escape])) (char '"')).map String.ofList

/-! ## Numbers -/

/-- Whether a character is a digit other than zero. -/
def isNonzeroDigit (c : Char) : Bool := '1' ≤ c && c ≤ '9'

/-- The digits before the point: a zero, or digits that do not begin with one. -/
def wholeDigits : Parser Text :=
  ((literal "0").map String.toList).orElse
    (((satisfy isNonzeroDigit).both (many Lexeme.digit)).map fun (first, rest) => first :: rest)

/-- A point and digits. -/
def fractionDigits : Parser Text := (char '.').skipThen Lexeme.digits

/-- The mark of an exponent, a sign if there is one, and digits. -/
def exponentDigits : Parser (Option Char × Text) :=
  ((satisfy fun c => c == 'e' || c == 'E').skipThen
    (choice [char '+', char '-']).optional).both Lexeme.digits

/-- The literal of a number, put together from its parts. -/
def numeralText (sign : Option Char) (whole : Text) (fraction : Option Text)
    (exponent : Option (Option Char × Text)) : Text :=
  sign.toList ++ whole ++
    (match fraction with
    | some digits => '.' :: digits
    | none => []) ++
    (match exponent with
    | some (exponentSign, digits) => 'e' :: (exponentSign.toList ++ digits)
    | none => [])

/-- The finite number that a literal denotes. -/
def convertNumber (text : Text) : Except String Binary64 :=
  match Binary64.ofLiteral? text with
  | some x => if x.isFinite then .ok x else .error "Number out of range"
  | none => .error "invalid float literal"

/-- A number: a minus sign if there is one, digits, and a fraction and an exponent if there are any.
A number that is too great for a double is refused. -/
def numeral : Parser Binary64 :=
  ((((char '-').optional.both wholeDigits).both fractionDigits.optional).both
    exponentDigits.optional).convert fun (((sign, whole), fraction), exponent) =>
      convertNumber (numeralText sign whole fraction exponent)

/-! ## Values -/

def arrayOf (value : Parser Json) : Parser Json :=
  (bracket (symbol '[') (value.sepBy (symbol ',')) (symbol ']')).map array

def member (value : Parser Json) : Parser (String × Json) :=
  ((token stringLiteral).thenSkip (symbol ':')).both value

def objectOf (value : Parser Json) : Parser Json :=
  (bracket (symbol '\x7b') ((member value).sepBy (symbol ',')) (symbol '\x7d')).map ofMembers

/-- The name of the rule for values in events. -/
def valueName : String := "json value"

/-- The body of the rule for values, in which the values inside are read by the given parser. -/
def valueBody (value : Parser Json) : Parser Json :=
  traced valueName (choice [
    objectOf value,
    arrayOf value,
    (token stringLiteral).map string,
    (token numeral).map number,
    keyword "true" (bool true),
    keyword "false" (bool false),
    keyword "null" null])

/-- A value and the blanks after it. -/
def value : Parser Json := fix valueBody

/-- A JSON text: a value with blanks around it. More text may follow. -/
def parser : Parser Json := blanks.skipThen (depthLimit.skipThen value)

def parse (input : Text) : Completion Json := parser.parseComplete input

end Descent.Json
