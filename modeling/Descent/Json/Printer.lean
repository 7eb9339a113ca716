import Descent.Json.Basic
import Descent.Binary64.Shortest

/-!
# Writing JSON

The compact text of a JSON value: no blanks, numbers in positional notation, and in strings only
the escapes that are needed. A number that is not finite is written as its name, which is no JSON.
-/

namespace Descent.Json

/-- The four digits, in base sixteen, of a 16-bit code. -/
def hexQuad (code : Nat) : List Char :=
  let digits := Nat.toDigits 16 code
  List.replicate (4 - digits.length) '0' ++ digits

/-- A character as it is written in a string. -/
def writeChar (c : Char) : List Char :=
  match c with
  | '"' => ['\\', '"']
  | '\\' => ['\\', '\\']
  | '\n' => ['\\', 'n']
  | '\r' => ['\\', 'r']
  | '\t' => ['\\', 't']
  | c => if c.toNat < 0x20 then '\\' :: 'u' :: hexQuad c.toNat else [c]

def writeString (s : String) : List Char := '"' :: (s.toList.flatMap writeChar ++ ['"'])

mutual

/-- The compact text of a value, as its characters. -/
def write : Json → List Char
  | null => "null".toList
  | bool true => "true".toList
  | bool false => "false".toList
  | number x => x.toText
  | string s => writeString s
  | array items => '[' :: (writeItems items ++ [']'])
  | object members => '\x7b' :: (writeMembers members ++ ['\x7d'])

/-- The items of an array, with commas between them. -/
def writeItems : List Json → List Char
  | [] => []
  | item :: [] => write item
  | item :: rest => write item ++ ',' :: writeItems rest

/-- The members of an object, with commas between them. -/
def writeMembers : List (String × Json) → List Char
  | [] => []
  | (key, value) :: [] => writeString key ++ ':' :: write value
  | (key, value) :: rest => writeString key ++ ':' :: (write value ++ ',' :: writeMembers rest)

end

/-- The compact text of a value. -/
def render (v : Json) : String := String.ofList v.write

end Descent.Json
