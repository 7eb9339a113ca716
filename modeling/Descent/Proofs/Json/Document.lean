import Descent.Binary64.Decimal
import Descent.Json.Basic
import Descent.Proofs.Numeral

/-!
# JSON texts

What a JSON text is, apart from any parser of it. A `Document` is a derivation of the JSON grammar,
with every blank and every digit of its text; `text` flattens it, so the texts of the grammar are
the flattened documents with blanks around them.

Three things are read off a document: its `depth`, the nesting of arrays and objects, and the value
it `Denotes`, if it denotes one. It denotes none when a number in it is too great for a double or an
escape in it is half of a surrogate pair, for which the grammar has no objection.
-/

namespace Descent

/-! ## UTF-16 -/

namespace Utf16

/-- The code units of a character: its code, or a surrogate pair for a code above 16 bits. -/
def ofChar (c : Char) : List Nat :=
  if c.toNat < 0x10000 then [c.toNat]
  else [0xD800 + (c.toNat - 0x10000) / 0x400, 0xDC00 + (c.toNat - 0x10000) % 0x400]

/-- The code units of a text. -/
def encode (t : Text) : List Nat := t.flatMap ofChar

@[simp] theorem encode_nil : encode [] = [] := rfl

@[simp] theorem encode_cons (c : Char) (t : Text) : encode (c :: t) = ofChar c ++ encode t := rfl

end Utf16

namespace Json

open Numeral (IsDigits IsCanonical)

/-! ## Tokens -/

/-- Spaces, tabs, line feeds and carriage returns, in any number. -/
abbrev Gap : Type := { t : Text // ∀ c ∈ t, c = ' ' ∨ c = '\t' ∨ c = '\n' ∨ c = '\r' }

/-- The literal of a number, in its parts. -/
structure NumberLiteral where
  minus : Bool
  whole : Text
  fraction : Option Text
  /-- The mark, a sign if there is one, and the digits. -/
  exponent : Option (Char × Option Char × Text)
  whole_ok : IsCanonical whole
  fraction_ok : ∀ digits ∈ fraction, IsDigits digits
  exponent_ok : ∀ e ∈ exponent,
    (e.1 = 'e' ∨ e.1 = 'E') ∧ (∀ sign ∈ e.2.1, sign = '+' ∨ sign = '-') ∧ IsDigits e.2.2

namespace NumberLiteral

/-- The fraction of a literal with its point. -/
def fractionText : Option Text → Text
  | none => []
  | some digits => '.' :: digits

/-- The exponent of a literal with its mark. -/
def exponentText : Option (Char × Option Char × Text) → Text
  | none => []
  | some (mark, sign, digits) => mark :: (sign.toList ++ digits)

/-- The text of a literal. -/
def text (l : NumberLiteral) : Text :=
  (if l.minus then ['-'] else []) ++ l.whole ++ fractionText l.fraction ++ exponentText l.exponent

end NumberLiteral

/-- The digits of base sixteen with their values. -/
def hexDigits : List (Char × Nat) :=
  [('0', 0), ('1', 1), ('2', 2), ('3', 3), ('4', 4), ('5', 5), ('6', 6), ('7', 7), ('8', 8),
    ('9', 9), ('a', 10), ('b', 11), ('c', 12), ('d', 13), ('e', 14), ('f', 15), ('A', 10),
    ('B', 11), ('C', 12), ('D', 13), ('E', 14), ('F', 15)]

/-- Four digits of base sixteen with their values. -/
abbrev HexQuad : Type := { t : List (Char × Nat) // t.length = 4 ∧ ∀ d ∈ t, d ∈ hexDigits }

namespace HexQuad

/-- The digits as they are written. -/
def text (t : HexQuad) : Text := t.1.map Prod.fst

/-- The number that the digits denote. -/
def code (t : HexQuad) : Nat := t.1.foldl (fun code d => 16 * code + d.2) 0

end HexQuad

/-- The escapes by one character, and what they stand for. -/
def shortEscapes : List (Char × Char) :=
  [('"', '"'), ('\\', '\\'), ('/', '/'), ('b', '\x08'), ('f', '\x0c'), ('n', '\n'), ('r', '\r'),
    ('t', '\t')]

/-- One character between the quotation marks of a string, as it is written. -/
inductive Piece where
  /-- A character that stands for itself. -/
  | plain (c : Char) (h : ' ' ≤ c ∧ c ≠ '"' ∧ c ≠ '\\')
  /-- An escape by one character. -/
  | short (mark c : Char) (h : (mark, c) ∈ shortEscapes)
  /-- The escape of a code unit. -/
  | unit (digits : HexQuad)

namespace Piece

/-- A piece as it is written. -/
def text : Piece → Text
  | plain c _ => [c]
  | short mark _ _ => ['\\', mark]
  | unit digits => '\\' :: 'u' :: digits.text

/-- The code units that a piece stands for. -/
def units : Piece → List Nat
  | plain c _ => Utf16.ofChar c
  | short _ c _ => Utf16.ofChar c
  | unit digits => [digits.code]

end Piece

/-- What is written between the quotation marks of a string. -/
def piecesText (ps : List Piece) : Text := ps.flatMap Piece.text

/-- The code units that a string stands for. -/
def piecesUnits (ps : List Piece) : List Nat := ps.flatMap Piece.units

/-! ## Documents -/

mutual

/-- A value as it is written, without blanks around it. -/
inductive Document where
  | null
  | bool (value : Bool)
  | number (literal : NumberLiteral)
  | string (pieces : List Piece)
  | emptyArray (gap : Gap)
  | array (elements : Elements)
  | emptyObject (gap : Gap)
  | object (members : Members)

/-- The values of an array, each with blanks around it. -/
inductive Elements where
  | last (before : Gap) (value : Document) (after : Gap)
  | more (before : Gap) (value : Document) (after : Gap) (rest : Elements)

/-- The members of an object: each a key and a value, both with blanks around them. -/
inductive Members where
  | last (beforeKey : Gap) (key : List Piece) (afterKey before : Gap) (value : Document)
      (after : Gap)
  | more (beforeKey : Gap) (key : List Piece) (afterKey before : Gap) (value : Document)
      (after : Gap) (rest : Members)

end

/-- A string as it is written. -/
def quoted (ps : List Piece) : Text := '"' :: (piecesText ps ++ ['"'])

mutual

/-- The text of a value. -/
@[simp]
def Document.text : Document → Text
  | .null => "null".toList
  | .bool true => "true".toList
  | .bool false => "false".toList
  | .number literal => literal.text
  | .string pieces => quoted pieces
  | .emptyArray gap => '[' :: (gap.1 ++ [']'])
  | .array elements => '[' :: (elements.text ++ [']'])
  | .emptyObject gap => '\x7b' :: (gap.1 ++ ['\x7d'])
  | .object members => '\x7b' :: (members.text ++ ['\x7d'])

/-- The text between the brackets of an array. -/
@[simp]
def Elements.text : Elements → Text
  | .last before value after => before.1 ++ value.text ++ after.1
  | .more before value after rest => before.1 ++ value.text ++ after.1 ++ ',' :: rest.text

/-- The text between the braces of an object. -/
@[simp]
def Members.text : Members → Text
  | .last beforeKey key afterKey before value after =>
    beforeKey.1 ++ quoted key ++ afterKey.1 ++ ':' :: (before.1 ++ value.text ++ after.1)
  | .more beforeKey key afterKey before value after rest =>
    beforeKey.1 ++ quoted key ++ afterKey.1 ++ ':' :: (before.1 ++ value.text ++ after.1) ++
      ',' :: rest.text

end

/-- The text is that of a document, with blanks around it. -/
def Spells (s : Text) (d : Document) : Prop :=
  ∃ before after : Gap, s = before.1 ++ d.text ++ after.1

/-! ## Depth -/

mutual

/-- How deep arrays and objects nest in a value. -/
@[simp]
def Document.depth : Document → Nat
  | .null | .bool _ | .number _ | .string _ => 0
  | .emptyArray _ | .emptyObject _ => 1
  | .array elements => elements.depth + 1
  | .object members => members.depth + 1

/-- How deep the values of an array nest. -/
@[simp]
def Elements.depth : Elements → Nat
  | .last _ value _ => value.depth
  | .more _ value _ rest => max value.depth rest.depth

/-- How deep the values of an object nest. -/
@[simp]
def Members.depth : Members → Nat
  | .last _ _ _ _ value _ => value.depth
  | .more _ _ _ _ value _ rest => max value.depth rest.depth

end

/-! ## Values -/

/-- The members of which no later one has the same key. -/
def keepLast : List (String × Json) → List (String × Json)
  | [] => []
  | (key, v) :: rest => if key ∈ rest.map Prod.fst then keepLast rest else (key, v) :: keepLast rest

/-- The string whose code units the pieces stand for. -/
def DenotesString (ps : List Piece) (s : String) : Prop := piecesUnits ps = Utf16.encode s.toList

mutual

/-- The value that a document denotes: a number is the double nearest to its literal, and has to be
finite, and of members with the same key the last one counts. -/
@[simp]
def Document.Denotes : Document → Json → Prop
  | .null, v => v = .null
  | .bool value, v => v = .bool value
  | .number literal, v =>
    ∃ x, Binary64.ofLiteral? literal.text = some x ∧ x.isFinite = true ∧ v = .number x
  | .string pieces, v => ∃ s, DenotesString pieces s ∧ v = .string s
  | .emptyArray _, v => v = .array []
  | .array elements, v => ∃ vs, elements.Denotes vs ∧ v = .array vs
  | .emptyObject _, v => v = .object []
  | .object members, v => ∃ ms, members.Denotes ms ∧ v = .object (keepLast ms)

/-- The values that the values of an array denote. -/
@[simp]
def Elements.Denotes : Elements → List Json → Prop
  | .last _ value _, vs => ∃ v, value.Denotes v ∧ vs = [v]
  | .more _ value _ rest, vs => ∃ v ws, value.Denotes v ∧ rest.Denotes ws ∧ vs = v :: ws

/-- The keys and values that the members of an object denote. -/
@[simp]
def Members.Denotes : Members → List (String × Json) → Prop
  | .last _ key _ _ value _, ms => ∃ k v, DenotesString key k ∧ value.Denotes v ∧ ms = [(k, v)]
  | .more _ key _ _ value _ rest, ms =>
    ∃ k v ns, DenotesString key k ∧ value.Denotes v ∧ rest.Denotes ns ∧ ms = (k, v) :: ns

end

end Json
end Descent
