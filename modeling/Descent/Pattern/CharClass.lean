import Descent.Text.CaseFolding
import Descent.Text.Classes

/-!
# Character classes of patterns

A class is built from ranges and properties by the operations on sets. Where case is ignored, a
range has as members also all variants of its members; the properties have the variants of their
members anyway.
-/

namespace Descent.Pattern

inductive CharClass where
  | empty
  /-- The characters with code points from `first` to `last`. -/
  | range (first last : Nat)
  | property (members : CharSet)
  /-- The characters that are not in a class. -/
  | complement (c : CharClass)
  | union (c d : CharClass)
  | intersection (c d : CharClass)
  | difference (c d : CharClass)
  | symmetricDifference (c d : CharClass)
deriving Inhabited

namespace CharClass

def single (c : Char) : CharClass := range c.toNat c.toNat

def unions (classes : List CharClass) : CharClass := classes.foldr union empty

/-- The class of all characters but one. -/
def anyBut (c : Char) : CharClass := complement (single c)

def any : CharClass := complement empty

/-- Whether a character is in a class. -/
def contains (ignoreCase : Bool) : CharClass → Char → Bool
  | empty, _ => false
  | range first last, c =>
    if ignoreCase then
      (CaseFolding.variants c.toNat).any fun code => first ≤ code && code ≤ last
    else first ≤ c.toNat && c.toNat ≤ last
  | property members, c => members.contains c
  | complement d, c => !d.contains ignoreCase c
  | union d e, c => d.contains ignoreCase c || e.contains ignoreCase c
  | intersection d e, c => d.contains ignoreCase c && e.contains ignoreCase c
  | difference d e, c => d.contains ignoreCase c && !e.contains ignoreCase c
  | symmetricDifference d e, c => d.contains ignoreCase c != e.contains ignoreCase c

/-! ## Room -/

/-- The room that a class takes at least, in bytes, in an automaton over the bytes of UTF-8. A state
takes 32 bytes and a way out of it 8: a single character needs a state for each of its bytes, all
characters but one need at least 416 bytes, and a property needs a way for every change of
membership. -/
def size : CharClass → Nat
  | range first last => if first = last then 32 * (Char.ofNat first).utf8Size else 64
  | property members => 64 + 8 * members.boundaries.length
  | complement empty => 416
  | complement (range first last) => if first = last then 416 else 64
  | complement (property members) => 64 + 8 * members.boundaries.length
  | _ => 64

/-! ## Named classes -/

/-- The ranges between two characters each. -/
def ranges (bounds : List (Char × Char)) : CharClass :=
  unions (bounds.map fun (first, last) => range first.toNat last.toNat)

/-- The class of ASCII characters with a name. -/
def ofName? (name : String) : Option CharClass :=
  match name with
  | "alnum" => some (ranges [('0', '9'), ('A', 'Z'), ('a', 'z')])
  | "alpha" => some (ranges [('A', 'Z'), ('a', 'z')])
  | "ascii" => some (ranges [('\x00', '\x7f')])
  | "blank" => some (ranges [('\t', '\t'), (' ', ' ')])
  | "cntrl" => some (ranges [('\x00', '\x1f'), ('\x7f', '\x7f')])
  | "digit" => some (ranges [('0', '9')])
  | "graph" => some (ranges [('!', '~')])
  | "lower" => some (ranges [('a', 'z')])
  | "print" => some (ranges [(' ', '~')])
  | "punct" => some (ranges [('!', '/'), (':', '@'), ('[', '\x60'), ('\x7b', '~')])
  | "space" => some (ranges [('\t', '\r'), (' ', ' ')])
  | "upper" => some (ranges [('A', 'Z')])
  | "word" => some (ranges [('0', '9'), ('A', 'Z'), ('_', '_'), ('a', 'z')])
  | "xdigit" => some (ranges [('0', '9'), ('A', 'F'), ('a', 'f')])
  | _ => none

/-- The class that a letter after a backslash names. A capital names the complement. -/
def ofLetter? (letter : Char) : Option CharClass :=
  match letter with
  | 'd' => some (property .decimalDigit)
  | 'D' => some (complement (property .decimalDigit))
  | 's' => some (property .whiteSpace)
  | 'S' => some (complement (property .whiteSpace))
  | 'w' => some (property .wordChar)
  | 'W' => some (complement (property .wordChar))
  | _ => none

end CharClass
end Descent.Pattern
