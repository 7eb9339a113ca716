import Descent.Pattern.Expr
import Descent.Pattern.Nested

/-!
# Tokens of patterns

The first stage of reading a pattern cuts its text into tokens: classes of characters, assertions,
brackets of groups, bars and repetition operators. A text that has no such reading is no pattern,
and why it has none does not matter; so every reader here gives an `Option`.
-/

namespace Descent.Pattern

/-! ## Flags -/

/-- The flags that a pattern can set and clear. -/
inductive Flag where
  | ignoreCase
  | multiLine
  | dotAll
  | swapGreed
  | unicode
deriving DecidableEq, Inhabited

def Flag.ofLetter? : Char → Option Flag
  | 'i' => some ignoreCase
  | 'm' => some multiLine
  | 's' => some dotAll
  | 'U' => some swapGreed
  | 'u' => some unicode
  | _ => none

/-- Flags to set or clear, in order. -/
abbrev FlagChanges : Type := List (Flag × Bool)

/-! ## Tokens -/

inductive Token where
  | char (c : CharClass)
  | bracketed (c : Nested CharClass)
  | dot
  | caret
  | dollar
  | assertion (a : Assertion)
  /-- The start of a group, with its name if it has one and the flags that hold inside. -/
  | groupStart (name : Option (List Char)) (changes : FlagChanges)
  | groupEnd
  /-- Flags for the rest of the group. -/
  | flags (changes : FlagChanges)
  | bar
  | repeats (least : Nat) (most : Option Nat) (isLazy : Bool)
deriving Inhabited

namespace Token

/-! ## Numbers -/

def isSpace (c : Char) : Bool := CharSet.whiteSpace.contains c

/-- Read a decimal number of 32 bits, which may have white space around it. -/
def readDecimal? (t : List Char) : Option (Nat × List Char) :=
  let start := t.dropWhile isSpace
  let digits := start.takeWhile Char.isDigit
  let rest := (start.dropWhile Char.isDigit).dropWhile isSpace
  let value := digits.foldl (fun n c => 10 * n + (c.toNat - '0'.toNat)) 0
  if digits.isEmpty || 0x100000000 ≤ value then none else some (value, rest)

/-- The value of a digit in base sixteen. -/
def hexDigit? (c : Char) : Option Nat :=
  if c.isDigit then some (c.toNat - '0'.toNat)
  else if 'a' ≤ c && c ≤ 'f' then some (c.toNat - 'a'.toNat + 10)
  else if 'A' ≤ c && c ≤ 'F' then some (c.toNat - 'A'.toNat + 10)
  else none

/-- The character at the code point that digits in base sixteen denote. -/
def hexChar? (digits : List Char) : Option Char :=
  if digits.isEmpty then none
  else do
    let values ← digits.mapM hexDigit?
    let code := values.foldl (fun n d => 16 * n + d) 0
    if code.isValidChar then some (Char.ofNat code) else none

/-- Read the code of a character: digits in braces, or exactly `count` digits. -/
def readHex? (count : Nat) (t : List Char) : Option (Char × List Char) :=
  match t with
  | '\x7b' :: rest =>
    let digits := rest.takeWhile (· != '\x7d')
    match rest.dropWhile (· != '\x7d') with
    | [] => none
    | _ :: rest => (hexChar? digits).map fun c => (c, rest)
  | _ =>
    if t.length < count then none
    else (hexChar? (t.take count)).map fun c => (c, t.drop count)

/-! ## Escapes -/

inductive Escape where
  | literal (c : Char)
  | named (c : CharClass)
  | assertion (a : Assertion)
deriving Inhabited

/-- Whether a character stands for itself after a backslash: a mark of ASCII other than the angle
brackets. -/
def isEscapable (c : Char) : Bool := c.toNat < 128 && !c.isAlphanum && c != '<' && c != '>'

/-- The assertion about words that has a name. -/
def wordAssertion? (name : List Char) : Option Assertion :=
  match String.ofList name with
  | "start" => some .wordStart
  | "end" => some .wordEnd
  | "start-half" => some .noWordBefore
  | "end-half" => some .noWordAfter
  | _ => none

/-- Whether a character occurs in names of assertions about words. -/
def isAssertionChar (c : Char) : Bool := c.isAlpha || c == '-'

/-- Read what follows the escape of a word boundary: a name in braces, if one begins there. -/
def readWordAssertion? (t : List Char) : Option (Assertion × List Char) :=
  match t with
  | '\x7b' :: rest =>
    match rest with
    | [] => none
    | c :: _ =>
      if isAssertionChar c then
        match rest.dropWhile isAssertionChar with
        | '\x7d' :: after =>
          (wordAssertion? (rest.takeWhile isAssertionChar)).map fun a => (a, after)
        | _ => none
      else some (.wordBoundary, t)
  | _ => some (.wordBoundary, t)

def readEscape? : List Char → Option (Escape × List Char)
  | [] => none
  | c :: rest =>
    match c with
    | 'x' => (readHex? 2 rest).map fun (c, rest) => (.literal c, rest)
    | 'u' => (readHex? 4 rest).map fun (c, rest) => (.literal c, rest)
    | 'U' => (readHex? 8 rest).map fun (c, rest) => (.literal c, rest)
    | 'a' => some (.literal '\x07', rest)
    | 'f' => some (.literal '\x0c', rest)
    | 't' => some (.literal '\t', rest)
    | 'n' => some (.literal '\n', rest)
    | 'r' => some (.literal '\r', rest)
    | 'v' => some (.literal '\x0b', rest)
    | 'A' => some (.assertion .textStart, rest)
    | 'z' => some (.assertion .textEnd, rest)
    | 'b' => (readWordAssertion? rest).map fun (a, rest) => (.assertion a, rest)
    | 'B' => some (.assertion .notWordBoundary, rest)
    | '<' => some (.assertion .wordStart, rest)
    | '>' => some (.assertion .wordEnd, rest)
    | c =>
      match CharClass.ofLetter? c with
      | some d => some (.named d, rest)
      | none => if isEscapable c then some (.literal c, rest) else none

/-! ## Classes in brackets -/

/-- The operations on classes that have operators. -/
inductive ClassOp where
  | intersection
  | difference
  | symmetricDifference
deriving DecidableEq, Inhabited

/-- The class that an operation yields. -/
def ClassOp.apply : ClassOp → CharClass → CharClass → CharClass
  | intersection => .intersection
  | difference => .difference
  | symmetricDifference => .symmetricDifference

/-- A class in brackets that has not been closed: its items since the last operator, latest first,
and the operation that waits for them. -/
structure OpenClass where
  negated : Bool
  pending : Option (Nested CharClass × ClassOp) := none
  items : List (Nested CharClass) := []
deriving Inhabited

namespace OpenClass

def add (s : OpenClass) (item : Nested CharClass) : OpenClass :=
  { s with items := item :: s.items }

/-- Add an item that is no class in brackets. -/
def addLeaf (s : OpenClass) (item : CharClass) : OpenClass := s.add (.leaf item)

/-- The items so far, with the operation that waits for them. Several items nest in their union, and
both operands in the operation. -/
def operand (s : OpenClass) : Nested CharClass :=
  let items := .join .unions s.items
  match s.pending with
  | none => items
  | some (left, op) => ⟨op.apply left.part items.part, Nested.depthOf [left, items]⟩

/-- Start the right operand of an operator. -/
def operator (s : OpenClass) (op : ClassOp) : OpenClass :=
  { s with pending := some (s.operand, op), items := [] }

/-- The class when its bracket is closed. -/
def close (s : OpenClass) : Nested CharClass :=
  let content := s.operand
  content.wrap (if s.negated then .complement content.part else content.part)

end OpenClass

/-- Read the beginning of a class after its bracket: a caret, hyphens that stand for themselves, or
a closing bracket that does. -/
def openClass (t : List Char) : OpenClass × List Char :=
  let (negated, rest) := match t with
    | '^' :: rest => (true, rest)
    | rest => (false, rest)
  let opened : OpenClass := { negated }
  match rest with
  | ']' :: rest => (opened.addLeaf (.single ']'), rest)
  | rest =>
    ((rest.takeWhile (· == '-')).foldl (fun opened c => opened.addLeaf (.single c)) opened,
      rest.dropWhile (· == '-'))

/-- Read a named class of ASCII characters after its first bracket. -/
def readNamedClass? : List Char → Option (CharClass × List Char)
  | ':' :: rest =>
    let (negated, rest) := match rest with
      | '^' :: rest => (true, rest)
      | rest => (false, rest)
    match rest.dropWhile (· != ':') with
    | ':' :: ']' :: after =>
      (CharClass.ofName? (String.ofList (rest.takeWhile (· != ':')))).map fun c =>
        (if negated then .complement c else c, after)
    | _ => none
  | _ => none

/-- Read one item of a class: a character, or a named class. -/
def readClassItem? : List Char → Option (Escape × List Char)
  | [] => none
  | '\\' :: rest => readEscape? rest
  | c :: rest => some (.literal c, rest)

/-- Read an item of a class, or a range between two characters. -/
def readClassRange? (t : List Char) : Option (CharClass × List Char) := do
  let (first, rest) ← readClassItem? t
  let isRange := match rest with
    | '-' :: ']' :: _ => false
    | '-' :: '-' :: _ => false
    | '-' :: _ => true
    | _ => false
  if isRange then
    let (last, rest) ← readClassItem? (rest.drop 1)
    match first, last with
    | .literal a, .literal b =>
      if a ≤ b then some (.range a.toNat b.toNat, rest) else none
    | _, _ => none
  else
    match first with
    | .literal c => some (.single c, rest)
    | .named c => some (c, rest)
    | .assertion _ => none

/-- Read the rest of a class in brackets, inside the open classes around it. -/
def readClassFrom? (opened : OpenClass) (outer : List OpenClass) (t : List Char) :
    Nat → Option (Nested CharClass × List Char)
  | 0 => none
  | steps + 1 =>
    match t with
    | [] => none
    | '[' :: rest =>
      match readNamedClass? rest with
      | some (c, rest) => readClassFrom? (opened.addLeaf c) outer rest steps
      | none =>
        let (inner, rest) := openClass rest
        readClassFrom? inner (opened :: outer) rest steps
    | ']' :: rest =>
      match outer with
      | [] => some (opened.close, rest)
      | around :: outer => readClassFrom? (around.add opened.close) outer rest steps
    | '&' :: '&' :: rest => readClassFrom? (opened.operator .intersection) outer rest steps
    | '-' :: '-' :: rest => readClassFrom? (opened.operator .difference) outer rest steps
    | '~' :: '~' :: rest => readClassFrom? (opened.operator .symmetricDifference) outer rest steps
    | t =>
      match readClassRange? t with
      | some (c, rest) => readClassFrom? (opened.addLeaf c) outer rest steps
      | none => none

/-- Read a class in brackets after its first bracket. -/
def readClass? (t : List Char) : Option (Nested CharClass × List Char) :=
  let (opened, rest) := openClass t
  readClassFrom? opened [] rest (rest.length + 1)

/-! ## Groups -/

/-- Whether a character may start the name of a group: a low line, or an alphabetic character. -/
def isNameStart (c : Char) : Bool := c == '_' || CharSet.alphabetic.contains c

/-- Whether a character may occur in the name of a group: one that may start it, a number, a full
stop or a square bracket. -/
def isNameChar (c : Char) : Bool :=
  isNameStart c || CharSet.numeric.contains c || c == '.' || c == '[' || c == ']'

/-- Read the name of a group and the angle bracket after it. -/
def readGroupName? (t : List Char) : Option (List Char × List Char) :=
  let name := t.takeWhile isNameChar
  match name, t.dropWhile isNameChar with
  | first :: _, '>' :: rest => if isNameStart first then some (name, rest) else none
  | _, _ => none

/-- The changes that letters of flags ask for. A hyphen turns the flags after it off; there is at
most one, with a letter after it, and no letter is given twice. -/
def flagChanges? (value : Bool) (seen : FlagChanges) : List Char → Option FlagChanges
  | [] => some seen.reverse
  | '-' :: rest => if value && !rest.isEmpty then flagChanges? false seen rest else none
  | c :: rest =>
    match Flag.ofLetter? c with
    | none => none
    | some flag =>
      if seen.any (·.1 == flag) || (flag == .unicode && !value) then none
      else flagChanges? value ((flag, value) :: seen) rest

/-- Read flags after a question mark, for a group or for the rest of one. -/
def readFlags? (t : List Char) : Option (Token × List Char) := do
  let isLetter := fun c => c != ':' && c != ')'
  let changes ← flagChanges? true [] (t.takeWhile isLetter)
  match t.dropWhile isLetter with
  | ':' :: rest => some (.groupStart none changes, rest)
  | ')' :: rest => if changes.isEmpty then none else some (.flags changes, rest)
  | _ => none

/-- Read the start of a group after its bracket. Groups that look around are not supported. -/
def readGroup? : List Char → Option (Token × List Char)
  | '?' :: '=' :: _ => none
  | '?' :: '!' :: _ => none
  | '?' :: '<' :: '=' :: _ => none
  | '?' :: '<' :: '!' :: _ => none
  | '?' :: 'P' :: '<' :: rest =>
    (readGroupName? rest).map fun (name, rest) => (.groupStart (some name) [], rest)
  | '?' :: '<' :: rest =>
    (readGroupName? rest).map fun (name, rest) => (.groupStart (some name) [], rest)
  | '?' :: rest => readFlags? rest
  | rest => some (.groupStart none [], rest)

/-! ## Repetitions -/

/-- A repetition operator, lazy if a question mark follows. -/
def repetition (least : Nat) (most : Option Nat) (rest : List Char) : Token × List Char :=
  match rest with
  | '?' :: rest => (.repeats least most true, rest)
  | rest => (.repeats least most false, rest)

/-- Read a counted repetition after its brace. -/
def readCounted? (t : List Char) : Option (Token × List Char) := do
  let (least, rest) ← readDecimal? t
  match rest with
  | '\x7d' :: rest => some (repetition least (some least) rest)
  | ',' :: '\x7d' :: rest => some (repetition least none rest)
  | ',' :: rest =>
    let (most, rest) ← readDecimal? rest
    match rest with
    | '\x7d' :: rest => if least ≤ most then some (repetition least (some most) rest) else none
    | _ => none
  | _ => none

/-! ## The whole text -/

/-- Read the token at the beginning of a text. -/
def read? (c : Char) (rest : List Char) : Option (Token × List Char) :=
  match c with
  | '(' => readGroup? rest
  | ')' => some (.groupEnd, rest)
  | '|' => some (.bar, rest)
  | '[' => (readClass? rest).map fun (c, rest) => (.bracketed c, rest)
  | '?' => some (repetition 0 (some 1) rest)
  | '*' => some (repetition 0 none rest)
  | '+' => some (repetition 1 none rest)
  | '\x7b' => readCounted? rest
  | '.' => some (.dot, rest)
  | '^' => some (.caret, rest)
  | '$' => some (.dollar, rest)
  | '\\' =>
    (readEscape? rest).map fun (escape, rest) =>
      match escape with
      | .literal c => (.char (.single c), rest)
      | .named c => (.char c, rest)
      | .assertion a => (.assertion a, rest)
  | c => some (.char (.single c), rest)

/-- The tokens of a text, in so many steps and after those read already, latest first. -/
def readAllFrom? (tokens : List Token) (t : List Char) : Nat → Option (List Token)
  | 0 => none
  | steps + 1 =>
    match t with
    | [] => some tokens.reverse
    | c :: rest =>
      match read? c rest with
      | none => none
      | some (token, rest) => readAllFrom? (token :: tokens) rest steps

def readAll? (t : List Char) : Option (List Token) := readAllFrom? [] t (t.length + 1)

end Token
end Descent.Pattern
