import Descent.Text.Printable
import Descent.Text.Snippet

/-!
# Values as diagnostics show them

`Inspect` gives values a form in which they can be recognised in a diagnostic. Characters and
strings are quoted: what is not printable, the quotation mark itself and the backslash are written
as escapes, so that different values have different forms.
-/

namespace Descent

class Inspect (α : Type) where
  /-- The form of a value in a diagnostic. -/
  inspect : α → String

export Inspect (inspect)

namespace Text

/-- The digits of a number in base sixteen, with letters in lower case. -/
def hexDigits (n : Nat) : List Char := Nat.toDigits 16 n

/-- The form of one character between quotation marks of the given kind. -/
def escape (mark c : Char) : List Char :=
  match c with
  | '\x00' => ['\\', '0']
  | '\t' => ['\\', 't']
  | '\r' => ['\\', 'r']
  | '\n' => ['\\', 'n']
  | '\\' => ['\\', '\\']
  | c =>
    if c == mark then ['\\', c]
    else if CharSet.unprintable.contains c then
      ['\\', 'u', '\x7b'] ++ hexDigits c.toNat ++ ['\x7d']
    else [c]

/-- Text between quotation marks of the given kind. -/
def quote (mark : Char) (t : Text) : String :=
  String.ofList (mark :: (t.flatMap (escape mark) ++ [mark]))

/-- The forms of the members of a list, between square brackets. -/
def bracketed (forms : List String) : String := "[" ++ ", ".intercalate forms ++ "]"

end Text

instance : Inspect Char := ⟨fun c => Text.quote '\'' [c]⟩

instance : Inspect String := ⟨fun s => Text.quote '"' s.toList⟩

instance : Inspect Nat := ⟨fun n => toString n⟩

instance {α : Type} [Inspect α] : Inspect (List α) :=
  ⟨fun values => Text.bracketed (values.map inspect)⟩

end Descent
