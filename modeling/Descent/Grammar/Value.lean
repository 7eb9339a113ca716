import Descent.Json.Printer
import Descent.Semver.Basic
import Descent.Text.Inspect

/-!
# Values of described grammars

The values that parsers of described grammars yield, and two readings of them: the *text* of a
value, which is what it was read from as far as the value keeps it, and the form in which
diagnostics show it.
-/

namespace Descent

inductive Value where
  | unit
  | char (c : Char)
  | str (s : String)
  | nat (n : UInt64)
  | int (i : Int64)
  | list (values : List Value)
  | pair (first second : Value)
  | none
  | some (value : Value)
  | json (value : Json)
  | version (value : Version)
deriving Inhabited

namespace Value

/-! ## Text -/

mutual

/-- The text of a value before other text, all of it reversed. -/
def textOnto : Value → Text → Text
  | unit, before => before
  | char c, before => c :: before
  | str s, before => s.toList.reverseAux before
  | nat n, before => (Numeral.ofNat n.toNat).reverseAux before
  | int i, before => (toString i).toList.reverseAux before
  | list values, before => textsOnto values before
  | pair first second, before => textOnto second (textOnto first before)
  | none, before => before
  | some value, before => textOnto value before
  | json value, before => value.write.reverseAux before
  | version value, before => value.write.reverseAux before

/-- The texts of values before other text, all of it reversed. -/
def textsOnto : List Value → Text → Text
  | [], before => before
  | value :: rest, before => textsOnto rest (textOnto value before)

end

/-- The text of a value: that of its parts, one after the other. -/
def text (v : Value) : Text := (v.textOnto []).reverse

/-! ## Diagnostics -/

mutual

/-- The form of a value in a diagnostic. -/
def form : Value → String
  | unit => "()"
  | char c => inspect c
  | str s => inspect s
  | nat n => toString n
  | int i => toString i
  | list values => Text.bracketed (formsOnto values []).reverse
  | pair first second => "(" ++ form first ++ ", " ++ form second ++ ")"
  | none => "None"
  | some value => "Some(" ++ form value ++ ")"
  | json value => value.render
  | version value => value.render

/-- The forms of values before other forms, all of them reversed. -/
def formsOnto : List Value → List String → List String
  | [], before => before
  | value :: rest, before => formsOnto rest (form value :: before)

end

instance : Inspect Value := ⟨form⟩

/-! ## Parts -/

/-- The number of values in a list, or of characters in the text of any other value. -/
def length : Value → Nat
  | list values => values.length
  | value => value.text.length

end Value
end Descent
