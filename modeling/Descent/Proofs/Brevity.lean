import Descent.Json.Grammar
import Descent.Proofs.Parser.Brevity
import Descent.Proofs.Parser.Completion
import Descent.Semver.Grammar

/-!
# Diagnostics stay short

The rule for values joins the messages of its seven alternatives. Those of arrays and objects are
about a bracket: what is inside them is a list that may be empty, and a list does not fail. So the
failures of values inside never get out, and the bound does not grow with the depth or the length of
the text.
-/

namespace Descent

open Descent.Parser

/-! ## Documents -/

namespace Json

variable {n : Nat}

theorem brief_blanks : blanks.Brief n := (Brief.many _).map _

theorem brief_token {α : Type} {p : Parser α} (h : p.Brief n) : (token p).Brief n :=
  h.thenSkip brief_blanks

theorem brief_symbol (c : Char) : (symbol c).Brief 28 := brief_token (.char c)

theorem brief_keyword (word : String) (v : Json) : (keyword word v).Brief 28 :=
  (brief_token (.literal word)).map _

theorem brief_stringLiteral : stringLiteral.Brief 28 :=
  ((Brief.char '"').bracket (.many _) (.char '"')).map _

theorem length_convertNumber {text : Text} {reason : String}
    (h : convertNumber text = .error reason) : reason.length ≤ 30 := by
  unfold convertNumber at h
  split at h
  · split at h
    · cases h
    · cases h
      decide
  · cases h
    decide

/-- Two alternatives for the digits before the point have a message each. -/
theorem brief_numeral : numeral.Brief 60 := by
  have hwhole : wholeDigits.Brief 60 :=
    ((Brief.literal "0").map _).orElse (((Brief.satisfy _).both (.many _)).map _)
  refine ((((Brief.optional _).both hwhole).both (.optional _)).both (.optional _)).convert ?_
  intro parts reason h
  exact Nat.add_le_add_right (length_convertNumber h) 30

theorem brief_arrayOf (p : Parser Json) : (arrayOf p).Brief 28 :=
  ((brief_symbol '[').bracket (.sepBy _ _) (brief_symbol ']')).map _

theorem brief_objectOf (p : Parser Json) : (objectOf p).Brief 28 :=
  ((brief_symbol '\x7b').bracket (.sepBy _ _) (brief_symbol '\x7d')).map _

/-- The messages of the alternatives, six times 28 characters and once 60, with `OR` between any
two, whatever parser reads the values inside. -/
theorem brief_valueBody (p : Parser Json) : (valueBody p).Brief 252 := by
  have hkeywords : (choice [keyword "true" (bool true), keyword "false" (bool false),
      keyword "null" null]).Brief (28 + 4 + (28 + 4 + 28)) :=
    (brief_keyword _ _).choice_cons ((brief_keyword _ _).choice_cons (brief_keyword _ _).choice_one)
  have hstring : ((token stringLiteral).map string).Brief 28 :=
    (brief_token brief_stringLiteral).map _
  have hnumber : ((token numeral).map number).Brief 60 := (brief_token brief_numeral).map _
  exact ((brief_objectOf p).choice_cons ((brief_arrayOf p).choice_cons
    (hstring.choice_cons (hnumber.choice_cons hkeywords)))).traced valueName

theorem brief_value : value.Brief 252 := .fix brief_valueBody

theorem brief_depthLimit : depthLimit.Brief 60 := by
  intro s
  unfold depthLimit
  split
  · exact .success () s
  · exact .failure (Cause.length_message_nesting s)

theorem parser_brief : parser.Brief 252 :=
  brief_blanks.skipThen ((brief_depthLimit.mono (by decide)).skipThen brief_value)

end Json

/-! ## Versions -/

namespace Version

theorem brief_numericIdentifier : numericIdentifier.Brief 60 :=
  (Brief.literal "0").orElse (((Brief.satisfy _).both (.many _)).map _)

theorem length_numeralError (e : NumeralError) : e.message.length ≤ 38 := by
  cases e <;> decide

/-- A number that is too large has the longest message. -/
theorem brief_coreNumber : coreNumber.Brief 68 := by
  refine (brief_numericIdentifier.mono (by decide)).convert fun digits reason h => ?_
  rw [Lexeme.convertNumeral] at h
  cases hread : Numeral.read (.unsigned 64) digits.toList with
  | ok n =>
    rw [hread] at h
    cases h
  | error e =>
    rw [hread] at h
    cases h
    exact Nat.add_le_add_right (length_numeralError e) 30

theorem parser_brief : parser.Brief 68 := by
  have hdot : (char '.').Brief 68 := (Brief.char '.').mono (by decide)
  have hcore : core.Brief 68 :=
    ((((brief_coreNumber.thenSkip hdot).both brief_coreNumber).thenSkip hdot).both
      brief_coreNumber).map _
  exact (((hcore.both (.optional _)).both (.optional _)).map _).traced versionName

end Version

/-! ## Both -/

/-- Whatever the text, a message for its rejection has at most 252 characters where a JSON text was
wanted, and at most 68 where a version was. A message about text that was left over has at most 62,
if the text has fewer than `2 ^ 64` bytes. -/
theorem diagnostics_short (s : Text) :
    (∀ f, Json.parse s = .rejected f → f.message.length ≤ 252) ∧
      (∀ f, Version.parse s = .rejected f → f.message.length ≤ 68) ∧
      ∀ offset r, Json.parse s = .incomplete offset r ∨ Version.parse s = .incomplete offset r →
        s.byteLength < 2 ^ 64 → (Completion.unconsumedMessage offset r).length ≤ 62 := by
  have hoffset {α : Type} {p : Parser α} {offset : Nat} {r : Text}
      (h : p.parseComplete s = .incomplete offset r) : offset ≤ s.byteLength := by
    obtain ⟨-, -, rfl⟩ := parseComplete_eq_incomplete_iff.mp h
    exact Nat.sub_le _ _
  refine ⟨fun f h => Json.parser_brief s f (parseComplete_eq_rejected_iff.mp h),
    fun f h => Version.parser_brief s f (parseComplete_eq_rejected_iff.mp h),
    fun offset r h hlength => ?_⟩
  apply Completion.length_unconsumedMessage_le
  rcases h with h | h <;> exact Nat.lt_of_le_of_lt (hoffset h) hlength

/-- Where nothing of the grammar fits, every alternative has its say, and the bound is reached; so
it is by a number that is just too large. -/
theorem diagnostics_short_sharp :
    let letters := ['a', 'b', 'c', 'd', 'e', 'f', 'g', 'h', 'i', 'j', 'k']
    let digits := ['1', '8', '4', '4', '6', '7', '4', '4', '0', '7', '3', '7', '0', '9', '5', '5',
      '1', '6', '1', '6']
    let none : Failure := ⟨.unexpected letters, List.replicate 7 (.unexpected letters)⟩
    let large : Failure := Cause.unconvertible NumeralError.tooLarge.message digits
    (Json.parse letters = .rejected none ∧ none.message.length ≤ 252 ∧
        none.message.length = 252) ∧
      (Version.parse digits = .rejected large ∧ large.message.length ≤ 68 ∧
        large.message.length = 68) ∧
      Json.parse ['1', 'x'] = .incomplete 1 ['x'] ∧
      (Completion.unconsumedMessage 1 ['x']).length ≤ 62 := by
  intro letters digits none large
  have hletters : Json.parse letters = .rejected none := by rfl
  have hdigits : Version.parse digits = .rejected large := by rfl
  have hleft : Json.parse ['1', 'x'] = .incomplete 1 ['x'] := by rfl
  have hnone : none.message.length = 252 := by
    let one : Failure := Cause.unexpected letters
    have hone : one.message.length = 28 := by decide
    have hall : none = one.or (one.or (one.or (one.or (one.or (one.or (one.or one)))))) := rfl
    simp only [hall, Failure.length_message_or, hone]
  have hlarge : large.message.length = 68 := by decide
  exact ⟨⟨hletters, (diagnostics_short letters).1 none hletters, hnone⟩,
    ⟨hdigits, (diagnostics_short digits).2.1 large hdigits, hlarge⟩, hleft,
    (diagnostics_short ['1', 'x']).2.2 1 ['x'] (Or.inl hleft) (by decide)⟩

end Descent
