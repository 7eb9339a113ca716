import Descent.Json.Grammar
import Descent.Proofs.Parser.Composition

/-!
# What the JSON grammar reports

Only the rule for values reports anything. All else in the grammar is silent: blanks, tokens,
strings, numbers and the limit on nesting.
-/

namespace Descent.Json

open Descent.Parser

variable {α : Type} {silent : Bool} {p : Parser Json}

/-! ## Tokens -/

theorem composed_blanks : blanks.Composed silent := (Composed.satisfy _).many.map _

theorem composed_token {p : Parser α} (h : p.Composed silent) : (token p).Composed silent :=
  h.thenSkip composed_blanks

theorem composed_symbol (c : Char) : (symbol c).Composed silent := composed_token (.char c)

theorem composed_keyword (word : String) (v : Json) : (keyword word v).Composed silent :=
  (composed_token (.literal word)).map _

/-! ## Strings -/

theorem composed_hexQuadCode : hexQuadCode.Composed silent := ((Composed.satisfy _).times 4).map _

theorem composed_unicodeEscape : unicodeEscape.Composed silent := by
  have hlow : lowSurrogate.Composed silent :=
    (Composed.literal _).skipThen (composed_hexQuadCode.filterExpecting _ _)
  exact (((Composed.char 'u').skipThen composed_hexQuadCode).both hlow.optional).convert _

theorem composed_escape : escape.Composed silent := by
  refine (Composed.char '\\').skipThen (.choice ?_)
  simp only [List.forall_mem_cons, List.not_mem_nil, false_implies, implies_true, and_true]
  exact ⟨.char _, .char _, .char _, (Composed.char _).map _, (Composed.char _).map _,
    (Composed.char _).map _, (Composed.char _).map _, (Composed.char _).map _,
    composed_unicodeEscape⟩

theorem composed_stringLiteral : stringLiteral.Composed silent := by
  have hchar : (choice [satisfy isUnescaped, escape]).Composed silent :=
    .choice (by simp [composed_escape])
  exact ((Composed.char _).bracket hchar.many (.char _)).map _

/-! ## Numbers -/

theorem composed_digits : Lexeme.digits.Composed silent := (Composed.satisfy _).many1

theorem composed_numeral : numeral.Composed silent := by
  have hwhole : wholeDigits.Composed silent :=
    ((Composed.literal "0").map _).orElse
      (((Composed.satisfy _).both (Composed.satisfy _).many).map _)
  have hfraction : fractionDigits.Composed silent := (Composed.char '.').skipThen composed_digits
  have hsign : (choice [char '+', char '-']).Composed silent := .choice (by simp)
  have hexponent : exponentDigits.Composed silent :=
    ((Composed.satisfy _).skipThen hsign.optional).both composed_digits
  exact ((((Composed.char '-').optional.both hwhole).both hfraction.optional).both
    hexponent.optional).convert _

/-! ## Values -/

theorem composed_depthLimit : depthLimit.Composed silent := by
  intro s
  unfold depthLimit
  split
  · exact .success () (List.suffix_refl s)
  · exact .cause (List.suffix_refl s)

theorem composed_arrayOf (h : p.Composed silent) : (arrayOf p).Composed silent :=
  ((composed_symbol _).bracket (h.sepBy (composed_symbol _)) (composed_symbol _)).map _

theorem composed_memberKey :
    ((token stringLiteral).thenSkip (symbol ':')).Composed silent :=
  (composed_token composed_stringLiteral).thenSkip (composed_symbol _)

theorem composed_objectOf (h : p.Composed silent) : (objectOf p).Composed silent :=
  ((composed_symbol _).bracket ((composed_memberKey.both h).sepBy (composed_symbol _))
    (composed_symbol _)).map _

/-- The alternatives for values without other values inside. -/
def scalars : List (Parser Json) := [
  (token stringLiteral).map string,
  (token numeral).map number,
  keyword "true" (bool true),
  keyword "false" (bool false),
  keyword "null" null]

theorem valueBody_eq (p : Parser Json) :
    valueBody p = traced valueName (choice (objectOf p :: arrayOf p :: scalars)) := rfl

theorem composed_scalars : ∀ q ∈ scalars, q.Composed silent := by
  simp only [scalars, List.forall_mem_cons, List.not_mem_nil, false_implies, implies_true, and_true]
  exact ⟨(composed_token composed_stringLiteral).map _, (composed_token composed_numeral).map _,
    composed_keyword _ _, composed_keyword _ _, composed_keyword _ _⟩

theorem composed_valueBody (h : p.Composed false) : (valueBody p).Composed false := by
  rw [valueBody_eq]
  exact .traced valueName (.choice (List.forall_mem_cons.mpr ⟨composed_objectOf h,
    List.forall_mem_cons.mpr ⟨composed_arrayOf h, composed_scalars⟩⟩))

theorem composed_nested (n : Nat) : (nested valueBody n).Composed false :=
  .nested (fun _ => composed_valueBody) n

theorem composed_value : value.Composed false := .fix fun _ => composed_valueBody

theorem parser_composed : parser.Composed false :=
  composed_blanks.skipThen (composed_depthLimit.skipThen composed_value)

end Descent.Json
