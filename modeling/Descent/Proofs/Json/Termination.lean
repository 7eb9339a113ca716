import Descent.Proofs.Json.Silence
import Descent.Proofs.Json.Values
import Descent.Proofs.Parser.Termination

/-!
# The JSON grammar ends

Every token ends on every text. A call of the rule for values inside another one comes after a
bracket, so its text is shorter, and a text of `n` characters allows `n + 1` nested calls: the rule
ends on every text as well.
-/

namespace Descent.Json

open Descent.Parser

variable {s : Text} {p : Parser Json}

/-! ## Tokens -/

theorem ends_blanks (s : Text) : blanks.Ends s :=
  (Ends.many (recognizes_satisfy _).progresses (ends_satisfy _)).map _

theorem ends_token {α : Type} {p : Parser α} (h : p.Ends s) : (token p).Ends s :=
  h.thenSkip fun _ r _ => ends_blanks r

theorem ends_symbol (c : Char) (s : Text) : (symbol c).Ends s := ends_token (ends_char c s)

theorem ends_keyword (word : String) (v : Json) (s : Text) : (keyword word v).Ends s :=
  (ends_token (ends_literal word s)).map _

/-! ## Strings -/

theorem ends_hexQuadCode (s : Text) : hexQuadCode.Ends s := (Ends.times 4 (ends_satisfy _)).map _

theorem ends_unicodeEscape (s : Text) : unicodeEscape.Ends s := by
  have hcode (r : Text) : ((char 'u').skipThen hexQuadCode).Ends r :=
    (ends_char _ r).skipThen fun _ t _ => ends_hexQuadCode t
  have hlow (r : Text) : lowSurrogate.Ends r :=
    (ends_literal _ r).skipThen fun _ t _ => (ends_hexQuadCode t).filterExpecting _ _
  exact ((hcode s).both fun _ r _ => (hlow r).optional).convert _

theorem ends_escape (s : Text) : escape.Ends s := by
  refine (ends_char _ s).skipThen fun _ r _ => .choice ?_
  simp only [List.forall_mem_cons, List.not_mem_nil, false_implies, implies_true, and_true]
  exact ⟨ends_char _ r, ends_char _ r, ends_char _ r, (ends_char _ r).map _,
    (ends_char _ r).map _, (ends_char _ r).map _, (ends_char _ r).map _, (ends_char _ r).map _,
    ends_unicodeEscape r⟩

theorem ends_stringLiteral (s : Text) : stringLiteral.Ends s := by
  have hchar (r : Text) : stringChar.Ends r := .choice (by simp [ends_satisfy, ends_escape])
  exact ((ends_char _ s).bracket (fun _ _ _ => .many progresses_stringChar hchar)
    (ends_char _)).map _

/-! ## Numbers -/

theorem ends_digits (s : Text) : Lexeme.digits.Ends s :=
  .many1 Lexeme.recognizes_digit.progresses (ends_satisfy _)

theorem ends_wholeDigits (s : Text) : wholeDigits.Ends s :=
  ((ends_literal _ s).map _).orElse (((ends_satisfy _ s).both fun _ _ _ =>
    .many Lexeme.recognizes_digit.progresses (ends_satisfy _)).map _)

theorem ends_fractionDigits (s : Text) : fractionDigits.Ends s :=
  (ends_char _ s).skipThen fun _ r _ => ends_digits r

theorem ends_exponentDigits (s : Text) : exponentDigits.Ends s := by
  have hsign (r : Text) : (choice [char '+', char '-']).Ends r := .choice (by simp [ends_char])
  exact ((ends_satisfy _ s).skipThen fun _ r _ => (hsign r).optional).both fun _ r _ =>
    ends_digits r

theorem ends_numeralParts (s : Text) : numeralParts.Ends s :=
  (((ends_char _ s).optional.both fun _ r _ => ends_wholeDigits r).both
    fun _ r _ => (ends_fractionDigits r).optional).both
      fun _ r _ => (ends_exponentDigits r).optional

theorem ends_numeral (s : Text) : numeral.Ends s := (ends_numeralParts s).convert _

/-! ## Values -/

theorem nonGrowing_member (hp : ReadsDocuments p) : (member p).NonGrowing :=
  Progresses.nonGrowing (progresses_member hp)

theorem ends_member (h : ∀ r, r.length ≤ s.length → p.Ends r) : (member p).Ends s := by
  have hkey : ((token stringLiteral).thenSkip (symbol ':')).Ends s :=
    (ends_token (ends_stringLiteral s)).thenSkip fun _ r _ => ends_symbol _ r
  have hcomposed : ((token stringLiteral).thenSkip (symbol ':')).Composed true :=
    composed_memberKey
  exact hkey.both fun _ r hr => h r (hcomposed.suffix hr).length_le

theorem ends_arrayOf (hp : ReadsDocuments p) (h : ∀ r, r.length < s.length → p.Ends r) :
    (arrayOf p).Ends s := by
  refine ((ends_symbol _ s).bracket (fun _ r hr => ?_) (ends_symbol _)).map _
  have hlt : r.length < s.length := progresses_symbol _ hr
  exact .sepBy (Progresses.nonGrowing hp.progresses) (progresses_symbol _)
    (fun t ht => h t (by omega)) (ends_symbol _)

theorem ends_objectOf (hp : ReadsDocuments p) (h : ∀ r, r.length < s.length → p.Ends r) :
    (objectOf p).Ends s := by
  refine ((ends_symbol _ s).bracket (fun _ r hr => ?_) (ends_symbol _)).map _
  have hlt : r.length < s.length := progresses_symbol _ hr
  exact .sepBy (nonGrowing_member hp) (progresses_symbol _)
    (fun t ht => ends_member fun u hu => h u (by omega)) (ends_symbol _)

theorem ends_scalars (s : Text) : ∀ q ∈ scalars, q.Ends s := by
  simp only [scalars, List.forall_mem_cons, List.not_mem_nil, false_implies, implies_true, and_true]
  exact ⟨(ends_token (ends_stringLiteral s)).map _, (ends_token (ends_numeral s)).map _,
    ends_keyword _ _ s, ends_keyword _ _ s, ends_keyword _ _ s⟩

/-- The rule ends on a text if the parser of the values inside ends on all that are shorter. -/
theorem ends_valueBody (hp : ReadsDocuments p) (h : ∀ r, r.length < s.length → p.Ends r) :
    (valueBody p).Ends s := by
  rw [valueBody_eq]
  exact .traced (.choice (List.forall_mem_cons.mpr ⟨ends_objectOf hp h,
    List.forall_mem_cons.mpr ⟨ends_arrayOf hp h, ends_scalars s⟩⟩)) valueName

theorem ends_nested {n : Nat} (h : s.length < n) : (nested valueBody n).Ends s := by
  induction n generalizing s with
  | zero => exact absurd h (Nat.not_lt_zero _)
  | succ n ih => exact ends_valueBody (nested_sound n) fun r hr => ih (by omega)

theorem ends_value (s : Text) : value.Ends s := by
  rw [Ends, value, fix]
  exact ends_nested (Nat.lt_succ_self s.length)

/-- Every run of the JSON grammar ends. -/
theorem parser_ends (s : Text) : parser.Ends s := by
  refine (ends_blanks s).skipThen fun _ r _ => .skipThen ?_ fun _ t _ => ends_value t
  unfold Ends depthLimit
  split <;> exact nofun

end Descent.Json
