import Descent.Json.Grammar
import Descent.Proofs.Json.Numbers
import Descent.Proofs.Json.Strings

/-!
# Tokens

A token is read together with the blanks after it. Each alternative of the rule for values is told
by its first character, so that it fails on every text that begins with another.
-/

namespace Descent.Json

open Descent.Parser

variable {s r : Text}

/-! ## Tokens -/

theorem isBlank_iff {c : Char} :
    Lexeme.isBlank c = true ↔ c = ' ' ∨ c = '\t' ∨ c = '\n' ∨ c = '\r' := by
  simp [Lexeme.isBlank, or_assoc]

theorem reads_blanks : blanks.Reads s () r ↔
    ∃ gap : Gap, s = gap.1 ++ r ∧ r.Avoids Lexeme.isBlank := by
  rw [blanks, reads_map, Lexeme.whitespace]
  simp only [reads_many_satisfy, isBlank_iff]
  constructor
  · intro h
    obtain ⟨cs, ⟨rfl, hcs, hr⟩, -⟩ := h
    exact ⟨⟨cs, hcs⟩, rfl, hr⟩
  · intro h
    obtain ⟨gap, rfl, hr⟩ := h
    exact ⟨gap.1, ⟨rfl, gap.2, hr⟩, trivial⟩

/-- Every text begins with a gap, up to its first character that is no blank. -/
theorem exists_gap (s : Text) :
    ∃ (gap : Gap) (t : Text), s = gap.1 ++ t ∧ t.Avoids Lexeme.isBlank := by
  have hblank : ∀ c ∈ s.takeWhile Lexeme.isBlank, Lexeme.isBlank c = true :=
    List.all_eq_true.mp List.all_takeWhile
  exact ⟨⟨s.takeWhile Lexeme.isBlank, fun c hc => isBlank_iff.mp (hblank c hc)⟩,
    s.dropWhile Lexeme.isBlank, List.takeWhile_append_dropWhile.symm, Text.avoids_dropWhile s _⟩

theorem reads_token {α : Type} {p : Parser α} {a : α} :
    (token p).Reads s a r ↔ ∃ gap : Gap, p.Reads s a (gap.1 ++ r) ∧ r.Avoids Lexeme.isBlank := by
  rw [token, reads_thenSkip]
  constructor
  · intro h
    obtain ⟨t, ⟨⟩, ha, hblanks⟩ := h
    obtain ⟨gap, rfl, hr⟩ := reads_blanks.mp hblanks
    exact ⟨gap, ha, hr⟩
  · intro h
    obtain ⟨gap, ha, hr⟩ := h
    exact ⟨_, (), ha, reads_blanks.mpr ⟨gap, rfl, hr⟩⟩

/-- A token fails where what it reads does, since blanks are never missing. -/
theorem Fails.token {α : Type} {p : Parser α} (h : p.Fails s) : (token p).Fails s := by
  rw [Json.token, fails_thenSkip]
  exact Or.inl h

theorem reads_symbol {c d : Char} :
    (symbol c).Reads s d r ↔
      d = c ∧ ∃ gap : Gap, s = c :: (gap.1 ++ r) ∧ r.Avoids Lexeme.isBlank := by
  rw [symbol, reads_token]
  simp only [reads_char]
  constructor
  · intro h
    obtain ⟨gap, ⟨rfl, rfl⟩, hr⟩ := h
    exact ⟨rfl, gap, rfl, hr⟩
  · intro h
    obtain ⟨rfl, gap, rfl, hr⟩ := h
    exact ⟨gap, ⟨rfl, rfl⟩, hr⟩

theorem fails_symbol {c : Char} (h : s.Avoids (· == c)) : (symbol c).Fails s :=
  Fails.token (fails_char.mpr h)

theorem progresses_symbol (c : Char) : (symbol c).Progresses := by
  intro s d r h
  obtain ⟨-, gap, rfl, -⟩ := reads_symbol.mp h
  rw [List.length_cons, List.length_append]
  omega

theorem reads_keyword {word : String} {v w : Json} :
    (keyword word v).Reads s w r ↔
      w = v ∧ ∃ gap : Gap, s = word.toList ++ (gap.1 ++ r) ∧ r.Avoids Lexeme.isBlank := by
  rw [keyword, reads_map]
  simp only [reads_token, reads_literal]
  constructor
  · intro h
    obtain ⟨_, ⟨gap, ⟨rfl, rfl⟩, hr⟩, rfl⟩ := h
    exact ⟨rfl, gap, rfl, hr⟩
  · intro h
    obtain ⟨rfl, gap, rfl, hr⟩ := h
    exact ⟨_, ⟨gap, ⟨rfl, rfl⟩, hr⟩, rfl⟩

theorem fails_keyword {word : String} {v : Json} (h : ¬ word.toList <+: s) :
    (keyword word v).Fails s := by
  rw [keyword, fails_map]
  exact Fails.token (fails_literal.mpr h)

/-! ## Where an alternative fails -/

theorem fails_stringLiteral (h : s.Avoids (· == '"')) : stringLiteral.Fails s := by
  rw [stringLiteral, fails_map]
  exact Fails.bracket (fails_char.mpr h)

/-- Whether a character begins a number. -/
def startsNumber (c : Char) : Bool := c == '-' || c.isDigit

theorem NumberLiteral.avoids_text (l : NumberLiteral) {q : Char → Bool}
    (hq : ∀ c, startsNumber c = true → q c = false) (r : Text) : Text.Avoids (l.text ++ r) q := by
  rw [text]
  cases l.minus with
  | true => exact Text.avoids_cons.mpr (hq '-' rfl)
  | false =>
    cases h : l.whole with
    | nil => exact absurd h l.isDigits_whole.1
    | cons c ds =>
      have hc : c.isDigit = true := l.isDigits_whole.2 c (by simp [h])
      exact Text.avoids_cons.mpr (hq c (by simp [startsNumber, hc]))

theorem not_isBlank_of_startsNumber (c : Char) (h : startsNumber c = true) :
    Lexeme.isBlank c = false := by
  rw [← Bool.not_eq_true, isBlank_iff]
  rintro (rfl | rfl | rfl | rfl) <;> cases h

theorem fails_wholeDigits (h : s.Avoids Char.isDigit) : wholeDigits.Fails s := by
  rw [wholeDigits, fails_orElse, fails_map, fails_map, fails_both, fails_literal, fails_satisfy]
  constructor
  · cases s with
    | nil => simp
    | cons c s =>
      have hc : '0' ≠ c := by
        rintro rfl
        cases Text.avoids_cons.mp h
      simp [List.cons_prefix_cons, hc]
  · exact Or.inl (h.mono fun c hc => (Lexeme.isNonzeroDigit_iff.mp hc).1)

theorem fails_numeral (h : s.Avoids startsNumber) : numeral.Fails s := by
  have hminus : s.Avoids (· == '-') := h.mono fun c hc => by simp_all [startsNumber]
  have hdigit : s.Avoids Char.isDigit := h.mono fun c hc => by simp [startsNumber, hc]
  rw [numeral, fails_convert, fails_both, fails_both, fails_both]
  refine Or.inl (Or.inl (Or.inl (Or.inr ⟨none, s, ?_, fails_wholeDigits hdigit⟩)))
  exact reads_minus.mpr (Or.inr ⟨rfl, rfl, hminus⟩)

variable {p : Parser Json}

theorem fails_arrayOf (h : s.Avoids (· == '[')) : (arrayOf p).Fails s := by
  rw [arrayOf, fails_map]
  exact Fails.bracket (fails_symbol h)

theorem fails_objectOf (h : s.Avoids (· == '\x7b')) : (objectOf p).Fails s := by
  rw [objectOf, fails_map]
  exact Fails.bracket (fails_symbol h)

theorem fails_member (h : s.Avoids (· == '"')) : (member p).Fails s := by
  rw [member, fails_both, fails_thenSkip]
  exact Or.inl (Or.inl (Fails.token (fails_stringLiteral h)))

end Descent.Json
