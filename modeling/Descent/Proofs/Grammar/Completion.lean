import Descent.Proofs.Grammar.Composition
import Descent.Proofs.Parser.Completion

/-!
# Whole texts of described grammars

The parsers that can be put together from descriptions, rules in arenas and names in scope are all
composed, so what is true of reading a whole text with a composed parser is true of each of them.
-/

namespace Descent

open Descent.Parser

/-- The parsers that there are ways to describe: the rule of a handle in some arenas, a rule without
a definition, and what a description stands for among names of such parsers. -/
inductive Parser.Described : Parser Value → Prop where
  | undefinedRule : Described Parser.undefinedRule
  | rule (s : Store) (handle : Handle) : Described (s.parser handle)
  | grammar (g : Grammar) {scope : Scope} (h : ∀ name, Described (scope name)) :
      Described (g.parser scope)

namespace Parser.Described

variable {p : Parser Value}

theorem composed (h : p.Described) : p.Composed false := by
  induction h with
  | undefinedRule => exact .undefinedRule
  | rule s handle => exact s.parser_composed handle
  | grammar g _ ih => exact g.composed ih

/-- A description of its own, without names for other parsers. -/
theorem closed (g : Grammar) : (g.parser Scope.empty).Described :=
  .grammar g fun _ => .undefinedRule

/-- What a described parser leaves is the end of its text. So a whole text is complete when nothing
is left, which is to say that the text ends after the value; it is rejected when the parser fails;
and otherwise, if the run ends at all, something is left. The offset counts the bytes before it, and
it is what stands in the way of the end. -/
theorem whole_text (h : p.Described) (s : Text) (hends : (p s).outcome ≠ .diverges) :
    (∀ v r, p.Reads s v r → r <:+ s ∧ r.byteLength ≤ s.byteLength) ∧
      (∀ v, p.parseComplete s = .complete v ↔ p.Reads s v []) ∧
      (∀ v, p.Reads s v [] ↔ (p.thenSkip ending).Reads s v []) ∧
      (∀ f, p.parseComplete s = .rejected f ↔ (p s).outcome = .failure f) ∧
      ((∀ v, p.parseComplete s ≠ .complete v) → (∀ f, p.parseComplete s ≠ .rejected f) →
        ∃ (offset : Nat) (before remaining : Text),
          p.parseComplete s = .incomplete offset remaining ∧ remaining ≠ [] ∧
          s = before ++ remaining ∧ before.utf8Encode = s.utf8Encode.extract 0 offset ∧
          ∃ f, (p.thenSkip ending s).outcome = .failure f ∧
            f.message = "Unconsumed input: " ++ remaining.snippet) := by
  have hp := h.composed
  refine ⟨fun v r hread => ⟨hp.suffix hread, hp.byteLength_le hread⟩,
    fun v => parseComplete_eq_complete_iff, fun v => by simp [reads_thenSkip_ending],
    fun f => parseComplete_eq_rejected_iff, fun hcomplete hrejected => ?_⟩
  obtain ⟨before, remaining, v, hread, hne, rfl, hincomplete⟩ :=
    hp.exists_incomplete hends hcomplete hrejected
  exact ⟨Text.byteLength before, before, remaining, hincomplete, hne, rfl,
    (Text.extract_utf8Encode_append before remaining).symm, Cause.trailing remaining,
    hread.outcome_thenSkip_ending hne, rfl⟩

/-- Of a word with a letter of two bytes, the last letter is left at offset three. -/
theorem whole_text_vowels :
    let p := (Grammar.many (.satisfy (.oneOf ['a', 'é']))).parser Scope.empty
    let s := ['a', 'é', 't']
    p.Described ∧ (p s).outcome ≠ .diverges ∧ p.parseComplete s = .incomplete 3 ['t'] ∧
      ∃ f, (p.thenSkip ending s).outcome = .failure f ∧ f.message = "Unconsumed input: t" := by
  intro p s
  have hdescribed : p.Described := closed _
  have houtcome : (p s).outcome = .success (.list [.char 'a', .char 'é']) ['t'] := by rfl
  have hends : (p s).outcome ≠ .diverges := by
    rw [houtcome]
    exact nofun
  have hincomplete : p.parseComplete s = .incomplete 3 ['t'] := by rfl
  obtain ⟨-, -, -, -, hrest⟩ := whole_text hdescribed s hends
  obtain ⟨_, _, _, hresult, -, -, -, hfailure⟩ :=
    hrest (by simp [hincomplete]) (by simp [hincomplete])
  rw [hincomplete] at hresult
  cases hresult
  exact ⟨hdescribed, hends, hincomplete, hfailure⟩

end Parser.Described
end Descent
