import Descent.Parser.Completion
import Descent.Parser.Primitive
import Descent.Proofs.Parser.Loops
import Mathlib.Data.Nat.Digits.Defs

/-!
# How long the messages of failures are

A cause quotes no more than a snippet, so its message is short. Alternatives join their messages,
and the lengths add up; every other combinator fails as one of its parsers does, and those that make
do with less when a parser fails do not pass its message on. So a bound on the messages of a parser
does not depend on the text, and a rule that calls itself only inside repeated or optional parts
needs none for the calls (`Brief`).
-/

namespace Descent

/-! ## Causes -/

namespace Text

/-- A snippet has at most ten characters and three dots. -/
theorem length_snippet_le (t : Text) : t.snippet.length ≤ 13 := by
  by_cases h : t.length ≤ snippetLength
  · rw [snippet_of_length_le h, String.length_ofList]
    exact Nat.le_trans h (by decide)
  · have hdots : "...".length = 3 := by decide
    rw [snippet_of_lt_length (Nat.lt_of_not_le h), String.length_append, String.length_ofList,
      List.length_take, hdots]
    exact Nat.add_le_add_right (Nat.min_le_left snippetLength t.length) 3

/-- Words and a snippet after them. -/
theorem length_append_snippet {words : String} {n : Nat} (h : words.length = n) (t : Text) :
    (words ++ t.snippet).length ≤ n + 13 := by
  rw [String.length_append, h]
  exact Nat.add_le_add_left t.length_snippet_le n

end Text

namespace Cause

theorem length_message_emptyInput : emptyInput.message.length ≤ 28 := by decide

theorem length_message_unexpected (t : Text) : (unexpected t).message.length ≤ 28 := by
  have hwords : "Invalid input: ".length = 15 := by decide
  exact Text.length_append_snippet hwords t

theorem length_message_unconvertible (reason : String) (t : Text) :
    (unconvertible reason t).message.length ≤ reason.length + 30 := by
  have hwords : (reason ++ ". Invalid input: ").length = reason.length + 17 :=
    String.length_append _ _
  exact Text.length_append_snippet hwords t

theorem length_message_nesting (t : Text) : (nesting 128 t).message.length ≤ 60 := by
  have hwords :
      ("Nesting deeper than " ++ toString 128 ++ " levels. Invalid input: ").length = 47 := by
    decide
  exact Text.length_append_snippet hwords t

end Cause

/-- The message of two alternatives has both, and `OR` between them. -/
theorem Failure.length_message_or (f g : Failure) :
    (f.or g).message.length = f.message.length + 4 + g.message.length := by
  rw [message_or, String.length_append, String.length_append]
  rfl

/-- The message for a text that was not read to its end has a snippet, and an offset of twenty
digits at most if the text has fewer than `2 ^ 64` bytes. -/
theorem Completion.length_unconsumedMessage_le {offset : Nat} (h : offset < 2 ^ 64) (t : Text) :
    (unconsumedMessage offset t).length ≤ 62 := by
  have hdigits : (toString offset).length ≤ 20 :=
    Nat.repr_length offset 20 (by decide) (Nat.lt_trans h (by decide))
  have hwords : ("Unconsumed input at offset " ++ toString offset ++ ": ").length =
      27 + (toString offset).length + 2 := by
    rw [String.length_append, String.length_append]
    rfl
  have hle := Text.length_append_snippet hwords t
  exact Nat.le_trans hle (by omega)

/-! ## Replies -/

/-- If the run failed, the message has at most `n` characters. -/
def Reply.Brief {α : Type} (n : Nat) (reply : Reply α) : Prop :=
  ∀ f, reply.outcome = .failure f → f.message.length ≤ n

namespace Reply.Brief

variable {α β : Type} {m n : Nat} {reply : Reply α}

theorem mono (h : reply.Brief m) (hmn : m ≤ n) : reply.Brief n :=
  fun f hf => Nat.le_trans (h f hf) hmn

theorem success (a : α) (r : Text) : (Reply.success a r).Brief n := nofun

theorem failure {f : Failure} (h : f.message.length ≤ n) : (Reply.failure f : Reply α).Brief n := by
  intro g hg
  cases hg
  exact h

theorem next {go : α → Text → Reply β} (h : reply.Brief n) (hgo : ∀ a r, (go a r).Brief n) :
    (reply.next go).Brief n := by
  intro f hf
  rcases hr : reply.outcome with ⟨a, r⟩ | g | _ <;> simp only [Reply.next, hr] at hf
  · exact hgo a r f hf
  · cases hf
    exact h _ hr
  · cases hf

theorem map (h : reply.Brief n) (f : α → β) : (reply.map f).Brief n := by
  rw [Reply.map_eq_either, ← Reply.next_eq_either]
  exact h.next fun a r => success (f a) r

/-- A run that recovers fails where its last part does. -/
theorem recover {go : Failure → Reply α} (hgo : ∀ f, reply.outcome = .failure f → (go f).Brief n) :
    (reply.recover go).Brief n := by
  intro f hf
  rcases hr : reply.outcome with ⟨a, r⟩ | g | _ <;> simp only [Reply.recover, hr] at hf
  · cases hf
  · exact hgo g hr f hf
  · cases hf

theorem mapFailure_or (h : reply.Brief n) {f : Failure} (hf : f.message.length ≤ m) :
    (reply.mapFailure f.or).Brief (m + 4 + n) := by
  intro g hg
  rcases hr : reply.outcome with ⟨a, r⟩ | g' | _ <;>
    simp only [Reply.mapFailure, Outcome.mapFailure, hr] at hg
  · cases hg
  · cases hg
    have hg' := h g' hr
    rw [Failure.length_message_or]
    omega
  · cases hg

end Reply.Brief

/-! ## Parsers -/

namespace Parser

/-- Whenever the parser fails, its message has at most `n` characters. -/
def Brief {α : Type} (n : Nat) (p : Parser α) : Prop := ∀ s, (p s).Brief n

namespace Brief

variable {α β γ : Type} {m n : Nat} {p : Parser α} {q : Parser β}

theorem mono (h : p.Brief m) (hmn : m ≤ n) : p.Brief n := fun s => (h s).mono hmn

/-! ### Primitive parsers -/

theorem satisfy (test : Char → Bool) : (Parser.satisfy test).Brief 28 := by
  intro s
  refine .next ?_ fun c r => ?_
  · cases s with
    | nil => exact .failure Cause.length_message_emptyInput
    | cons c s => exact .success c s
  · split
    · exact .success c r
    · exact .failure (Cause.length_message_unexpected s)

theorem char (c : Char) : (Parser.char c).Brief 28 := satisfy _

theorem characters (w : Text) : (Parser.characters w).Brief 28 := by
  intro s
  induction w generalizing s with
  | nil => exact .success () s
  | cons c w ih =>
    cases s with
    | nil => exact .failure Cause.length_message_emptyInput
    | cons d s =>
      rw [Parser.characters]
      split
      · exact ih s
      · exact .failure (Cause.length_message_unexpected _)

theorem literal (word : String) : (Parser.literal word).Brief 28 :=
  fun s => (characters word.toList s).map _

/-! ### Sequences -/

theorem map (h : p.Brief n) (f : α → β) : (p.map f).Brief n := fun s => (h s).map f

/-- A value that cannot be converted is rejected with the reason and a snippet. -/
theorem convert (h : p.Brief n) {f : α → Except String β}
    (hf : ∀ a reason, f a = .error reason → reason.length + 30 ≤ n) : (p.convert f).Brief n := by
  intro s
  refine (h s).next fun a r => ?_
  split
  · exact .success _ r
  · next reason hreason =>
    have hlength := Cause.length_message_unconvertible reason s
    exact .failure (Nat.le_trans hlength (hf a reason hreason))

theorem skipThen (hp : p.Brief n) (hq : q.Brief n) : (p.skipThen q).Brief n :=
  fun s => (hp s).next fun _ r => hq r

theorem both (hp : p.Brief n) (hq : q.Brief n) : (p.both q).Brief n :=
  fun s => (hp s).next fun _ r => (hq r).map _

theorem thenSkip (hp : p.Brief n) (hq : q.Brief n) : (p.thenSkip q).Brief n :=
  fun s => (hp s).next fun _ r => (hq r).map _

theorem bracket {closing : Parser γ} (hp : p.Brief n) (hq : q.Brief n)
    (hclosing : closing.Brief n) : (Parser.bracket p q closing).Brief n := by
  rw [bracket_eq_skipThen]
  exact hp.skipThen (hq.thenSkip hclosing)

theorem traced (h : p.Brief n) (name : String) : (p.traced name).Brief n := h

/-! ### Alternatives -/

theorem orElse {q : Parser α} (hp : p.Brief m) (hq : q.Brief n) :
    (p.orElse q).Brief (m + 4 + n) :=
  fun s => .recover fun f hf => (hq s).mapFailure_or (hp s f hf)

theorem choice_one (hp : p.Brief n) : (choice [p]).Brief n := by
  rwa [Parser.choice_one]

theorem choice_cons {q : Parser α} {ps : List (Parser α)} (hp : p.Brief m)
    (hps : (choice (q :: ps)).Brief n) : (choice (p :: q :: ps)).Brief (m + 4 + n) := by
  rw [choice_cons_cons]
  exact hp.orElse hps

/-! ### Parts that do not fail -/

theorem optional (p : Parser α) : p.optional.Brief n :=
  fun s => .recover fun _ _ => .success none s

theorem many (p : Parser α) : (Parser.many p).Brief n := fun _ _ hf => absurd hf not_fails_many

theorem sepBy (p : Parser α) (q : Parser β) : (p.sepBy q).Brief n :=
  fun _ _ hf => absurd hf not_fails_sepBy

/-! ### Rules -/

/-- A rule is brief if its body is, whatever parser the body calls. -/
theorem fix {body : Parser α → Parser α} (h : ∀ p, (body p).Brief n) : (Parser.fix body).Brief n :=
  fun s => h (nested body s.length) s

end Brief
end Parser
end Descent
