import Descent.Proofs.Arena.Likeness

/-!
# What diagnostics say

A failure of a described parser says something, and it says it in parts that are joined by `OR`.
Each part has one of the forms of `Diagnostic`: it quotes nothing but suffixes of the text, it shows
no more than the beginning of what it quotes, and its other words are fixed, or are the form of a
value, or came with the parser (`Store.message_diagnostics`). To fail in this way is a likeness of a
run to itself, so the induction on descriptions is that of `Grammar.parsers_alike`.
-/

namespace Descent

/-! ## Forms of diagnostics -/

namespace Diagnostic

/-- A text as a diagnostic shows it. -/
def quoted (x : Text) : String :=
  if x.length ≤ 10 then String.ofList x else String.ofList (x.take 10) ++ "..."

theorem snippet_eq_quoted (x : Text) : x.snippet = quoted x := by
  unfold quoted
  split
  · next h => exact Text.snippet_of_length_le h
  · next h => exact Text.snippet_of_lt_length (Nat.lt_of_not_le h)

/-- The form of a value that was found, which may be a code of sixteen bits in a JSON string. -/
def IsForm (form : String) : Prop :=
  (∃ v : Value, form = inspect v) ∨ ∃ code : Nat, form = inspect code

end Diagnostic

open Diagnostic in
/-- The parts of a message about a text, for a parser that came with the given words. -/
inductive Diagnostic (words : Wording → Prop) (s : Text) : String → Prop where
  | emptyInput : Diagnostic words s "Empty input"
  | unexpected {x : Text} (hx : x <:+ s) : Diagnostic words s ("Invalid input: " ++ quoted x)
  | trailing {x : Text} (hx : x <:+ s) : Diagnostic words s ("Unconsumed input: " ++ quoted x)
  | unconvertible {reason : String} {x : Text} (hreason : words (.reason reason)) (hx : x <:+ s) :
      Diagnostic words s (reason ++ ". Invalid input: " ++ quoted x)
  | rejected {expectation form : String} {x y : Text}
      (hexpectation : words (.expectation expectation)) (hform : IsForm form) (hx : x <:+ s)
      (hy : y <:+ x) :
      Diagnostic words s ("Expected " ++ expectation ++ ", found " ++ form ++ " (input: " ++
        quoted x ++ ", remaining: " ++ quoted y ++ ")")
  | mismatch {regex : String} {x : Text} (hregex : words (.pattern regex)) (hx : x <:+ s) :
      Diagnostic words s ("Expected /" ++ regex ++ "/. Invalid input: " ++ quoted x)
  | nesting {x : Text} (hx : x <:+ s) :
      Diagnostic words s ("Nesting deeper than 128 levels. Invalid input: " ++ quoted x)
  | undefinedRule : Diagnostic words s "Recursive parser invoked before it was defined"
  | reported {message : String} (hmessage : words (.message message)) :
      Diagnostic words s message

namespace Diagnostic

variable {words : Wording → Prop} {s : Text}

/-- No part is empty, unless the parser came with an empty message. -/
theorem ne_empty {part : String} (h : Diagnostic words s part)
    (hmessages : ∀ m, words (.message m) → m ≠ "") : part ≠ "" := by
  cases h with
  | reported hmessage => exact hmessages part hmessage
  | emptyInput | undefinedRule => decide
  | unexpected | trailing | unconvertible | rejected | mismatch | nesting => simp

end Diagnostic

/-- The message of a failure is that of its causes, joined by `OR`. -/
theorem Failure.message_eq_intercalate (f : Failure) :
    f.message = " OR ".intercalate (f.causes.map Cause.message) := by
  obtain ⟨first, others⟩ := f
  induction others generalizing first with
  | nil => simp [message, causes]
  | cons c others ih =>
    have hlater := ih c
    simp only [message, causes, List.map_cons] at hlater ⊢
    rw [List.foldl_cons, String.intercalate_cons_cons, ← hlater, foldl_message_append]

/-! ## Words of runs -/

namespace Likeness

open Diagnostic

/-- A run is like itself if its failures quote suffixes of a text, in words that came with the
parser. -/
def telling (words : Wording → Prop) (s : Text) : Likeness where
  text := s
  words := words
  forms := IsForm
  limits limit := limit = Json.maxDepth
  logs _ _ := True
  cut := False
  logs_nil := trivial
  logs_append _ _ := trivial
  logs_undefinedRule := trivial

variable {words : Wording → Prop} {s : Text}

theorem telling_retitles : (telling words s).Retitles some some where
  titles _ _ _ _ _ _ _ _ _ := trivial
  json _ _ _ _ _ _ _ _ := trivial
  version _ _ _ _ _ _ _ _ := trivial
  value v := Or.inl ⟨v, rfl⟩
  code n := Or.inr ⟨n, rfl⟩
  limit := rfl

/-- What a failure may quote and say are the parts of a message. -/
theorem Allows.diagnostic {c : Cause} (h : (telling words s).Allows c) :
    Diagnostic words s c.message := by
  cases c with
  | emptyInput => exact .emptyInput
  | undefinedRule => exact .undefinedRule
  | reported message => exact .reported h
  | unexpected x =>
    show Diagnostic words s ("Invalid input: " ++ x.snippet)
    rw [snippet_eq_quoted]
    exact .unexpected h
  | trailing x =>
    show Diagnostic words s ("Unconsumed input: " ++ x.snippet)
    rw [snippet_eq_quoted]
    exact .trailing h
  | unconvertible reason x =>
    obtain ⟨hx, hreason⟩ := h
    show Diagnostic words s (reason ++ ". Invalid input: " ++ x.snippet)
    rw [snippet_eq_quoted]
    exact .unconvertible hreason hx
  | rejected expectation form x y =>
    obtain ⟨⟨hx, hy⟩, hexpectation, hform⟩ := h
    show Diagnostic words s ("Expected " ++ expectation ++ ", found " ++ form ++ " (input: " ++
      x.snippet ++ ", remaining: " ++ y.snippet ++ ")")
    rw [snippet_eq_quoted, snippet_eq_quoted]
    exact .rejected hexpectation hform hx hy
  | mismatch regex x =>
    obtain ⟨hx, hregex⟩ := h
    show Diagnostic words s ("Expected /" ++ regex ++ "/. Invalid input: " ++ x.snippet)
    rw [snippet_eq_quoted]
    exact .mismatch hregex hx
  | nesting limit x =>
    obtain ⟨hx, rfl⟩ := h
    show Diagnostic words s ("Nesting deeper than 128 levels. Invalid input: " ++ x.snippet)
    rw [snippet_eq_quoted]
    exact .nesting hx

end Likeness

/-! ## Messages of failures -/

namespace Store

/-- The run of a description, in which names stand for rules of a store, is like itself. -/
theorem telling_alike (store : Store) (handles : List (String × Handle)) (g : Grammar) (s : Text) :
    (Likeness.telling (store.Words g) s).Parsers (g.parser (bodyScope handles store.parser))
      (g.parser (bodyScope handles store.parser)) := by
  rw [← g.parser_retitle_some, ← store.parser_retitle_some]
  exact store.described_alike handles g Likeness.telling_retitles fun _ hw => hw

/-- Where a description fails, in which names stand for rules of a store, its message is not empty:
it consists of diagnostics about the text. The description and the bodies of the rules may bring any
words but an empty message. -/
theorem message_diagnostics (store : Store) (handles : List (String × Handle)) (g : Grammar)
    (hmessages : ∀ m, store.Words g (.message m) → m ≠ "") {s : Text} {f : Failure}
    (hf : (g.parser (bodyScope handles store.parser) s).outcome = .failure f) :
    f.message ≠ "" ∧ ∃ parts, parts ≠ [] ∧ f.message = " OR ".intercalate parts ∧
      ∀ part ∈ parts, Diagnostic (store.Words g) s part := by
  have hparts : ∀ c ∈ f.causes, Diagnostic (store.Words g) s c.message := fun c hc =>
    ((store.telling_alike handles g s s (List.suffix_refl s)).allows hf c hc).diagnostic
  have hfirst : f.first.message ≠ "" := (hparts _ List.mem_cons_self).ne_empty hmessages
  refine ⟨?_, f.causes.map Cause.message, List.cons_ne_nil _ _, f.message_eq_intercalate,
    List.forall_mem_map.mpr hparts⟩
  rw [f.message_eq_intercalate, Failure.causes, List.map_cons]
  cases f.others with
  | nil => simpa using hfirst
  | cons c others => simp

/-- Two alternatives that both fail: one refuses a value, the other says so in words of its own. -/
theorem message_diagnostics_alternatives :
    let store : Store := ⟨[]⟩
    let g : Grammar := .orElse (.filterExpecting (.equals ['a']) "an a" .item) (.report "no b")
    let s := "bcdefghijklm".toList
    let f : Failure := ⟨.rejected "an a" "'b'" s s.tail, [.reported "no b"]⟩
    (∀ m, store.Words g (.message m) → m ≠ "") ∧
      (g.parser (bodyScope [] store.parser) s).outcome = .failure f ∧
      f.message =
        "Expected an a, found 'b' (input: bcdefghijk..., remaining: cdefghijkl...) OR no b" ∧
      f.message ≠ "" ∧ ∃ parts, parts ≠ [] ∧ f.message = " OR ".intercalate parts ∧
        ∀ part ∈ parts, Diagnostic (store.Words g) s part := by
  intro store g s f
  have hmessages : ∀ m, store.Words g (.message m) → m ≠ "" := by
    intro m hm
    rcases hm with hm | ⟨handle, body, hbody, -⟩
    · obtain rfl : m = "no b" := by simpa [g, Grammar.wordings] using hm
      decide
    · simp [body?, arena?, store] at hbody
  have hf : (g.parser (bodyScope [] store.parser) s).outcome = .failure f := by rfl
  exact ⟨hmessages, hf, by rfl, message_diagnostics store [] g hmessages hf⟩

end Store

end Descent
