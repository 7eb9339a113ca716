import Descent.Proofs.Arena.Store
import Descent.Proofs.Grammar.Likeness

/-!
# Arenas that differ in the titles of their rules

The rules of a store stand for parsers that are alike when the titles in their bodies are. The
bodies refer to rules by handles, and these are the same in both stores.
-/

namespace Descent

/-- The body of a rule under other titles. -/
def RuleBody.retitle (title : String → Option String) (body : RuleBody) : RuleBody :=
  { body with grammar := body.grammar.retitle title }

namespace Store

variable {s : Store}

/-- The store in which all bodies of rules have other titles. -/
def retitle (title : String → Option String) (s : Store) : Store :=
  ⟨s.arenas.map fun a => { a with slots := a.slots.map (Option.map (RuleBody.retitle title)) }⟩

theorem body?_retitle (title : String → Option String) (handle : Handle) :
    (s.retitle title).body? handle = (s.body? handle).map (RuleBody.retitle title) := by
  simp only [body?, arena?, retitle, List.getElem?_map]
  cases s.arenas[handle.arena]? with
  | none => rfl
  | some a =>
    by_cases ha : a.isAlive = true
    · have ha' : a.owners != 0 := ha
      cases hslot : a.slots[handle.slot]? with
      | none => simp [Arena.isAlive, ha', hslot]
      | some body => simp [Arena.isAlive, ha', hslot]
    · have ha' : (a.owners != 0) = false := Bool.eq_false_iff.mpr ha
      simp [Arena.isAlive, ha']

theorem ruleCount_retitle (title : String → Option String) :
    (s.retitle title).ruleCount = s.ruleCount := by
  simp [ruleCount, retitle, List.foldl_map, Arena.declared]

/-- Rules with the titles that they had are what they were. -/
theorem rules_retitle_some (s : Store) : (s.retitle some).rules = s.rules := by
  funext handle
  rw [rules, rules, body?_retitle, Option.map_map]
  congr 1
  funext body call
  exact body.grammar.parser_retitle_some _

theorem parser_retitle_some (s : Store) : (s.retitle some).parser = s.parser := by
  funext handle
  rw [parser, parser, rules_retitle_some, ruleCount_retitle]

end Store

open Likeness

variable {R : Likeness} {a b : String → Option String}

theorem Likeness.Scopes.bodyScope {call call' : Handle → Parser Value}
    (h : ∀ handle, R.Parsers (call handle) (call' handle)) (handles : List (String × Handle)) :
    R.Scopes (Store.bodyScope handles call) (Store.bodyScope handles call') := by
  intro name
  rw [Store.bodyScope, Store.bodyScope]
  split
  · exact h _
  · exact .undefinedRule

/-- A rule under titles that are alike has bodies that are. -/
theorem Store.bodies_alike (s : Store) (h : R.Retitles a b)
    (hwords : ∀ handle body, s.body? handle = some body → ∀ w ∈ body.grammar.wordings, R.words w)
    (handle : Handle) :
    Option.Rel R.Bodies ((s.retitle a).rules handle) ((s.retitle b).rules handle) := by
  rw [rules, rules, body?_retitle, body?_retitle]
  cases hbody : s.body? handle with
  | none => exact .none
  | some body =>
    exact .some fun _ _ hcall => body.grammar.parsers_alike h (hwords handle body hbody)
      (.bodyScope hcall body.handles)

theorem Store.parsers_alike (s : Store) (h : R.Retitles a b)
    (hwords : ∀ handle body, s.body? handle = some body → ∀ w ∈ body.grammar.wordings, R.words w)
    (handle : Handle) :
    R.Parsers ((s.retitle a).parser handle) ((s.retitle b).parser handle) := by
  intro t ht
  rw [parser, parser, Rules.parser, Rules.parser, ruleCount_retitle, ruleCount_retitle]
  exact nested_rules (s.bodies_alike h hwords) _ handle t ht

/-- The words that a description and the rules of a store bring into diagnostics. -/
def Store.Words (s : Store) (g : Grammar) (w : Wording) : Prop :=
  w ∈ g.wordings ∨ ∃ handle body, s.body? handle = some body ∧ w ∈ body.grammar.wordings

/-- A description in which names stand for rules of a store, under titles that are alike. -/
theorem Store.described_alike (s : Store) (handles : List (String × Handle)) (g : Grammar)
    (h : R.Retitles a b) (hwords : ∀ w, s.Words g w → R.words w) :
    R.Parsers ((g.retitle a).parser (bodyScope handles (s.retitle a).parser))
      ((g.retitle b).parser (bodyScope handles (s.retitle b).parser)) := by
  have hrules := s.parsers_alike h fun handle body hbody w hw =>
    hwords w (Or.inr ⟨handle, body, hbody, hw⟩)
  exact g.parsers_alike h (fun w hw => hwords w (Or.inl hw)) (.bodyScope hrules handles)

end Descent
