import Descent.Proofs.Arena.Likeness
import Descent.Proofs.Grammar.Rules

/-!
# What a handle resolves to

A handle whose rule has a body runs the body, in which every name that refers to a rule runs that
rule. There are no more rules than the store counts, so the bound on nested calls does not show. Any
other handle fails, and warns.
-/

namespace Descent.Store

open Likeness

theorem rules_regular (s : Store) : s.rules.Regular := by
  intro t handle _ _ hcall
  rw [Rules.body, rules]
  cases s.body? handle with
  | none => exact .undefinedRule
  | some body => exact body.grammar.cutShort_alike (.bodyScope hcall body.handles)

/-- The handles of all rules in arenas. -/
def ruleHandles (s : Store) : List Handle :=
  s.arenas.zipIdx.flatMap fun (a, id) => (List.range a.declared).map (Handle.mk id)

theorem length_ruleHandles (s : Store) : s.ruleHandles.length = s.ruleCount := by
  have hcount : s.ruleCount = (s.arenas.map Arena.declared).sum := by
    rw [ruleCount, List.sum_eq_foldl, List.foldl_map]
  rw [hcount, ruleHandles, List.length_flatMap]
  simp only [List.length_map, List.length_range]
  conv_rhs => rw [← List.zipIdx_map_fst 0 s.arenas, List.map_map]
  rfl

theorem definedIn_ruleHandles (s : Store) : s.rules.DefinedIn s.ruleHandles := by
  intro h hdefined
  rw [rules, Option.isSome_map, Option.isSome_iff_exists] at hdefined
  obtain ⟨body, hbody⟩ := hdefined
  rw [body?_eq] at hbody
  obtain ⟨a, ha, hjoin⟩ := Option.bind_eq_some_iff.mp hbody
  obtain ⟨hslot, -⟩ := List.getElem?_eq_some_iff.mp (Option.join_eq_some_iff.mp hjoin)
  refine List.mem_flatMap.mpr ⟨(a, h.arena), ?_, ?_⟩
  · exact List.mk_mem_zipIdx_iff_getElem?.mpr (arena?_eq_some_iff.mp ha).1
  · exact List.mem_map.mpr ⟨h.slot, List.mem_range.mpr hslot, rfl⟩

/-- There are no more rules than the store counts. -/
theorem deepEnough_ruleCount (s : Store) :
    s.rules.DeepEnough fun input => s.ruleCount * (input.length + 1) + 1 :=
  Rules.deepEnough_count s.definedIn_ruleHandles s.length_ruleHandles.le

variable {s : Store} {h : Handle}

theorem body_rules {body : RuleBody} (hbody : s.body? h = some body) :
    s.rules.body h = fun call => body.grammar.parser (bodyScope body.handles call) := by
  rw [Rules.body, rules, hbody]
  rfl

/-- A handle that finds a body runs it, with the rules of the store for the names in it. -/
theorem parser_agrees {body : RuleBody} (hbody : s.body? h = some body) (input : Text) :
    (s.parser h input).Agrees (body.grammar.parser (bodyScope body.handles s.parser) input) := by
  have hagrees := s.rules_regular.upTo_agrees s.deepEnough_ruleCount h input
  rwa [body_rules hbody] at hagrees

/-- A handle that finds no body fails, with a warning. -/
theorem parser_of_body?_eq_none (hbody : s.body? h = none) :
    s.parser h = Parser.undefinedRule := by
  have hrule : s.rules h = none := by
    rw [rules, hbody]
    rfl
  funext input
  rw [parser, Rules.parser, Rules.nested_of_none hrule]

end Descent.Store
