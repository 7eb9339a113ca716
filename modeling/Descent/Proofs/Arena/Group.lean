import Descent.Proofs.Arena.Resolution

/-!
# Groups of rules in a store

A store holds a group of rules if each of them has a handle, which finds its body, and in the bodies
the names stand for these handles. Then the handle of a rule comes to the same as the group that
starts with the rule, whatever the slots of the rules are (`Store.Holds.agrees`). A run on the one
side is approximated by how deep its calls nest, and followed call by call on the other.
-/

namespace Descent

open Likeness

/-- Every rule of a group has a handle in a table, and a store has the bodies of those that are
defined. The names in them stand for handles in the table. -/
def Store.Holds (w : Store) (handles : Table Handle) (family : List Declaration) : Prop :=
  ∀ d ∈ family, ∃ h, Table.get? handles d.name = some h ∧
    w.body? h = d.body?.map fun body => ⟨body, handles⟩

namespace Store

variable {w : Store} {handles : Table Handle} {family : List Declaration} {d : Declaration}
  {s : Text} {h : Handle} {slot : Nat}

theorem nested_cutShort (w : Store) (s : Text) (n : Nat) (h : Handle) :
    (cutShort s).Parsers (w.rules.nested n h) (w.parser h) :=
  w.rules_regular.nested_upTo w.deepEnough_ruleCount s n h

theorem regular_bodyScope (w : Store) (handles : Table Handle) :
    (bodyScope handles w.parser).Regular :=
  fun s => .bodyScope (w.rules_regular.cutShort_upTo _ s) handles

namespace Holds

/-- A handle does what its rule does. -/
theorem body_rules (hw : w.Holds handles family) (hd : d ∈ family)
    (hh : Table.get? handles d.name = some h) :
    w.rules.body h = fun call => d.use (bodyScope handles call) := by
  obtain ⟨g, hg, hbody⟩ := hw d hd
  obtain rfl : g = h := Option.some.inj (hg.symm.trans hh)
  rw [Rules.body, rules, hbody]
  cases d <;> rfl

/-- A name in a body stands for a rule of the group, which has a slot and a handle, or it does not
belong to the group. -/
theorem name_cases (hw : w.Holds handles family) (name : String) :
    (∃ slot d h, family[slot]? = some d ∧ Table.get? handles d.name = some h ∧
      (∀ scope slots, Scope.bindSlots scope (family.map Declaration.name) slots name = slots slot) ∧
      ∀ call, bodyScope handles call name = call h) ∨
    ∀ scope slots, Scope.bindSlots scope (family.map Declaration.name) slots name = scope name := by
  cases hname : (family.map Declaration.name).idxOf? name with
  | none =>
    right
    intro scope slots
    rw [Scope.bindSlots, hname]
  | some slot =>
    left
    obtain ⟨d, hd, rfl⟩ := Declaration.exists_of_idxOf? hname
    obtain ⟨h, hh, -⟩ := hw d (List.mem_of_getElem? hd)
    have hlookup : handles.lookup d.name = some h := hh
    refine ⟨slot, d, h, hd, hh, fun scope slots => ?_, fun call => ?_⟩
    · rw [Scope.bindSlots, hname]
    · rw [bodyScope, hlookup]

/-- What a handle does, as deep as calls may nest, the group does. -/
theorem nested_handle (hw : w.Holds handles family) (n : Nat) (hd : family[slot]? = some d)
    (hh : Table.get? handles d.name = some h) :
    (cutShort s).Parsers (w.rules.nested n h)
      ((Declaration.rules family (bodyScope handles w.parser)).nested n slot) := by
  induction n generalizing slot d h with
  | zero => exact fun _ _ => .of_diverges trivial rfl
  | succ n ih =>
    rw [Rules.nested_succ, Rules.nested_succ, hw.body_rules (List.mem_of_getElem? hd) hh,
      Declaration.body_rules hd]
    refine d.cutShort_use fun name => ?_
    rcases hw.name_cases name with ⟨other, e, g, he, hg, hslots, hcall⟩ | hfree
    · rw [hslots, hcall]
      exact ih he hg
    · rw [hfree]
      exact Scopes.bodyScope (w.nested_cutShort s n) handles name

/-- What the group does, as deep as calls may nest, a handle does. -/
theorem nested_slot (hw : w.Holds handles family) (n : Nat) (hd : family[slot]? = some d)
    (hh : Table.get? handles d.name = some h) :
    (cutShort s).Parsers ((Declaration.rules family (bodyScope handles w.parser)).nested n slot)
      (w.parser h) := by
  induction n generalizing slot d h with
  | zero => exact fun _ _ => .of_diverges trivial rfl
  | succ n ih =>
    have hbody := w.rules_regular.body_upTo w.deepEnough_ruleCount s h
    rw [hw.body_rules (List.mem_of_getElem? hd) hh] at hbody
    rw [Rules.nested_succ, Declaration.body_rules hd]
    refine Parsers.trans (d.cutShort_use fun name => ?_) hbody
    rcases hw.name_cases name with ⟨other, e, g, he, hg, hslots, hcall⟩ | hfree
    · rw [hslots, hcall]
      exact ih he hg
    · rw [hfree]
      exact w.regular_bodyScope handles s name

/-- The handle of a rule comes to the same as the group that starts with the rule. -/
theorem agrees (hw : w.Holds handles family)
    (hdistinct : (family.map Declaration.name).Nodup) (hd : d ∈ family)
    (hh : Table.get? handles d.name = some h) (s : Text) :
    ((Grammar.rules d.name family).parser (bodyScope handles w.parser) s).Agrees
      (w.parser h s) := by
  obtain ⟨slot, hslot⟩ := List.mem_iff_getElem?.mp hd
  have hregular := Declaration.rules_regular family (w.regular_bodyScope handles)
  have hdepth := Declaration.deepEnough_rules family (bodyScope handles w.parser)
  rw [Grammar.parser_rules (Declaration.idxOf?_name hdistinct hslot), Rules.parser_eq_upTo]
  obtain ⟨n, hn⟩ := hregular.exists_upTo_nested hdepth s
  obtain ⟨m, hm⟩ := w.rules_regular.exists_upTo_nested w.deepEnough_ruleCount s
  have hforth := (hn slot).trans (hw.nested_slot n hslot hh)
  have hback := (hm h).trans (hw.nested_handle m hslot hh)
  exact hforth.agrees (hback.trans (hregular.nested_upTo hdepth s m slot))

end Holds
end Store
end Descent
