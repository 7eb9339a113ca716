import Descent.Proofs.Grammar.Likeness
import Descent.Proofs.Parser.Recursion

/-!
# Rules in descriptions

The rules of a group refer to each other by their slots. Where names are distinct it does not matter
which rule has which slot, so the order of the rules does not show (`Grammar.parser_rules_perm`). A
description of one rule that refers to itself is a group of one (`Grammar.fix_agrees_rules`), and
its parser is its body, in which its name stands for that parser (`Grammar.fix_agrees_body`).
-/

namespace Descent

open Likeness

variable {s : Text} {scope scope' : Scope} {family : List Declaration} {d : Declaration}
  {name : String} {slot : Nat}

/-! ## Descriptions whose runs are cut short -/

/-- A span around a run that was cut short is cut short with it. -/
theorem Likeness.cutShort_titles (s : Text) (title : Option String) :
    (cutShort s).Titles title title := by
  rintro _ t inside _ outcome outcome' houtcome rfl
  rw [houtcome.eq]
  rfl

theorem Likeness.cutShort_retitles (s : Text) : (cutShort s).Retitles some some where
  titles name := cutShort_titles s (some name)
  json := cutShort_titles s (some Json.valueName)
  version := cutShort_titles s (some Version.versionName)
  value _ := trivial
  code _ := trivial
  limit := trivial

theorem Grammar.cutShort_alike (g : Grammar) (hscope : (cutShort s).Scopes scope scope') :
    (cutShort s).Parsers (g.parser scope) (g.parser scope') :=
  g.alike (cutShort_retitles s) (fun _ => trivial) hscope

/-- Where calls are cut short, the names in a scope are at most cut short themselves. -/
def Scope.Regular (scope : Scope) : Prop := ∀ s, (cutShort s).Scopes scope scope

/-! ## Groups of rules -/

namespace Declaration

/-- The body of a rule that is defined. -/
def body? : Declaration → Option Grammar
  | undefined _ => none
  | defined _ body => some body

theorem bodies_eq_map (family : List Declaration) (names : List String) (scope : Scope) :
    Declaration.bodies family names scope =
      family.map fun d => d.body?.map fun body slots =>
        body.parser (scope.bindSlots names slots) := by
  induction family with
  | nil => rfl
  | cons d others ih => cases d <;> simp [Declaration.bodies, body?, ih]

/-- The rules of a group, by their slots. -/
def rules (family : List Declaration) (scope : Scope) : Rules Nat Value := fun slot =>
  (family[slot]?.bind body?).map fun body slots =>
    body.parser (scope.bindSlots (family.map Declaration.name) slots)

theorem rules_eq (family : List Declaration) (scope : Scope) :
    (fun slot => (Declaration.bodies family (family.map Declaration.name) scope)[slot]?.join) =
      rules family scope := by
  funext slot
  rw [rules, bodies_eq_map, List.getElem?_map]
  cases family[slot]? <;> rfl

/-- What a rule does where names stand for the given parsers. A rule without a body fails. -/
def use (d : Declaration) (scope : Scope) : Parser Value :=
  d.body?.elim Parser.undefinedRule fun body => body.parser scope

theorem use_alike {R : Likeness} (h : R.Retitles some some) (hwords : ∀ w, R.words w)
    (hscope : R.Scopes scope scope') (d : Declaration) :
    R.Parsers (d.use scope) (d.use scope') := by
  cases d with
  | undefined name => exact .undefinedRule
  | defined name body => exact body.alike h hwords hscope

theorem cutShort_use (d : Declaration) (hscope : (cutShort s).Scopes scope scope') :
    (cutShort s).Parsers (d.use scope) (d.use scope') :=
  use_alike (cutShort_retitles s) (fun _ => trivial) hscope d

theorem body_rules (h : family[slot]? = some d) :
    (rules family scope).body slot = fun slots =>
      d.use (scope.bindSlots (family.map Declaration.name) slots) := by
  rw [Rules.body, rules, h]
  cases d <;> rfl

/-- A slot that has a name has a rule of that name. -/
theorem exists_of_idxOf? (h : (family.map Declaration.name).idxOf? name = some slot) :
    ∃ d, family[slot]? = some d ∧ d.name = name := by
  obtain ⟨hlt, hname, -⟩ := List.idxOf?_eq_some_iff.mp h
  rw [List.length_map] at hlt
  rw [List.getElem_map] at hname
  exact ⟨family[slot], List.getElem?_eq_getElem hlt, hname⟩

/-- If names are distinct, then the slot of a rule is the one that its name stands for. -/
theorem idxOf?_name (hdistinct : (family.map Declaration.name).Nodup)
    (h : family[slot]? = some d) : (family.map Declaration.name).idxOf? d.name = some slot := by
  obtain ⟨hlt, rfl⟩ := List.getElem?_eq_some_iff.mp h
  have hlt' : slot < (family.map Declaration.name).length := by rwa [List.length_map]
  refine List.idxOf?_eq_some_iff.mpr ⟨hlt', List.getElem_map _, fun other hother heq => ?_⟩
  rw [← List.getElem_map Declaration.name (h := hlt'), hdistinct.getElem_inj_iff] at heq
  omega

theorem definedIn_range (family : List Declaration) (scope : Scope) :
    (rules family scope).DefinedIn (List.range family.length) := by
  intro slot hslot
  rw [List.mem_range]
  by_contra hlt
  rw [rules, List.getElem?_eq_none (Nat.le_of_not_lt hlt)] at hslot
  cases hslot

theorem deepEnough_rules (family : List Declaration) (scope : Scope) :
    (rules family scope).DeepEnough fun s => family.length * (s.length + 1) + 1 :=
  Rules.deepEnough_count (definedIn_range family scope) List.length_range.le

theorem rules_alike {R : Likeness} (h : R.Retitles some some) (hwords : ∀ w, R.words w)
    (hscope : R.Scopes scope scope') (family : List Declaration) (slot : Nat) :
    R.Bodies ((rules family scope).body slot) ((rules family scope').body slot) := by
  intro _ _ hcall
  cases hd : family[slot]? with
  | some d =>
    rw [body_rules hd, body_rules hd]
    exact use_alike h hwords (hscope.bindSlots _ hcall) d
  | none =>
    rw [Rules.body, Rules.body, rules, rules, hd]
    exact .undefinedRule

theorem rules_regular (family : List Declaration) (hscope : scope.Regular) :
    (rules family scope).Regular :=
  fun s => rules_alike (cutShort_retitles s) (fun _ => trivial) (hscope s) family

end Declaration

/-! ### Orders of rules -/

namespace Declaration

variable {family' : List Declaration} {slots slots' : Nat → Parser Value}

/-- A name stands for the same in another order of rules, where each rule has its parser. -/
theorem bindSlots_perm (hdistinct : (family.map Declaration.name).Nodup)
    (hperm : family'.Perm family)
    (hslots : ∀ slot slot' d, family[slot]? = some d → family'[slot']? = some d →
      slots' slot' = slots slot) :
    scope.bindSlots (family'.map Declaration.name) slots' =
      scope.bindSlots (family.map Declaration.name) slots := by
  have hnames := hperm.map Declaration.name
  funext name
  cases hname : (family.map Declaration.name).idxOf? name with
  | none =>
    have hname' : (family'.map Declaration.name).idxOf? name = none := by
      rw [List.idxOf?_eq_none_iff] at hname ⊢
      exact fun hmem => hname (hnames.mem_iff.mp hmem)
    rw [Scope.bindSlots, Scope.bindSlots, hname, hname']
  | some slot =>
    obtain ⟨d, hd, rfl⟩ := exists_of_idxOf? hname
    have hmem : d ∈ family' := hperm.mem_iff.mpr (List.mem_of_getElem? hd)
    obtain ⟨slot', hd'⟩ := List.mem_iff_getElem?.mp hmem
    rw [Scope.bindSlots, Scope.bindSlots, hname, idxOf?_name (hnames.nodup_iff.mpr hdistinct) hd']
    exact hslots slot slot' d hd hd'

/-- However deep calls may nest, a rule does the same in another slot. -/
theorem nested_rules_perm (hdistinct : (family.map Declaration.name).Nodup)
    (hperm : family'.Perm family) (n : Nat) {slot' : Nat} (hd : family[slot]? = some d)
    (hd' : family'[slot']? = some d) :
    (rules family' scope).nested n slot' = (rules family scope).nested n slot := by
  induction n generalizing slot slot' d with
  | zero => rfl
  | succ n ih =>
    rw [Rules.nested_succ, Rules.nested_succ, body_rules hd, body_rules hd']
    exact congrArg d.use (bindSlots_perm hdistinct hperm fun _ _ _ he he' => ih he he')

end Declaration

/-- A group has the same parser in another order of its rules. -/
theorem Grammar.parser_rules_perm {family' : List Declaration}
    (hdistinct : (family.map Declaration.name).Nodup) (hperm : family'.Perm family)
    (start : String) (scope : Scope) :
    (Grammar.rules start family').parser scope = (Grammar.rules start family).parser scope := by
  rw [Grammar.parser, Grammar.parser, Declaration.rules_eq, Declaration.rules_eq,
    (hperm.map Declaration.name).length_eq]
  refine congrFun (Declaration.bindSlots_perm hdistinct hperm fun slot slot' d hd hd' => ?_) start
  funext s
  rw [Rules.parser, Rules.parser, Declaration.nested_rules_perm hdistinct hperm _ hd hd']

theorem Scope.bindSlots_agrees {names : List String} {slots slots' : Nat → Parser Value}
    (h : ∀ slot, (slots slot s).Agrees (slots' slot s)) (name : String) :
    (scope.bindSlots names slots name s).Agrees (scope.bindSlots names slots' name s) := by
  rw [Scope.bindSlots, Scope.bindSlots]
  cases names.idxOf? name with
  | none => exact .refl _
  | some slot => exact h slot

/-- It does not matter to a group what the names of its rules stand for outside. -/
theorem Grammar.parser_rules_congr
    (h : ∀ name ∉ family.map Declaration.name, scope name = scope' name) (start : String) :
    (Grammar.rules start family).parser scope = (Grammar.rules start family).parser scope' := by
  have hbind (slots : Nat → Parser Value) :
      scope.bindSlots (family.map Declaration.name) slots =
        scope'.bindSlots (family.map Declaration.name) slots := by
    funext name
    cases hname : (family.map Declaration.name).idxOf? name with
    | none =>
      rw [Scope.bindSlots, Scope.bindSlots, hname]
      exact h name (List.idxOf?_eq_none_iff.mp hname)
    | some slot => rw [Scope.bindSlots, Scope.bindSlots, hname]
  have hrules : Declaration.rules family scope = Declaration.rules family scope' := by
    funext slot
    simp only [Declaration.rules, hbind]
  rw [Grammar.parser, Grammar.parser, Declaration.rules_eq, Declaration.rules_eq, hbind, hrules]

/-- The start of a group is the rule in the slot of its name. -/
theorem Grammar.parser_rules (h : (family.map Declaration.name).idxOf? name = some slot) :
    (Grammar.rules name family).parser scope =
      (Declaration.rules family scope).parser family.length slot := by
  rw [Grammar.parser, Declaration.rules_eq, Scope.bindSlots, h, List.length_map]

/-! ## A rule that refers to itself -/

theorem Scope.bindSlots_singleton (scope : Scope) (name : String) (slots : Nat → Parser Value) :
    scope.bindSlots [name] slots = scope.bind name (slots 0) := by
  funext other
  rw [Scope.bindSlots, Scope.bind, List.idxOf?_cons]
  by_cases h : other = name
  · simp [h]
  · simp [h, Ne.symm h]

/-- A rule that refers to itself, as the only rule of a group. -/
theorem nested_rules_defined (name : String) (body : Grammar) (scope : Scope) (n : Nat) :
    (Declaration.rules [.defined name body] scope).nested n 0 =
      Parser.nested (fun self => body.parser (scope.bind name self)) n := by
  induction n with
  | zero => rfl
  | succ n ih =>
    funext s
    rw [Parser.nested, ← ih, ← Scope.bindSlots_singleton]
    rfl

section Fix

variable (hscope : scope.Regular) (name : String) (body : Grammar)

include hscope

theorem regular_fix :
    (Rules.single fun self => body.parser (scope.bind name self)).Regular :=
  Rules.regular_single fun s _ _ h => body.cutShort_alike ((hscope s).bind name h)

/-- The parser of a rule that refers to itself is its body, in which its name stands for it. -/
theorem Grammar.fix_agrees_body (s : Text) :
    ((Grammar.fix name body).parser scope s).Agrees
      (body.parser (scope.bind name ((Grammar.fix name body).parser scope)) s) := by
  rw [Grammar.parser, Rules.fix_eq_upTo]
  exact (regular_fix hscope name body).upTo_agrees (Rules.deepEnough_single fun _ => le_rfl) () s

/-- A rule that refers to itself is the only rule of a group. -/
theorem Grammar.fix_agrees_rules (s : Text) :
    ((Grammar.fix name body).parser scope s).Agrees
      ((Grammar.rules name [.defined name body]).parser scope s) := by
  have hslot : ([Declaration.defined name body].map Declaration.name).idxOf? name = some 0 := by
    simp [Declaration.name, List.idxOf?_cons]
  have hgroup : (Grammar.rules name [.defined name body]).parser scope =
      (Rules.single fun self => body.parser (scope.bind name self)).upTo
        (fun s => 1 * (s.length + 1) + 1) () := by
    funext s
    rw [Grammar.parser_rules hslot, Rules.upTo, Rules.nested_single, ← nested_rules_defined]
    rfl
  rw [hgroup, Grammar.parser, Rules.fix_eq_upTo]
  exact (regular_fix hscope name body).upTo_agrees_upTo (Rules.deepEnough_single fun _ => le_rfl)
    (Rules.deepEnough_single fun _ => by omega) s ()

end Fix

end Descent
