import Descent.Proofs.Arena.Arrangement
import Descent.Proofs.Grammar.Undefined

/-!
# The order of rules, and rules that are missing

Which slots the rules of a group have in an arena depends on the order of their declaration. What
they do does not: a group of rules with distinct names is the same in any order of declarations and
definitions, because each arena that holds it comes to the same as the group. A rule of the group
that is left without a body fails like a rule that has a body which does nothing but fail, and warns
at each use (`Session.rule_order`).
-/

namespace Descent.Session

variable {t : Session} {family : List Declaration} {name : String}

/-- What a name of a handle stands for. -/
def parser? (t : Session) (name : String) : Option (Parser Value) :=
  (Table.get? t.handles name).map t.store.parser

/-- A session that has put a group of rules into its arena: it declared them in some order, and then
it defined those that have bodies in some order. -/
def Arranges (t : Session) (family : List Declaration) : Prop :=
  ∃ names definitions, names.Perm (family.map Declaration.name) ∧
    definitions.Perm (family.filterMap Declaration.definition?) ∧
    t = start.after (arrange names definitions)

namespace Arranges

theorem holds (ht : t.Arranges family) (hdistinct : (family.map Declaration.name).Nodup) :
    t.store.Holds t.handles family ∧
      ∀ name ∉ family.map Declaration.name, Table.get? t.handles name = none := by
  obtain ⟨names, definitions, hnames, hdefinitions, rfl⟩ := ht
  exact holds_arrange HoldsArena.start hdistinct hnames hdefinitions

/-- A rule comes to the same as the group that starts with it. -/
theorem exists_agrees (ht : t.Arranges family) (hdistinct : (family.map Declaration.name).Nodup)
    (hname : name ∈ family.map Declaration.name) :
    ∃ p, t.parser? name = some p ∧
      ∀ s, ((Grammar.rules name family).parser Scope.empty s).Agrees (p s) := by
  obtain ⟨hholds, hfree⟩ := ht.holds hdistinct
  obtain ⟨d, hd, rfl⟩ := List.mem_map.mp hname
  obtain ⟨h, hh, -⟩ := hholds d hd
  refine ⟨t.store.parser h, by rw [parser?, hh, Option.map_some], fun s => ?_⟩
  have hscope : ∀ other ∉ family.map Declaration.name,
      Scope.empty other = Store.bodyScope t.handles t.store.parser other := fun other hother => by
    have hnone : t.handles.lookup other = none := hfree other hother
    rw [Store.bodyScope, hnone, Scope.empty]
  rw [Grammar.parser_rules_congr hscope]
  exact hholds.agrees hdistinct hd hh s

/-- A rule that has no body warns, and fails. -/
theorem parser?_undefined (ht : t.Arranges family)
    (hdistinct : (family.map Declaration.name).Nodup) {absent : String}
    (habsent : .undefined absent ∈ family) : t.parser? absent = some Parser.undefinedRule := by
  obtain ⟨h, hh, hbody⟩ := (ht.holds hdistinct).1 _ habsent
  rw [Declaration.name] at hh
  rw [parser?, hh, Option.map_some, Store.parser_of_body?_eq_none hbody]

end Arranges

/-- Let the rules of a group have distinct names. In whatever orders they are declared in an arena
and defined, a rule comes to the same; and so it does in whatever order they stand in a description.

To leave a rule undefined is to give it a body that makes it fail on every text, with the message
that a rule without a body has: no outcome changes, as far as can be seen. The events are the same,
too, except for those at each use of the rule. For there is a log that notes the uses, which does
not depend on the body: a run shows it with a warning for each use if the rule is left undefined,
and otherwise with what the rule reports. -/
theorem rule_order (hdistinct : (family.map Declaration.name).Nodup)
    (hname : name ∈ family.map Declaration.name) :
    (∀ t t' : Session, t.Arranges family → t'.Arranges family →
      ∃ p p', t.parser? name = some p ∧ t'.parser? name = some p' ∧ ∀ s, (p s).Agrees (p' s)) ∧
    (∀ family' scope, family'.Perm family →
      (Grammar.rules name family').parser scope = (Grammar.rules name family).parser scope) ∧
    ∀ absent, .undefined absent ∈ family → ∀ t : Session, t.Arranges family →
      t.parser? absent = some Parser.undefinedRule ∧
      ∃ p, t.parser? name = some p ∧ ∀ s, ∃ log : List Entry, (p s).Shows log Entry.warning ∧
        ∀ body, ∀ t' : Session, t'.Arranges (family.map (.fill absent body)) →
          ∃ p' q, t'.parser? name = some p' ∧ t'.parser? absent = some q ∧
            (q.FailsUndefined →
              Outcome.Rel Failure.SameMessage (p s).outcome (p' s).outcome ∧
                (p' s).Shows log fun input => (q input).events) := by
  refine ⟨fun t t' ht ht' => ?_, fun family' scope hperm => ?_, fun absent habsent t ht => ?_⟩
  · obtain ⟨p, hp, hagrees⟩ := ht.exists_agrees hdistinct hname
    obtain ⟨p', hp', hagrees'⟩ := ht'.exists_agrees hdistinct hname
    exact ⟨p, p', hp, hp', fun s => (hagrees s).symm.trans (hagrees' s)⟩
  · exact Grammar.parser_rules_perm hdistinct hperm name scope
  · obtain ⟨p, hp, hagrees⟩ := ht.exists_agrees hdistinct hname
    refine ⟨ht.parser?_undefined hdistinct habsent, p, hp, fun s => ?_⟩
    obtain ⟨log, hlog, hfill⟩ := Grammar.rules_fill hdistinct habsent name s
    refine ⟨log, hlog.of_agrees (hagrees s), fun body t' ht' => ?_⟩
    have hnames := Declaration.names_fill absent body family
    have habsent' : absent ∈ family.map Declaration.name := List.mem_map_of_mem habsent
    obtain ⟨p', hp', hagrees'⟩ := ht'.exists_agrees (hnames ▸ hdistinct) (hnames ▸ hname)
    obtain ⟨q, hq, hagrees''⟩ := ht'.exists_agrees (hnames ▸ hdistinct) (hnames ▸ habsent')
    refine ⟨p', q, hp', hq, fun hfails => ?_⟩
    -- A rule that always fails does so in the group as well, with the same events.
    have hsame :
        (Grammar.rules absent (family.map (.fill absent body))).parser Scope.empty = q := by
      funext input
      obtain ⟨f, hf, -⟩ := hfails input
      exact ((hagrees'' input).symm.2 (by simp [hf]))
    obtain ⟨houtcome, hlog'⟩ := hfill body (hsame ▸ hfails)
    rw [← (hagrees s).1, ← (hagrees' s).1] at houtcome
    rw [hsame] at hlog'
    exact ⟨houtcome, hlog'.of_agrees (hagrees' s)⟩

/-- A list may contain a list, and it may be a number. The rule for numbers is missing, or it always
fails; to read an empty list uses it twice. -/
theorem rule_order_lists :
    let list : Grammar :=
      .orElse (.rule "number") (.bracket (.char '(') (.rule "inner") (.char ')'))
    let inner : Grammar := .optional (.rule "list")
    let failing : Grammar := .report "Recursive parser invoked before it was defined"
    let family : List Declaration :=
      [.defined "list" list, .undefined "number", .defined "inner" inner]
    let t := start.after (arrange ["list", "number", "inner"] [("list", list), ("inner", inner)])
    let t' := start.after (arrange ["number", "list", "inner"] [("inner", inner), ("list", list)])
    let u := start.after
      (arrange ["list", "number", "inner"] [("list", list), ("number", failing), ("inner", inner)])
    (family.map Declaration.name).Nodup ∧ "list" ∈ family.map Declaration.name ∧
      t.Arranges family ∧ t'.Arranges family ∧ u.Arranges (family.map (.fill "number" failing)) ∧
      (∃ p p', t.parser? "list" = some p ∧ t'.parser? "list" = some p' ∧
        ∀ s, (p s).Agrees (p' s)) ∧
      ∃ p p', t.parser? "list" = some p ∧ u.parser? "list" = some p' ∧
        p "()".toList = ⟨.success .none [], [⟨.undefinedRule, []⟩, ⟨.undefinedRule, []⟩]⟩ ∧
        ∀ s, Outcome.Rel Failure.SameMessage (p s).outcome (p' s).outcome ∧
          ∃ log : List Entry, (p s).Shows log Entry.warning ∧ (p' s).Shows log fun _ => [] := by
  intro list inner failing family t t' u
  have ht : t.Arranges family := ⟨_, _, .refl _, .refl _, rfl⟩
  have ht' : t'.Arranges family := ⟨_, _, .swap _ _ _, .swap _ _ _, rfl⟩
  have hu : u.Arranges (family.map (.fill "number" failing)) := ⟨_, _, .refl _, .refl _, rfl⟩
  have hdistinct : (family.map Declaration.name).Nodup := by decide
  have hname : "list" ∈ family.map Declaration.name := by decide
  have hnumber : .undefined "number" ∈ family := List.mem_cons_of_mem _ List.mem_cons_self
  obtain ⟨horder, -, hundefined⟩ := rule_order hdistinct hname
  obtain ⟨-, p, hp, hlogs⟩ := hundefined "number" hnumber t ht
  obtain rfl : t.store.parser ⟨0, 0⟩ = p := Option.some.inj hp
  refine ⟨hdistinct, hname, ht, ht', hu, horder t t' ht ht', _, u.store.parser ⟨0, 0⟩, rfl, rfl,
    rfl, fun s => ?_⟩
  obtain ⟨log, hlog, hfill⟩ := hlogs s
  obtain ⟨p', q, hp', hq, hsame⟩ := hfill failing u hu
  obtain rfl : u.store.parser ⟨0, 0⟩ = p' := Option.some.inj hp'
  obtain rfl : u.store.parser ⟨0, 1⟩ = q := Option.some.inj hq
  obtain ⟨houtcome, hlog'⟩ := hsame fun input => ⟨_, rfl, rfl⟩
  exact ⟨houtcome, log, hlog, hlog'⟩

end Descent.Session
