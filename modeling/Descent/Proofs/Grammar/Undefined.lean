import Descent.Proofs.Grammar.Rules
import Descent.Proofs.Grammar.Spans

/-!
# Rules without a body

A rule without a body is a rule that fails, and that warns at each use. If it is given a body that
makes it fail on every text, with the same message, then no outcome changes, as far as can be seen;
and in the log, what the rule reports stands where the warning stood, at each use and nowhere else
(`Grammar.rules_fill`).

A log does not tell the uses of one rule from those of another. So a run is taken in which the rule
gives, at each use, a notice that no other parser gives. With these notices exchanged for warnings
it is the run of the group in which the rule has no body; and with the same notices exchanged for
what a body reports, that of the group in which it has this body.
-/

namespace Descent

/-! ## Logs that note the uses of a rule -/

/-- Two failures that say the same. -/
def Failure.SameMessage (f f' : Failure) : Prop := f'.message = f.message

theorem Outcome.Rel.symm {α : Type} {o o' : Outcome α} (h : Rel Failure.SameMessage o o') :
    Rel Failure.SameMessage o' o := by
  cases h with
  | failure h => exact .failure (Eq.symm h)
  | success a t => exact .success a t
  | diverges => exact .diverges

theorem Outcome.Rel.trans {α : Type} {o o' o'' : Outcome α} (h : Rel Failure.SameMessage o o')
    (h' : Rel Failure.SameMessage o' o'') : Rel Failure.SameMessage o o'' := by
  cases h with
  | failure h =>
    cases h' with
    | failure h' => exact .failure (Eq.trans h' h)
  | success | diverges => exact h'

/-- What a log shows of an event. -/
def Event.shown (e : Event) : Level × String × List (String × String) × List String :=
  (e.notice.level, e.notice.message, e.notice.details, e.spans)

/-- What is noted of a run: an event, or the use of a rule on a text, inside spans. -/
inductive Entry where
  | event (e : Event)
  | use (input : Text) (spans : List String)

namespace Entry

/-- The events of an entry, if the use of the rule has the given ones. -/
def events (block : Text → List Event) : Entry → List Event
  | event e => [e]
  | use input spans => (block input).map (Event.under spans)

/-- The notice of a use. No parser gives it. -/
def sign (input : Text) : Notice := .rejected (Cause.unexpected input)

/-- An event, or the use that is noted in its place. -/
def ofEvent (e : Event) : Entry :=
  match e.notice with
  | .rejected ⟨.unexpected input, _⟩ => use input e.spans
  | _ => event e

/-- The rule whose uses are noted. -/
def noted : Parser Value := fun s => ⟨.failure Cause.undefinedRule, [⟨sign s, []⟩]⟩

/-- The warning of a rule without a body. -/
def warning (_ : Text) : List Event := [⟨.undefinedRule, []⟩]

theorem events_within (block : Text → List Event) (name : String) (e : Event) :
    (ofEvent (e.within name)).events block =
      ((ofEvent e).events block).map (Event.within name) := by
  obtain ⟨notice, spans⟩ := e
  simp only [ofEvent, Event.within]
  split
  · simp only [events, List.map_map]
    rfl
  · rfl

end Entry

/-- A run shows the entries of a log, if it ends, where the uses that are noted have the given
events. -/
def Reply.Shows {α : Type} (r : Reply α) (log : List Entry) (block : Text → List Event) : Prop :=
  r.outcome ≠ .diverges →
    r.events.map Event.shown = (log.flatMap (Entry.events block)).map Event.shown

theorem Reply.Shows.of_agrees {α : Type} {r r' : Reply α} {log : List Entry}
    {block : Text → List Event} (hr : r.Shows log block) (h : r.Agrees r') :
    r'.Shows log block := by
  intro hends
  rw [h.1] at hends
  rw [h.2 hends]
  exact hr hends

/-! ## Runs in which uses are noted -/

namespace Likeness

/-- The second run is the first, in which the uses of a rule are noted, as far as can be seen: the
rule has the given events. -/
def noting (s : Text) (block : Text → List Event) : Likeness where
  text := s
  words _ := True
  forms _ := True
  limits _ := True
  failures := Failure.SameMessage
  logs log other :=
    other.map Event.shown = ((log.map Entry.ofEvent).flatMap (Entry.events block)).map Event.shown
  cut := False
  failures_refl _ := rfl
  failures_or {f g f' g'} hf hg := by
    rw [Failure.SameMessage, Failure.message_or, Failure.message_or, hf, hg]
  logs_nil := rfl
  logs_append {a b c d} hac hbd := by
    rw [List.map_append, hac, hbd, List.map_append, List.flatMap_append, List.map_append]
  logs_undefinedRule := rfl

variable {s : Text} {block : Text → List Event}

/-- A span around both runs is around the events of uses, too. -/
theorem noting_within {log other : List Event} (h : (noting s block).logs log other)
    (name : String) :
    (noting s block).logs (log.map (Event.within name)) (other.map (Event.within name)) := by
  have hshown (events : List Event) : (events.map (Event.within name)).map Event.shown =
      (events.map Event.shown).map fun (level, message, details, spans) =>
        (level, message, details, name :: spans) := by
    rw [List.map_map, List.map_map]
    rfl
  have hevents : ((log.map (Event.within name)).map Entry.ofEvent).flatMap (Entry.events block) =
      ((log.map Entry.ofEvent).flatMap (Entry.events block)).map (Event.within name) := by
    simp only [List.flatMap_map, List.map_flatMap, Entry.events_within]
  show List.map _ _ = List.map _ _
  rw [hevents, hshown, hshown, h]

theorem noting_titles (name : String) : (noting s block).Titles (some name) (some name) := by
  intro _ t inside inside' outcome outcome' houtcome hinside
  have hattempt : (noting s block).logs [⟨.attempt t, [name]⟩] [⟨.attempt t, [name]⟩] := rfl
  have hfinish : (noting s block).logs (outcome.finish.toList.map fun notice => ⟨notice, [name]⟩)
      (outcome'.finish.toList.map fun notice => ⟨notice, [name]⟩) := by
    cases houtcome with
    | success | diverges => rfl
    | @failure f f' hf =>
      have hmessage : f'.message = f.message := hf
      show [Event.shown ⟨.failed f', [name]⟩] = [Event.shown ⟨.failed f, [name]⟩]
      simp only [Event.shown, Notice.details, hmessage]
      rfl
  exact (noting s block).logs_append hattempt
    ((noting s block).logs_append (noting_within hinside name) hfinish)

theorem noting_retitles : (noting s block).Retitles some some where
  titles := noting_titles
  json := noting_titles Json.valueName
  version := noting_titles Version.versionName
  value _ := trivial
  code _ := trivial
  limit := trivial

/-- A use that is noted, and a parser that fails with the given events. -/
theorem noted_alike {p : Parser Value} {t : Text} {f : Failure} (hp : p t = ⟨.failure f, block t⟩)
    (hmessage : f.message = Cause.undefinedRule.message) :
    (noting s block).Runs t (Entry.noted t) (p t) where
  suffix ha := by cases ha
  allows hf := by
    cases hf
    intro c hc
    rw [List.mem_singleton.mp hc]
    trivial
  akin := by
    rw [hp]
    refine Or.inl ⟨.failure hmessage, ?_⟩
    show List.map _ _ = List.map _ (List.map (Event.under []) (block t) ++ [])
    rw [Event.under_nil, List.map_id, List.append_nil]

end Likeness

/-! ## Rules without a body -/

/-- A parser that fails on every text, and says what a rule without a body says. -/
def Parser.FailsUndefined (q : Parser Value) : Prop :=
  ∀ s, ∃ f, (q s).outcome = .failure f ∧
    f.message = "Recursive parser invoked before it was defined"

namespace Declaration

variable {absent : String} {body : Grammar} {family : List Declaration} {d : Declaration}
  {a slot : Nat} {scope : Scope}

/-- A rule of the given name has the given body if it had none. -/
def fill (absent : String) (body : Grammar) : Declaration → Declaration
  | .undefined name => if name = absent then .defined name body else .undefined name
  | .defined name other => .defined name other

theorem fill_undefined (absent : String) (body : Grammar) :
    fill absent body (.undefined absent) = .defined absent body := if_pos rfl

theorem fill_of_name_ne (h : d.name ≠ absent) : d.fill absent body = d := by
  cases d with
  | undefined name => exact if_neg h
  | defined name other => rfl

theorem name_fill (d : Declaration) : (d.fill absent body).name = d.name := by
  cases d with
  | undefined name =>
    rw [fill]
    split <;> rfl
  | defined name other => rfl

theorem names_fill (absent : String) (body : Grammar) (family : List Declaration) :
    (family.map (fill absent body)).map Declaration.name = family.map Declaration.name := by
  simp [Function.comp_def, name_fill]

theorem body_rules_undefined (ha : family[a]? = some (.undefined absent)) (slot : Nat) :
    (rules family scope).body slot =
      Rules.body (Function.update (rules family scope) a (some fun _ => Parser.undefinedRule))
        slot := by
  by_cases h : slot = a
  · subst h
    rw [Rules.body_update_self, body_rules ha]
    rfl
  · rw [Rules.body_update_of_ne h]

/-- The rules of a group are those that they were, but for the one that has a body now. -/
theorem update_rules_fill (hdistinct : (family.map Declaration.name).Nodup)
    (ha : family[a]? = some (.undefined absent)) (body : Grammar) (scope : Scope)
    (use : Option ((Nat → Parser Value) → Parser Value)) :
    Function.update (rules (family.map (fill absent body)) scope) a use =
      Function.update (rules family scope) a use := by
  funext slot
  by_cases h : slot = a
  · subst h
    rw [Function.update_self, Function.update_self]
  · rw [Function.update_of_ne h, Function.update_of_ne h, rules, rules, names_fill,
      List.getElem?_map]
    cases hd : family[slot]? with
    | none => rfl
    | some d =>
      have hne : d.name ≠ absent := fun heq => by
        have hslot := idxOf?_name hdistinct hd
        rw [heq] at hslot
        exact h (Option.some.inj (hslot.symm.trans (idxOf?_name hdistinct ha)))
      rw [Option.map_some, fill_of_name_ne hne]

end Declaration

/-! ## Groups -/

section Group

variable {absent : String} {family : List Declaration} {rules : Rules Nat Value} {a : Nat}
  {p : Parser Value}

/-- The run of a group in which the uses of the rule in a slot are noted. -/
def notedRun (a : Nat) (start : String) (family : List Declaration) (s : Text) : Reply Value :=
  let noted := Function.update (Declaration.rules family Scope.empty) a (some fun _ => Entry.noted)
  Scope.empty.bindSlots (family.map Declaration.name) (Rules.parser noted family.length) start s

/-- The group in which the rule is a parser that fails, with the given events, on every text. -/
theorem notedRun_alike (block : Text → List Event)
    (hrules : ∀ slot, rules.body slot = Rules.body
      (Function.update (Declaration.rules family Scope.empty) a (some fun _ => p)) slot)
    (hp : ∀ t, ∃ f, p t = ⟨.failure f, block t⟩ ∧ f.message = Cause.undefinedRule.message)
    (start : String) (s : Text) :
    let run := notedRun a start family s
    let reply := Scope.empty.bindSlots (family.map Declaration.name)
      (rules.parser family.length) start s
    Outcome.Rel Failure.SameMessage run.outcome reply.outcome ∧
      reply.events.map Event.shown =
        ((run.events.map Entry.ofEvent).flatMap (Entry.events block)).map Event.shown := by
  intro run reply
  have hempty : (Likeness.noting s block).Scopes Scope.empty Scope.empty := fun _ => .undefinedRule
  have hbodies (slot : Nat) : (Likeness.noting s block).Bodies
      (Rules.body (Function.update (Declaration.rules family Scope.empty) a
        (some fun _ => Entry.noted)) slot)
      (rules.body slot) := by
    intro slots slots' hslots
    rw [hrules]
    by_cases h : slot = a
    · subst h
      rw [Rules.body_update_self, Rules.body_update_self]
      intro t _
      obtain ⟨f, hf, hmessage⟩ := hp t
      exact Likeness.noted_alike hf hmessage
    · rw [Rules.body_update_of_ne h, Rules.body_update_of_ne h]
      exact Declaration.rules_alike Likeness.noting_retitles (fun _ => trivial) hempty family slot
        slots slots' hslots
  have halike := hempty.bindSlots (family.map Declaration.name) fun slot t ht =>
    Likeness.nested_bodies hbodies (family.length * (t.length + 1) + 1) slot t ht
  exact (halike start s (List.suffix_refl s)).akin.resolve_right fun h => h.1

end Group

/-- A group in which a rule has been given a body, and the group in which it has its own parser in
place of the body. -/
theorem Grammar.rules_fill_agrees {family : List Declaration} {absent : String} {a : Nat}
    (hdistinct : (family.map Declaration.name).Nodup)
    (ha : family[a]? = some (.undefined absent)) (body : Grammar) (start : String) (s : Text) :
    let filled := family.map (.fill absent body)
    let q := (Grammar.rules absent filled).parser Scope.empty
    let rules := Function.update (Declaration.rules family Scope.empty) a (some fun _ => q)
    (Scope.empty.bindSlots (family.map Declaration.name) (Rules.parser rules family.length) start
      s).Agrees ((Grammar.rules start filled).parser Scope.empty s) := by
  intro filled q rules
  have ha' : filled[a]? = some (.defined absent body) := by
    rw [List.getElem?_map, ha, Option.map_some, Declaration.fill_undefined]
  have hdistinct' : (filled.map Declaration.name).Nodup := by rwa [Declaration.names_fill]
  have hregular : (Declaration.rules filled Scope.empty).Regular :=
    Declaration.rules_regular filled fun _ _ => .undefinedRule
  have hparser : q = (Declaration.rules filled Scope.empty).upTo
      (fun t => filled.length * (t.length + 1) + 1) a :=
    Grammar.parser_rules (Declaration.idxOf?_name hdistinct' ha')
  have hsome : (Declaration.rules filled Scope.empty a).isSome := by
    rw [Declaration.rules, ha']
    rfl
  have hupdate := hregular.upTo_update (Declaration.deepEnough_rules filled Scope.empty) hsome s
  rw [← hparser, Declaration.update_rules_fill hdistinct ha] at hupdate
  have hlength : filled.length = family.length := List.length_map _
  rw [Grammar.parser, Declaration.rules_eq, Declaration.names_fill, List.length_map, ← hlength]
  exact Scope.bindSlots_agrees hupdate start

/-- A group with a rule that has no body, and the same group, in which the rule has a body that
makes it fail on every text, with the message of a rule without a body. The outcomes are the same,
as far as can be seen. So are the events, but that each use of the rule has a warning in the one
run, and in the other what the rule reports. -/
theorem Grammar.rules_fill {family : List Declaration} {absent : String}
    (hdistinct : (family.map Declaration.name).Nodup) (habsent : .undefined absent ∈ family)
    (start : String) (s : Text) :
    ∃ log : List Entry,
      ((Grammar.rules start family).parser Scope.empty s).Shows log Entry.warning ∧
        ∀ body,
          let filled := family.map (.fill absent body)
          let q := (Grammar.rules absent filled).parser Scope.empty
          let p := (Grammar.rules start filled).parser Scope.empty
          q.FailsUndefined →
            Outcome.Rel Failure.SameMessage
                ((Grammar.rules start family).parser Scope.empty s).outcome (p s).outcome ∧
              (p s).Shows log fun t => (q t).events := by
  obtain ⟨a, ha⟩ := List.mem_iff_getElem?.mp habsent
  obtain ⟨houtcome, hevents⟩ := notedRun_alike Entry.warning
    (Declaration.body_rules_undefined ha) (fun _ => ⟨_, rfl, rfl⟩) start s
  have hgroup : (Grammar.rules start family).parser Scope.empty s =
      Scope.empty.bindSlots (family.map Declaration.name)
        ((Declaration.rules family Scope.empty).parser family.length) start s := by
    rw [Grammar.parser, Declaration.rules_eq, List.length_map]
  rw [hgroup]
  refine ⟨(notedRun a start family s).events.map Entry.ofEvent, fun _ => hevents, ?_⟩
  intro body filled q p hq
  have hagrees := Grammar.rules_fill_agrees hdistinct ha body start s
  have huse (t : Text) : ∃ f, q t = ⟨.failure f, (q t).events⟩ ∧
      f.message = Cause.undefinedRule.message := by
    obtain ⟨f, hf, hmessage⟩ := hq t
    exact ⟨f, by rw [← hf], hmessage⟩
  obtain ⟨houtcome', hevents'⟩ := notedRun_alike (a := a) _ (fun _ => rfl) huse start s
  have hshows : Reply.Shows _ _ _ := fun _ => hevents'
  exact ⟨hagrees.1 ▸ houtcome.symm.trans houtcome', hshows.of_agrees hagrees⟩

end Descent
