import Descent.Proofs.Grammar.Forest
import Descent.Proofs.Parser.Events

/-!
# Logs are well bracketed

The log of reading a whole text is that of the traced runs that the description of the parser tells
(`Description.invocations`), and where the text was not read to its end, one event more. So each
traced run has one attempt and one end in it, with all that is inside between them, and the log
closes all the spans that it opens (`Description.well_bracketed`).
-/

namespace Descent

/-! ## Whole texts -/

/-- What reading a whole text adds to a log: where the text was not read to its end, what was in the
way. -/
def Completion.added {α : Type} : Completion α → List Event
  | .complete _ | .diverges => []
  | .rejected f => [⟨.rejected f, []⟩]
  | .incomplete offset _ => [⟨.unconsumed offset, []⟩]

namespace Parser

variable {α : Type}

theorem events_complete (p : Parser α) (s : Text) :
    (p.complete s).2 = (p s).events ++ (p.complete s).1.added := by
  rcases h : (p s).outcome with ⟨a, r⟩ | f | _
  · cases r <;> simp [complete, h, Completion.added]
  · simp [complete, h, Completion.added]
  · simp [complete, h, Completion.added]

end Parser

namespace Description

open Descent.Parser

/-- What there is to say about the spans in the log of reading a whole text. -/
structure WellBracketed (d : Description) (s : Text) : Prop where
  /-- Every event is inside just the spans that are open, and none is open at the end. -/
  closes : Log.read [] (d.parser.complete s).2 = some []
  /-- The log is that of the traced runs that the description tells, and what is added to it. -/
  invokes : (d.parser.complete s).2 =
    SpanTree.allEvents (d.invocations s) ++ (d.parser.complete s).1.added
  /-- Nothing else is at the level of what is added. -/
  debug : (d.parser.complete s).2.filter (·.notice.level = .debug) = (d.parser.complete s).1.added
  /-- An attempt shows the text as a snippet; its end shows what is left as one, or the failure. -/
  details (input : Text) (finish : Except Failure Text) :
    (Notice.attempt input).details = [("input", input.snippet)] ∧
      (SpanTree.notice finish).details = match finish with
        | .ok remaining => [("remaining", remaining.snippet)]
        | .error f => [("failure", f.message)]
  /-- What an alternative has reported stays when it fails. -/
  stays : d.parser.Fails s →
    (∀ q : Parser Value, (d.parser.orElse q s).events = (d.parser s).events ++ (q s).events) ∧
    (∀ earlier later : List (Parser Value), (∀ q ∈ earlier, q.Fails s) →
      (choice (earlier ++ d.parser :: later) s).events =
        (earlier.flatMap fun q => (q s).events) ++
          ((d.parser s).events ++ (choice later s).events)) ∧
    (d.parser.optional s).events = (d.parser s).events ∧
    (many d.parser s).events = (d.parser s).events ∧
    ∀ separator : Parser Value, (d.parser.sepBy separator s).events = (d.parser s).events

/-- The log of a described parser is well bracketed where its run ends. -/
theorem well_bracketed (d : Description) {s : Text} (hends : d.parser.Ends s) :
    d.WellBracketed s := by
  -- All there is to say about the log of the run is said by the forest that it is the log of.
  have hevents : (d.parser.complete s).2 =
      SpanTree.allEvents (d.invocations s) ++ (d.parser.complete s).1.added := by
    rw [events_complete, d.invokes s hends]
  constructor
  case closes =>
    have hinside := SpanTree.read_allEvents (d.invocations s) []
    rw [Event.under_nil, List.map_id] at hinside
    rw [hevents, Log.read_append, hinside, Option.bind_some]
    cases (d.parser.complete s).1 <;> rfl
  case invokes => exact hevents
  case debug =>
    have hinside :
        (SpanTree.allEvents (d.invocations s)).filter (·.notice.level = .debug) = [] := by
      rw [List.filter_eq_nil_iff]
      intro e he
      simpa using SpanTree.level_ne_debug_of_mem (d.invocations s) e he
    rw [hevents, List.filter_append, hinside, List.nil_append]
    cases (d.parser.complete s).1 <;> rfl
  case details => exact fun input finish => ⟨rfl, by cases finish <;> rfl⟩
  case stays =>
    intro hfails
    refine ⟨hfails.events_orElse, fun earlier later hearlier => ?_, hfails.events_optional,
      hfails.events_many, hfails.events_sepBy⟩
    rw [events_choice_append hearlier, hfails.events_choice_cons]

/-- Of two alternatives inside a span, the first fails and the second leaves a letter over. -/
theorem well_bracketed_alternatives :
    let d := closed (.traced "letter" (.orElse (.traced "a" (.char 'a')) (.traced "b" (.char 'b'))))
    let s := ['b', 'c']
    d.parser.Ends s ∧ d.WellBracketed s ∧
      (d.parser.complete s).2 = [
        ⟨.attempt s, ["letter"]⟩,
        ⟨.attempt s, ["letter", "a"]⟩,
        ⟨.failed (Failure.ofCause (.unexpected s)), ["letter", "a"]⟩,
        ⟨.attempt s, ["letter", "b"]⟩,
        ⟨.matched ['c'], ["letter", "b"]⟩,
        ⟨.matched ['c'], ["letter"]⟩,
        ⟨.unconsumed 1, []⟩] := by
  intro d s
  have hread : (d.parser s).outcome = .success (.char 'b') ['c'] := by rfl
  have hends : d.parser.Ends s := by
    rw [Ends, hread]
    exact Reply.success_ne_diverges _ _
  exact ⟨hends, well_bracketed d hends, rfl⟩

end Description
end Descent
