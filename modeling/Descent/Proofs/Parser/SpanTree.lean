import Descent.Event
import Mathlib.Data.List.Basic

/-!
# Trees of spans

A log is read with a stack of spans: an attempt opens one, and the notice of how the attempt
finished closes it (`Log.read`). A *forest* of traced runs, each with what is reported inside it,
has a log, and that log closes all that it opens (`SpanTree.read_allEvents`). It is the log of no
other forest (`SpanTree.allEvents_inj`), so what is said about the traced runs in a forest is said
about its log. In a forest that *shrinks*, a traced run inside another one is on a shorter text.
-/

namespace Descent

/-! ## Reading a log -/

namespace Log

/-- What an event does to the stack of open spans, outermost first. It has to be inside just these
spans; an attempt is inside the one that it opens. -/
def pass (stack : List String) (e : Event) : Option (List String) :=
  match e.notice with
  | .attempt _ =>
    match e.spans.getLast? with
    | some name => if e.spans = stack ++ [name] then some e.spans else none
    | none => none
  | .matched _ | .failed _ => if e.spans = stack ∧ stack ≠ [] then some stack.dropLast else none
  | .undefinedRule | .rejected _ | .unconsumed _ => if e.spans = stack then some stack else none

/-- The stack after a log, if every event is where it has to be. -/
def read (stack : List String) (events : List Event) : Option (List String) :=
  events.foldlM pass stack

@[simp] theorem read_nil (stack : List String) : read stack [] = some stack := rfl

theorem read_cons (stack : List String) (e : Event) (events : List Event) :
    read stack (e :: events) = (pass stack e).bind fun next => read next events := rfl

theorem read_append (stack : List String) (events later : List Event) :
    read stack (events ++ later) = (read stack events).bind fun next => read next later := by
  rw [read, List.foldlM_append]
  rfl

theorem pass_attempt (stack : List String) (name : String) (input : Text) :
    pass stack ⟨.attempt input, stack ++ [name]⟩ = some (stack ++ [name]) := by
  simp [pass]

end Log

/-- The event seen from outside all spans of a stack. -/
def Event.under (stack : List String) (e : Event) : Event := { e with spans := stack ++ e.spans }

theorem Event.under_nil : Event.under [] = id := rfl

theorem Event.under_within (stack : List String) (name : String) :
    Event.under stack ∘ Event.within name = Event.under (stack ++ [name]) := by
  funext e
  simp [under, within]

/-! ## Forests of traced runs -/

/-- A tree of what a run reports. -/
inductive SpanTree where
  /-- A rule without a definition was used. -/
  | warning
  /-- A traced run on a text, with what is reported inside, and what it left or why it failed. -/
  | invocation (name : String) (input : Text) (inside : List SpanTree)
      (finish : Except Failure Text)

namespace SpanTree

/-- The notice that a traced run gives at its end. -/
def notice : Except Failure Text → Notice
  | .ok remaining => .matched remaining
  | .error f => .failed f

mutual

/-- The events of a tree. A traced run has one for its attempt, then those of what is inside, and
then one for its end. -/
def events : SpanTree → List Event
  | warning => [⟨.undefinedRule, []⟩]
  | invocation name input inside finish =>
    ⟨.attempt input, [name]⟩ ::
      ((allEvents inside).map (Event.within name) ++ [⟨notice finish, [name]⟩])

def allEvents : List SpanTree → List Event
  | [] => []
  | report :: others => events report ++ allEvents others

end

theorem allEvents_append (reports others : List SpanTree) :
    allEvents (reports ++ others) = allEvents reports ++ allEvents others := by
  induction reports with
  | nil => rfl
  | cons report reports ih => simp only [List.cons_append, allEvents, ih, List.append_assoc]

theorem allEvents_flatMap (texts : List Text) (runs : Text → List SpanTree) :
    allEvents (texts.flatMap runs) = texts.flatMap fun s => allEvents (runs s) := by
  induction texts with
  | nil => rfl
  | cons s texts ih => rw [List.flatMap_cons, allEvents_append, ih, List.flatMap_cons]

mutual

/-- The events of a tree leave the stack as it was. -/
theorem read_events (report : SpanTree) (stack : List String) :
    Log.read stack (report.events.map (Event.under stack)) = some stack :=
  match report with
  | warning => by simp [events, Log.read_cons, Log.pass, Event.under]
  | invocation name input inside finish => by
    have hattempt :
        Event.under stack ⟨.attempt input, [name]⟩ = ⟨.attempt input, stack ++ [name]⟩ := rfl
    have hfinish : Log.pass (stack ++ [name]) (Event.under stack ⟨notice finish, [name]⟩) =
        some stack := by
      cases finish <;> simp [Log.pass, Event.under, notice]
    rw [events, List.map_cons, List.map_append, List.map_map, Event.under_within, Log.read_cons,
      hattempt, Log.pass_attempt, Option.bind_some, Log.read_append,
      read_allEvents inside (stack ++ [name]), Option.bind_some, List.map_singleton, Log.read_cons,
      hfinish]
    rfl

theorem read_allEvents (reports : List SpanTree) (stack : List String) :
    Log.read stack ((allEvents reports).map (Event.under stack)) = some stack :=
  match reports with
  | [] => rfl
  | report :: others => by
    rw [allEvents, List.map_append, Log.read_append, read_events report stack, Option.bind_some]
    exact read_allEvents others stack

end

mutual

/-- No run reports in place of the one that reads a whole text. -/
theorem level_ne_debug (report : SpanTree) : ∀ e ∈ report.events, e.notice.level ≠ .debug :=
  match report with
  | warning => by simp [events, Notice.level]
  | invocation name input inside finish => by
    intro e he
    simp only [events, List.mem_cons, List.mem_append, List.mem_map, List.not_mem_nil,
      or_false] at he
    rcases he with rfl | ⟨e, he, rfl⟩ | rfl
    · simp [Notice.level]
    · exact level_ne_debug_of_mem inside e he
    · cases finish <;> simp [notice, Notice.level]

theorem level_ne_debug_of_mem (reports : List SpanTree) :
    ∀ e ∈ allEvents reports, e.notice.level ≠ .debug :=
  match reports with
  | [] => by simp [allEvents]
  | report :: others => by
    rw [allEvents]
    exact List.forall_mem_append.mpr ⟨level_ne_debug report, level_ne_debug_of_mem others⟩

end

variable {name : String} {n : Nat} {reports : List SpanTree}

/-! ## One forest for a log -/

/-- What comes after the events of a forest inside a run: nothing, or first the end of that run. -/
def Closes (events : List Event) : Prop := ∀ e ∈ events.head?, ∃ finish, e.notice = notice finish

theorem closes_cons_notice (finish : Except Failure Text) (spans : List String)
    (events : List Event) : Closes (⟨notice finish, spans⟩ :: events) := by
  intro e he
  obtain rfl : _ = e := by simpa using he
  exact ⟨finish, rfl⟩

/-- No tree begins with the end of a run. -/
theorem not_closes (report : SpanTree) (others : List SpanTree) (stack : List String)
    (tail : List Event) :
    ¬ Closes ((allEvents (report :: others)).map (Event.under stack) ++ tail) := by
  intro h
  cases report with
  | warning =>
    obtain ⟨finish, hfinish⟩ := h (Event.under stack ⟨.undefinedRule, []⟩) rfl
    cases finish <;> cases hfinish
  | invocation name input inside finish =>
    obtain ⟨finish, hfinish⟩ := h (Event.under stack ⟨.attempt input, [name]⟩) rfl
    cases finish <;> cases hfinish

theorem notice_inj {finish finish' : Except Failure Text} (h : notice finish = notice finish') :
    finish = finish' := by
  cases finish <;> cases finish' <;> cases h <;> rfl

/-- The events of a tree inside the spans of a stack, and then those of the trees after it. -/
theorem under_allEvents_invocation (name : String) (input : Text) (inside : List SpanTree)
    (finish : Except Failure Text) (others : List SpanTree) (stack : List String)
    (tail : List Event) :
    (allEvents (.invocation name input inside finish :: others)).map (Event.under stack) ++ tail =
      ⟨.attempt input, stack ++ [name]⟩ ::
        ((allEvents inside).map (Event.under (stack ++ [name])) ++
          ⟨notice finish, stack ++ [name]⟩ ::
            ((allEvents others).map (Event.under stack) ++ tail)) := by
  rw [allEvents, events, ← Event.under_within]
  simp [Event.under]

/-- Where a forest ends in a log can be told from the log, and so can the forest. -/
theorem under_allEvents_inj {reports others : List SpanTree} {stack : List String}
    {tail tail' : List Event}
    (h : (allEvents reports).map (Event.under stack) ++ tail =
      (allEvents others).map (Event.under stack) ++ tail')
    (ht : Closes tail) (ht' : Closes tail') : reports = others ∧ tail = tail' :=
  match reports, others with
  | [], [] => ⟨rfl, h⟩
  | [], report :: others => absurd (h ▸ ht) (not_closes report others stack tail')
  | report :: reports, [] => absurd (h ▸ ht') (not_closes report reports stack tail)
  | .warning :: reports, .warning :: others => by
    obtain ⟨-, h⟩ := List.cons.inj h
    obtain ⟨rfl, rfl⟩ := under_allEvents_inj h ht ht'
    exact ⟨rfl, rfl⟩
  | .warning :: reports, .invocation .. :: others => by
    obtain ⟨hevent, -⟩ := List.cons.inj h
    cases hevent
  | .invocation .. :: reports, .warning :: others => by
    obtain ⟨hevent, -⟩ := List.cons.inj h
    cases hevent
  | .invocation name input inside finish :: reports,
      .invocation name' input' inside' finish' :: others => by
    rw [under_allEvents_invocation, under_allEvents_invocation] at h
    obtain ⟨hattempt, hrest⟩ := List.cons.inj h
    obtain ⟨hinput, hspans⟩ := Event.mk.inj hattempt
    obtain rfl : input = input' := Notice.attempt.inj hinput
    obtain rfl : name = name' := by simpa using hspans
    -- The first event after what is inside is the end of the run.
    obtain ⟨rfl, htail⟩ :=
      under_allEvents_inj hrest (closes_cons_notice _ _ _) (closes_cons_notice _ _ _)
    obtain ⟨hend, hlater⟩ := List.cons.inj htail
    obtain rfl := notice_inj (Event.mk.inj hend).1
    obtain ⟨rfl, rfl⟩ := under_allEvents_inj hlater ht ht'
    exact ⟨rfl, rfl⟩

/-- A log is that of one forest only. -/
theorem allEvents_inj {reports others : List SpanTree} (h : allEvents reports = allEvents others) :
    reports = others := by
  have hnil : Closes [] := by
    intro e he
    cases he
  exact (under_allEvents_inj (congrArg (List.map (Event.under []) · ++ []) h) hnil hnil).1

/-! ## Forests that shrink -/

/-- A tree of runs of one rule, on texts of fewer than `n` characters, in which each run inside
another one is on a shorter text. -/
inductive Shrinks (name : String) : Nat → SpanTree → Prop where
  | invocation {n : Nat} {input : Text} {inside : List SpanTree} {finish : Except Failure Text} :
      input.length < n → (∀ report ∈ inside, Shrinks name input.length report) →
        Shrinks name n (.invocation name input inside finish)

theorem Shrinks.mono {m : Nat} {report : SpanTree} (h : Shrinks name n report) (hnm : n ≤ m) :
    Shrinks name m report := by
  cases h with
  | invocation hlt hinside => exact .invocation (Nat.lt_of_lt_of_le hlt hnm) hinside

end SpanTree

end Descent
