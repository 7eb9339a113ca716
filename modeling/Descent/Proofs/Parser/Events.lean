import Descent.Proofs.Parser.Composition
import Descent.Proofs.Parser.Termination
import Mathlib.Data.List.Basic

/-!
# What a run reports

The events of a run are those of the runs it is made of, one after the other. Parsers that report
nothing drop out, so a sequence that starts with some of them reports what its last parser reports,
and a list whose separator reports nothing reports its values. `Rounds` names the texts on which a
separated list runs its parser.
-/

namespace Descent

/-! ## Attempts -/

/-- The text on which a rule of the given name was tried, if the event reports that. -/
def Event.attempted? (name : String) (e : Event) : Option Text :=
  match e.notice with
  | .attempt input => if e.spans.getLast? = some name then some input else none
  | _ => none

/-- The texts on which a rule of the given name was tried, in order. -/
def attempts (name : String) (events : List Event) : List Text :=
  events.filterMap (Event.attempted? name)

/-- A span around all others does not change which rule was tried. -/
theorem attempts_within (name outer : String) {events : List Event}
    (h : ∀ e ∈ events, e.spans ≠ []) :
    attempts name (events.map (Event.within outer)) = attempts name events := by
  rw [attempts, attempts, List.filterMap_map]
  refine List.filterMap_congr fun e he => ?_
  obtain ⟨span, spans, hspans⟩ := List.exists_cons_of_ne_nil (h e he)
  simp [Event.attempted?, Event.within, hspans]

/-- What a traced run reports holds its own attempt, and then those reported inside. -/
theorem attempts_traced {name : String} {s : Text} {events finish : List Event}
    (hevents : ∀ e ∈ events, e.spans ≠ [])
    (hfinish : ∀ e ∈ finish, e.spans = [name] ∧ ∀ t, e.notice ≠ .attempt t) :
    attempts name (⟨.attempt s, [name]⟩ :: (events.map (Event.within name) ++ finish)) =
      s :: attempts name events := by
  have hnone : attempts name finish = [] := by
    refine List.filterMap_eq_nil_iff.mpr fun e he => ?_
    rw [Event.attempted?]
    split
    · next t ht => exact absurd ht ((hfinish e he).2 t)
    · rfl
  have hinside :
      attempts name (events.map (Event.within name) ++ finish) = attempts name events := by
    rw [attempts, List.filterMap_append, ← attempts, ← attempts, hnone, List.append_nil,
      attempts_within name name hevents]
  rw [← hinside]
  exact List.filterMap_cons_some (by simp [Event.attempted?])

theorem attempts_flatMap (name : String) (us : List Text) (events : Text → List Event) :
    attempts name (us.flatMap events) = us.flatMap fun u => attempts name (events u) := by
  rw [attempts, List.filterMap_flatMap]
  rfl

namespace Parser

variable {α β γ : Type} {p : Parser α} {q : Parser β} {s t r : Text} {a : α}

theorem Composed.events_eq_nil (h : p.Composed true) (s : Text) : (p s).events = [] :=
  (h s).events_eq_nil

/-! ## Sequences -/

theorem events_map (f : α → β) : (p.map f s).events = (p s).events := rfl

theorem Reads.events_skipThen (h : p.Reads s a r) (hp : p.Composed true) :
    (p.skipThen q s).events = (q r).events := by
  have houtcome : (p s).outcome = .success a r := h
  simp [skipThen, Reply.next, houtcome, Reply.after, hp.events_eq_nil]

theorem Fails.events_skipThen (h : p.Fails s) (hp : p.Composed true) :
    (p.skipThen q s).events = [] := by
  obtain ⟨f, hf⟩ := h
  simp [skipThen, Reply.next, hf, hp.events_eq_nil]

/-- Two parsers report the same whether or not the value of the first is kept. -/
theorem events_both : (p.both q s).events = (p.skipThen q s).events := by
  rcases h : (p s).outcome with ⟨a, r⟩ | f | _ <;>
    simp [both, skipThen, Reply.next, h, Reply.after, Reply.map]

theorem events_thenSkip (hq : q.Composed true) : (p.thenSkip q s).events = (p s).events := by
  rcases h : (p s).outcome with ⟨a, r⟩ | f | _ <;>
    simp [thenSkip, Reply.next, h, Reply.after, Reply.map, hq.events_eq_nil]

theorem Reads.events_bracket {closing : Parser γ} (h : p.Reads s a r) (hp : p.Composed true)
    (hclosing : closing.Composed true) : (Parser.bracket p q closing s).events = (q r).events := by
  rw [bracket_eq_skipThen, h.events_skipThen hp, events_thenSkip hclosing]

theorem Fails.events_bracket {closing : Parser γ} (h : p.Fails s) (hp : p.Composed true) :
    (Parser.bracket p q closing s).events = [] := by
  rw [bracket_eq_skipThen, h.events_skipThen hp]

/-! ## Alternatives -/

/-- The failures of earlier alternatives do not change what later ones report. -/
theorem choiceFrom_events (ps : List (Parser α)) (failed : Option Failure) (s : Text) :
    (choiceFrom ps failed [] s).events = (choice ps s).events := by
  have h (failed' : Option Failure) :
      (choiceFrom ps failed [] s).events = (choiceFrom ps failed' [] s).events := by
    induction ps generalizing failed failed' with
    | nil => rfl
    | cons p ps ih =>
      rw [choiceFrom_cons, choiceFrom_cons]
      rcases hp : (p s).outcome with ⟨a, r⟩ | f | _ <;> simp only [Reply.recover, hp, Reply.after]
      rw [ih]
  exact h none

theorem Fails.events_choice_cons {ps : List (Parser α)} (h : p.Fails s) :
    (choice (p :: ps) s).events = (p s).events ++ (choice ps s).events := by
  obtain ⟨f, hf⟩ := h
  rw [choice, choiceFrom_cons]
  simp only [Reply.recover, hf, Reply.after]
  rw [choiceFrom_events]

theorem Reads.events_choice_cons {ps : List (Parser α)} (h : p.Reads s a r) :
    (choice (p :: ps) s).events = (p s).events := by
  have houtcome : (p s).outcome = .success a r := h
  rw [choice, choiceFrom_cons]
  simp only [Reply.recover, houtcome]

/-- If later alternatives report nothing, all that is reported comes from the first. -/
theorem Ends.events_choice_cons {ps : List (Parser α)} (h : p.Ends s)
    (hps : (Parser.choice ps s).events = []) :
    (Parser.choice (p :: ps) s).events = (p s).events := by
  rcases ends_iff.mp h with ⟨a, r, h⟩ | h
  · exact h.events_choice_cons
  · rw [h.events_choice_cons, hps, List.append_nil]

/-! ## What was reported before a failure -/

theorem Fails.events_orElse (h : p.Fails s) (q : Parser α) :
    (p.orElse q s).events = (p s).events ++ (q s).events := by
  obtain ⟨f, hf⟩ := h
  simp [orElse, Reply.recover, hf, Reply.after, Reply.mapFailure]

theorem Fails.events_optional (h : p.Fails s) : (p.optional s).events = (p s).events := by
  obtain ⟨f, hf⟩ := h
  simp [optional, Reply.recover, Reply.map, Outcome.map, hf, Reply.after, Reply.success]

theorem Fails.events_many (h : p.Fails s) : (many p s).events = (p s).events := by
  obtain ⟨f, hf⟩ := h
  show (atLeastFrom p s 0 [] [] s).events = (p s).events
  cases s with
  | nil =>
    rw [atLeastFrom_nil, Reply.either_of_failure hf]
    exact List.append_nil _
  | cons c t =>
    rw [atLeastFrom_cons, Reply.either_of_failure hf]
    exact List.append_nil _

theorem Fails.events_sepBy (h : p.Fails s) (separator : Parser β) :
    (p.sepBy separator s).events = (p s).events := by
  obtain ⟨f, hf⟩ := h
  rw [sepBy_eq, Reply.either_of_failure hf]
  exact List.append_nil _

/-- All alternatives before the first that does not fail have reported. -/
theorem events_choice_append {earlier : List (Parser α)} (h : ∀ q ∈ earlier, q.Fails s)
    (later : List (Parser α)) :
    (choice (earlier ++ later) s).events =
      (earlier.flatMap fun q => (q s).events) ++ (choice later s).events := by
  induction earlier with
  | nil => rfl
  | cons q earlier ih =>
    obtain ⟨hq, hearlier⟩ := List.forall_mem_cons.mp h
    rw [List.cons_append, hq.events_choice_cons, ih hearlier, List.flatMap_cons, List.append_assoc]

/-! ## Spans -/

/-- A traced run reports the attempt, what is reported inside, and how it finished. -/
theorem events_traced (name : String) (p : Parser α) (s : Text) :
    ∃ finish, (p.traced name s).events =
        ⟨.attempt s, [name]⟩ :: ((p s).events.map (Event.within name) ++ finish) ∧
      ∀ e ∈ finish, e.spans = [name] ∧ ∀ t, e.notice ≠ .attempt t := by
  rcases h : (p s).outcome with ⟨a, r⟩ | f | _
  · exact ⟨[⟨.matched r, [name]⟩], by simp [traced, h], by simp⟩
  · exact ⟨[⟨.failed f, [name]⟩], by simp [traced, h], by simp⟩
  · exact ⟨[], by simp [traced, h], by simp⟩

theorem Reads.events_traced (h : p.Reads s a r) (name : String) :
    (p.traced name s).events =
      ⟨.attempt s, [name]⟩ :: ((p s).events.map (Event.within name) ++ [⟨.matched r, [name]⟩]) := by
  have houtcome : (p s).outcome = .success a r := h
  simp [traced, houtcome]

theorem spans_traced_ne_nil {name : String} :
    ∀ e ∈ (p.traced name s).events, e.spans ≠ [] := by
  obtain ⟨finish, hevents, hfinish⟩ := events_traced name p s
  intro e he
  rw [hevents] at he
  simp only [List.mem_cons, List.mem_append, List.mem_map] at he
  rcases he with rfl | ⟨e, -, rfl⟩ | he
  · exact List.cons_ne_nil _ _
  · exact List.cons_ne_nil _ _
  · rw [(hfinish e he).1]
    exact List.cons_ne_nil _ _

/-! ## Separated lists -/

/-- `Rounds p separator s ts r`: a list that starts at `s` with a value runs its parser on the texts
`ts`, in that order, and leaves `r`. A separator after which no value can be read is left, too. -/
inductive Rounds (p : Parser α) (separator : Parser β) : Text → List Text → Text → Prop where
  | last {s r : Text} {a : α} : p.Reads s a r → separator.Fails r → Rounds p separator s [s] r
  | dangling {s r t : Text} {a : α} {b : β} :
      p.Reads s a r → separator.Reads r b t → p.Fails t → Rounds p separator s [s, t] r
  | more {s r t u : Text} {a : α} {b : β} {ts : List Text} :
      p.Reads s a r → separator.Reads r b t → Rounds p separator t ts u →
        Rounds p separator s (s :: ts) u

theorem Rounds.exists_reads {ts : List Text} (h : Rounds p q s ts r) : ∃ a t, p.Reads s a t := by
  cases h with
  | last ha | dangling ha | more ha => exact ⟨_, _, ha⟩

/-- A list has only one way to run. -/
theorem Rounds.unique {ts ts' : List Text} {r' : Text} (h : Rounds p q s ts r)
    (h' : Rounds p q s ts' r') : ts = ts' ∧ r = r' := by
  induction h generalizing ts' r' with
  | last ha hfails =>
    cases h' with
    | last ha' =>
      obtain ⟨-, rfl⟩ := ha.unique ha'
      exact ⟨rfl, rfl⟩
    | dangling ha' hsep' | more ha' hsep' =>
      obtain ⟨-, rfl⟩ := ha.unique ha'
      exact absurd hsep' hfails.not_reads
  | dangling ha hsep hfails =>
    cases h' with
    | last ha' hfails' =>
      obtain ⟨-, rfl⟩ := ha.unique ha'
      exact absurd hsep hfails'.not_reads
    | dangling ha' hsep' =>
      obtain ⟨-, rfl⟩ := ha.unique ha'
      obtain ⟨-, rfl⟩ := hsep.unique hsep'
      exact ⟨rfl, rfl⟩
    | more ha' hsep' hrest' =>
      obtain ⟨-, rfl⟩ := ha.unique ha'
      obtain ⟨-, rfl⟩ := hsep.unique hsep'
      obtain ⟨b, u, hb⟩ := hrest'.exists_reads
      exact absurd hb hfails.not_reads
  | more ha hsep hrest ih =>
    cases h' with
    | last ha' hfails' =>
      obtain ⟨-, rfl⟩ := ha.unique ha'
      exact absurd hsep hfails'.not_reads
    | dangling ha' hsep' hfails' =>
      obtain ⟨-, rfl⟩ := ha.unique ha'
      obtain ⟨-, rfl⟩ := hsep.unique hsep'
      obtain ⟨b, u, hb⟩ := hrest.exists_reads
      exact absurd hb hfails'.not_reads
    | more ha' hsep' hrest' =>
      obtain ⟨-, rfl⟩ := ha.unique ha'
      obtain ⟨-, rfl⟩ := hsep.unique hsep'
      obtain ⟨rfl, rfl⟩ := ih hrest'
      exact ⟨rfl, rfl⟩

/-- The reply of a list that starts at `s`: its rounds have been run, and what they report has been
reported. -/
def RunsRounds (p : Parser α) (separator : Parser β) (s : Text) (reply : Reply (List α)) : Prop :=
  ∃ ts r vs, Rounds p separator s ts r ∧ reply.outcome = .success vs r ∧
    reply.events = ts.flatMap fun t => (p t).events

/-- A list stops where no separator with a value follows. -/
theorem RunsRounds.of_fails (hq : q.Composed true) (ha : p.Reads s a r)
    (h : (q.skipThen p).Fails r) (rounds : Text) (values : List α) :
    RunsRounds p q s
      ((atLeastFrom (q.skipThen p) rounds 0 values [] r).after (p s).events) := by
  obtain ⟨f, hf⟩ := id h
  have hstop : atLeastFrom (q.skipThen p) rounds 0 values [] r =
      (Reply.success values.reverse r).after (q.skipThen p r).events := by
    cases rounds with
    | nil => rw [atLeastFrom_nil, Reply.either_of_failure hf, atLeastStop, if_pos rfl]
    | cons => rw [atLeastFrom_cons, Reply.either_of_failure hf, atLeastStop, if_pos rfl]
  rw [hstop]
  rcases fails_skipThen.mp h with hfails | ⟨b, t, hb, ht⟩
  · refine ⟨[s], r, _, .last ha hfails, rfl, ?_⟩
    simp [hfails.events_skipThen hq, Reply.after, Reply.success]
  · refine ⟨[s, t], r, _, .dangling ha hb ht, rfl, ?_⟩
    simp [hb.events_skipThen hq, Reply.after, Reply.success]

/-- From a value on, a list runs its rounds, by induction on the rounds that are allowed. -/
theorem RunsRounds.of_reads (hp : p.NonGrowing) (hq : q.Progresses) (hsilent : q.Composed true)
    (hqends : ∀ t, q.Ends t) (hends : ∀ t, t.length ≤ s.length → p.Ends t) (ha : p.Reads s a r)
    {rounds : Text} (hrounds : r.length ≤ rounds.length) (values : List α) :
    RunsRounds p q s
      ((atLeastFrom (q.skipThen p) rounds 0 values [] r).after (p s).events) := by
  induction rounds generalizing s r a values with
  | nil =>
    -- Nothing is left in which a separator could be read.
    refine .of_fails hsilent ha (fails_skipThen.mpr (Or.inl ?_)) [] values
    refine (ends_iff.mp (hqends r)).resolve_left ?_
    rintro ⟨b, t, hb⟩
    have hlt : t.length < r.length := hq hb
    exact absurd (Nat.lt_of_lt_of_le hlt hrounds) (Nat.not_lt_zero _)
  | cons c rounds ih =>
    have hle : r.length ≤ s.length := hp ha
    have hround : (q.skipThen p).Ends r := by
      refine (hqends r).skipThen fun b t hb => hends t ?_
      have hlt : t.length < r.length := hq hb
      omega
    rcases ends_iff.mp hround with ⟨a', r', h⟩ | hfails
    · obtain ⟨b, t, hb, ha'⟩ := reads_skipThen.mp h
      have hlt : t.length < r.length := hq hb
      have hle' : r'.length ≤ t.length := hp ha'
      rw [List.length_cons] at hrounds
      obtain ⟨ts, u, vs, hts, houtcome, hevents⟩ :=
        ih (fun w hw => hends w (by omega)) ha' (by omega) (a' :: values)
      rw [atLeastFrom_cons, Reply.either_of_success h, hb.events_skipThen hsilent]
      refine ⟨s :: ts, u, vs, .more ha hb hts, houtcome, ?_⟩
      rw [List.flatMap_cons, ← hevents]
      rfl
    · exact .of_fails hsilent ha hfails (c :: rounds) values

/-- A separated list either finds no value to start with or runs its rounds. -/
theorem runsRounds_sepBy (hp : p.NonGrowing) (hq : q.Progresses) (hsilent : q.Composed true)
    (hqends : ∀ t, q.Ends t) (hends : ∀ t, t.length ≤ s.length → p.Ends t) :
    p.Fails s ∧ sepBy p q s = (Reply.success [] s).after (p s).events ∨
      RunsRounds p q s (sepBy p q s) := by
  rw [sepBy_eq]
  rcases ends_iff.mp (hends s (Nat.le_refl _)) with ⟨a, r, ha⟩ | ⟨f, hf⟩
  · rw [Reply.either_of_success ha]
    exact Or.inr (.of_reads hp hq hsilent hqends hends ha (Nat.le_refl _) [a])
  · exact Or.inl ⟨⟨f, hf⟩, Reply.either_of_failure hf _ _⟩

/-- A separated list that starts with a value reports what its rounds report. -/
theorem Rounds.events_sepBy {ts : List Text} (h : Rounds p q s ts r) (hp : p.NonGrowing)
    (hq : q.Progresses) (hsilent : q.Composed true) (hqends : ∀ t, q.Ends t)
    (hends : ∀ t, t.length ≤ s.length → p.Ends t) :
    (Parser.sepBy p q s).events = ts.flatMap fun t => (p t).events := by
  rcases runsRounds_sepBy hp hq hsilent hqends hends with
    ⟨hfails, -⟩ | ⟨ts', r', vs, h', -, hevents⟩
  · obtain ⟨a, t, ha⟩ := h.exists_reads
    exact absurd ha hfails.not_reads
  · obtain ⟨rfl, -⟩ := h.unique h'
    exact hevents

end Parser
end Descent
