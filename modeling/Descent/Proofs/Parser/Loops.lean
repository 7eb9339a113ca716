import Descent.Proofs.Parser.Repetition

/-!
# Loops without their logs

A run either ends or goes on: after a success with its value and the text it left, after a failure
with the failure. `Reply.either` says both at once, and the ways in which combinators go on are
cases of it. The loops keep their events latest first instead; what they still do comes after those
events, so each of them unfolds, round by round, to a chain of replies that go on.
-/

namespace Descent

/-! ## Going on -/

namespace Reply

variable {α β γ : Type}

/-- Go on after a success, and after a failure. -/
def either (reply : Reply α) (ok : α → Text → Reply β) (bad : Failure → Reply β) : Reply β :=
  match reply.outcome with
  | .success value remaining => (ok value remaining).after reply.events
  | .failure f => (bad f).after reply.events
  | .diverges => ⟨.diverges, reply.events⟩

theorem either_of_success {reply : Reply α} {a : α} {r : Text} (h : reply.outcome = .success a r)
    (ok : α → Text → Reply β) (bad : Failure → Reply β) :
    reply.either ok bad = (ok a r).after reply.events := by
  simp only [either, h]

theorem either_of_failure {reply : Reply α} {f : Failure} (h : reply.outcome = .failure f)
    (ok : α → Text → Reply β) (bad : Failure → Reply β) :
    reply.either ok bad = (bad f).after reply.events := by
  simp only [either, h]

@[simp] theorem after_nil (reply : Reply α) : reply.after [] = reply := rfl

@[simp] theorem after_after (first second : List Event) (reply : Reply α) :
    (reply.after second).after first = reply.after (first ++ second) := by
  simp [after]

theorem next_eq_either (reply : Reply α) (go : α → Text → Reply β) :
    reply.next go = reply.either go failure := by
  rcases reply with ⟨⟨a, r⟩ | f | _, events⟩ <;> simp [next, either, failure, after]

theorem recover_eq_either (reply : Reply α) (go : Failure → Reply α) :
    reply.recover go = reply.either success go := by
  rcases reply with ⟨⟨a, r⟩ | f | _, events⟩ <;> simp [recover, either, success, after]

theorem map_eq_either (f : α → β) (reply : Reply α) :
    reply.map f = reply.either (fun a r => success (f a) r) failure := by
  rcases reply with ⟨⟨a, r⟩ | g | _, events⟩ <;>
    simp [map, Outcome.map, either, success, failure, after]

theorem mapFailure_eq_either (f : Failure → Failure) (reply : Reply α) :
    reply.mapFailure f = reply.either success fun g => failure (f g) := by
  rcases reply with ⟨⟨a, r⟩ | g | _, events⟩ <;>
    simp [mapFailure, Outcome.mapFailure, either, success, failure, after]

end Reply

namespace Parser

variable {α β γ : Type} {s r : Text}

/-! ## Sequences and choices -/

theorem sequenceFrom_log (ps : List (Parser α)) (values : List α) (log : List Event) (s : Text) :
    sequenceFrom ps values log s = (sequenceFrom ps values [] s).after log.reverse := by
  induction ps generalizing values log s with
  | nil => simp [sequenceFrom, Reply.after]
  | cons p ps ih =>
    simp only [sequenceFrom]
    rcases (p s).outcome with ⟨a, t⟩ | f | _
    · dsimp only
      rw [ih, ih _ (List.reverseAux _ [])]
      simp [List.reverseAux_eq]
    · simp [Reply.after, List.reverseAux_eq]
    · simp [Reply.after, List.reverseAux_eq]

theorem sequenceFrom_cons (p : Parser α) (ps : List (Parser α)) (values : List α) (s : Text) :
    sequenceFrom (p :: ps) values [] s =
      (p s).next fun a t => sequenceFrom ps (a :: values) [] t := by
  rw [sequenceFrom]
  rcases h : (p s).outcome with ⟨a, t⟩ | f | _
  · simp only [h, Reply.next]
    rw [sequenceFrom_log]
    simp [List.reverseAux_eq]
  · simp [h, Reply.next, List.reverseAux_eq]
  · simp [h, Reply.next, List.reverseAux_eq]

/-- A fixed number of runs is a sequence of one parser. -/
theorem timesFrom_eq_sequenceFrom (p : Parser α) (n : Nat) (values : List α) (log : List Event) :
    timesFrom p n values log = sequenceFrom (List.replicate n p) values log := by
  induction n generalizing values log with
  | zero => rfl
  | succ n ih =>
    funext s
    rw [timesFrom, List.replicate_succ, sequenceFrom]
    simp only [ih]

theorem choiceFrom_log (ps : List (Parser α)) (failed : Option Failure) (log : List Event)
    (s : Text) : choiceFrom ps failed log s = (choiceFrom ps failed [] s).after log.reverse := by
  induction ps generalizing failed log with
  | nil => simp [choiceFrom, Reply.after]
  | cons p ps ih =>
    simp only [choiceFrom]
    rcases (p s).outcome with ⟨a, t⟩ | f | _
    · simp [Reply.after, List.reverseAux_eq]
    · dsimp only
      rw [ih, ih _ (List.reverseAux _ [])]
      simp [List.reverseAux_eq]
    · simp [Reply.after, List.reverseAux_eq]

theorem choiceFrom_cons (p : Parser α) (ps : List (Parser α)) (failed : Option Failure) (s : Text) :
    choiceFrom (p :: ps) failed [] s =
      (p s).recover fun f => choiceFrom ps (some (addAlternative failed f)) [] s := by
  rw [choiceFrom]
  rcases h : (p s).outcome with ⟨a, t⟩ | f | _
  · simp [h, Reply.recover, List.reverseAux_eq]
  · simp only [h, Reply.recover]
    rw [choiceFrom_log]
    simp [List.reverseAux_eq]
  · simp [h, Reply.recover, List.reverseAux_eq]

/-- The failures of earlier alternatives come before those of the rest of a choice, if there is a
rest. -/
theorem choiceFrom_some (p : Parser α) (ps : List (Parser α)) (f : Failure) (s : Text) :
    choiceFrom (p :: ps) (some f) [] s = (choice (p :: ps) s).mapFailure f.or := by
  induction ps generalizing p f with
  | nil =>
    rw [choice, choiceFrom_cons, choiceFrom_cons]
    rcases (p s) with ⟨⟨a, t⟩ | g | _, events⟩ <;>
      simp [Reply.recover, Reply.mapFailure, Outcome.mapFailure, choiceFrom, addAlternative,
        Reply.after]
  | cons q ps ih =>
    rw [choice, choiceFrom_cons, choiceFrom_cons]
    simp only [addAlternative, ih]
    rcases (p s) with ⟨⟨a, t⟩ | g | _, events⟩
    · rfl
    · rcases (choice (q :: ps) s) with ⟨⟨a, t⟩ | h | _, events'⟩ <;>
        simp [Reply.recover, Reply.mapFailure, Outcome.mapFailure, Reply.after, Failure.or_assoc]
    · rfl

/-- A choice of one parser is that parser. -/
theorem choice_one (p : Parser α) : choice [p] = p := by
  funext s
  rw [choice, choiceFrom_cons]
  rcases (p s) with ⟨⟨a, t⟩ | g | _, events⟩ <;>
    simp [Reply.recover, choiceFrom, addAlternative, Reply.after]

/-- A choice of more is an alternative of the first and a choice of the others. -/
theorem choice_cons_cons (p q : Parser α) (ps : List (Parser α)) :
    choice (p :: q :: ps) = p.orElse (choice (q :: ps)) := by
  funext s
  rw [choice, choiceFrom_cons]
  simp only [addAlternative, choiceFrom_some]
  rfl

/-! ## Repetitions -/

/-- What a repetition does after a round that failed. -/
def atLeastStop (least : Nat) (values : List α) (s : Text) (f : Failure) : Reply (List α) :=
  if least = 0 then .success values.reverse s else .failure f

theorem atLeastRound_eq {p : Parser α} {least : Nat} {values : List α} {log : List Event}
    {again : α → List Event → Parser (List α)}
    (h : ∀ a log t, again a log t = (again a [] t).after log.reverse) :
    atLeastRound p least values log again s =
      ((p s).either (fun a t => again a [] t) (atLeastStop least values s)).after log.reverse := by
  rw [atLeastRound]
  rcases hp : (p s).outcome with ⟨a, t⟩ | f | _
  · simp only [hp, Reply.either]
    rw [h]
    simp [List.reverseAux_eq]
  · by_cases hl : least = 0 <;>
      simp [hp, Reply.either, atLeastStop, hl, Reply.after, Reply.success, Reply.failure,
        List.reverseAux_eq]
  · simp [hp, Reply.either, Reply.after, List.reverseAux_eq]

theorem endless_log (log : List Event) :
    (endless log : Reply (List α)) = (endless []).after log.reverse := by
  simp [endless, Reply.after]

theorem atLeastFrom_log (p : Parser α) (rounds : Text) (least : Nat) (values : List α)
    (log : List Event) (s : Text) :
    atLeastFrom p rounds least values log s =
      (atLeastFrom p rounds least values [] s).after log.reverse := by
  induction rounds generalizing least values log s with
  | nil =>
    rw [atLeastFrom, atLeastFrom, atLeastRound_eq fun _ log _ => endless_log log,
      atLeastRound_eq fun _ log _ => endless_log log]
    rfl
  | cons c rounds ih =>
    have hagain (a : α) (log : List Event) (t : Text) := ih (least - 1) (a :: values) log t
    rw [atLeastFrom, atLeastRound_eq hagain, atLeastFrom, atLeastRound_eq hagain]
    rfl

theorem atLeastFrom_nil (p : Parser α) (least : Nat) (values : List α) (s : Text) :
    atLeastFrom p [] least values [] s =
      (p s).either (fun _ _ => .diverges) (atLeastStop least values s) :=
  atLeastRound_eq fun _ log _ => endless_log log

theorem atLeastFrom_cons (p : Parser α) (c : Char) (rounds : Text) (least : Nat) (values : List α)
    (s : Text) :
    atLeastFrom p (c :: rounds) least values [] s =
      (p s).either (fun a t => atLeastFrom p rounds (least - 1) (a :: values) [] t)
        (atLeastStop least values s) :=
  atLeastRound_eq fun a log t => atLeastFrom_log p rounds (least - 1) (a :: values) log t

/-- A repetition fails only for want of a value that it needs, and then as its parser does. -/
theorem atLeastFrom_fails {p : Parser α} {rounds : Text} {least : Nat} {values : List α} {s : Text}
    {f : Failure} (h : (atLeastFrom p rounds least values [] s).outcome = .failure f) :
    least ≠ 0 ∧ ∃ t, (p t).outcome = .failure f := by
  have hstop {least : Nat} {values : List α} {s t : Text} {f g : Failure}
      (hf : (p s).outcome = .failure f)
      (h : ((atLeastStop least values t f).after (p s).events).outcome = .failure g) :
      least ≠ 0 ∧ ∃ t, (p t).outcome = .failure g := by
    unfold atLeastStop at h
    split at h
    · cases h
    · next hleast =>
      cases h
      exact ⟨hleast, s, hf⟩
  induction rounds generalizing least values s with
  | nil =>
    rw [atLeastFrom_nil, Reply.either] at h
    split at h
    · cases h
    · next hf => exact hstop hf h
    · cases h
  | cons c rounds ih =>
    rw [atLeastFrom_cons, Reply.either] at h
    split at h
    · obtain ⟨hleast, ht⟩ := ih h
      exact ⟨fun hzero => hleast (by rw [hzero]), ht⟩
    · next hf => exact hstop hf h
    · cases h

theorem sepBy1_eq (p : Parser α) (separator : Parser β) (s : Text) :
    sepBy1 p separator s =
      (p s).next fun a t => atLeastFrom (separator.skipThen p) t 0 [a] [] t := by
  rw [sepBy1, Reply.next]
  rcases (p s).outcome with ⟨a, t⟩ | f | _
  · simp only [sepByFrom_eq_atLeastFrom]
    rw [atLeastFrom_log, List.reverse_reverse]
  · rfl
  · rfl

theorem sepBy_eq (p : Parser α) (separator : Parser β) (s : Text) :
    sepBy p separator s =
      (p s).either (fun a t => atLeastFrom (separator.skipThen p) t 0 [a] [] t)
        fun _ => .success [] s := by
  rw [sepBy, Reply.either]
  rcases (p s).outcome with ⟨a, t⟩ | f | _
  · simp only [sepByFrom_eq_atLeastFrom]
    rw [atLeastFrom_log, List.reverse_reverse]
  · simp [Reply.success, Reply.after]
  · rfl

theorem sepBy1_fails {p : Parser α} {separator : Parser β} {s : Text} {f : Failure} :
    (sepBy1 p separator s).outcome = .failure f ↔ (p s).outcome = .failure f := by
  rw [sepBy1_eq, Reply.next]
  rcases (p s).outcome with ⟨a, t⟩ | g | _
  · refine iff_of_false (fun h => ?_) (by simp)
    exact (atLeastFrom_fails h).1 rfl
  · simp
  · simp

theorem not_fails_many {p : Parser α} {s : Text} {f : Failure} :
    (many p s).outcome ≠ .failure f := by
  intro h
  exact (atLeastFrom_fails h).1 rfl

theorem not_fails_sepBy {p : Parser α} {separator : Parser β} {s : Text} {f : Failure} :
    (sepBy p separator s).outcome ≠ .failure f := by
  intro h
  rw [sepBy_eq, Reply.either] at h
  split at h
  · exact (atLeastFrom_fails h).1 rfl
  · cases h
  · cases h

end Parser

end Descent
