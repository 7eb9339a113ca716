import Descent.Proofs.Parser.Laws

/-!
# Repetition is greedy

A repetition applies its parser to the text, then to what that left, and so on, as long as the
parser succeeds. `Applications` are such runs one after the other, each with the text it was given
and the value it read, and a `GreedyChain` goes on to a text on which the parser fails. From every
text there is at most one greedy chain, and exactly one if the parser progresses and ends on what it
is given. The whole reply of a repetition can be read off it: the values in order if there are
enough of them, otherwise the failure that ended the chain, and in any case the events of all runs
(`repetition_greedy`).
-/

namespace Descent.Parser

variable {α : Type} {p : Parser α} {s r t : Text}

/-! ## Runs one after the other -/

/-- `Applications p s steps r`: the parser succeeds on `s` and then, again and again, on what it
left; each step is a text that it was given and the value that it read from there. What it leaves in
the end is `r`. -/
inductive Applications (p : Parser α) : Text → List (Text × α) → Text → Prop where
  | nil {s : Text} : Applications p s [] s
  | cons {s t r : Text} {a : α} {steps : List (Text × α)} :
      p.Reads s a t → Applications p t steps r → Applications p s ((s, a) :: steps) r

/-- Applications up to a text on which the parser fails. -/
structure GreedyChain (p : Parser α) (s : Text) (steps : List (Text × α)) (r : Text)
    (f : Failure) : Prop where
  applications : Applications p s steps r
  stops : (p r).outcome = .failure f

/-- What is reported by applications of a parser, in order. -/
def stepEvents (p : Parser α) (steps : List (Text × α)) : List Event :=
  steps.flatMap fun step => (p step.1).events

/-- Where the parser fails there is nothing more to apply it to. -/
theorem GreedyChain.unique {steps steps' : List (Text × α)} {r' : Text} {f f' : Failure}
    (h : GreedyChain p s steps r f) (h' : GreedyChain p s steps' r' f') :
    steps = steps' ∧ r = r' ∧ f = f' := by
  obtain ⟨happ, hstops⟩ := h
  obtain ⟨happ', hstops'⟩ := h'
  induction happ generalizing steps' with
  | nil =>
    cases happ' with
    | nil =>
      rw [hstops, Outcome.failure.injEq] at hstops'
      exact ⟨rfl, rfl, hstops'⟩
    | cons ha _ => exact absurd ha (Fails.not_reads ⟨f, hstops⟩)
  | cons ha _ ih =>
    cases happ' with
    | nil => exact absurd ha (Fails.not_reads ⟨f', hstops'⟩)
    | cons ha' happ' =>
      obtain ⟨rfl, rfl⟩ := ha.unique ha'
      obtain ⟨rfl, rfl, rfl⟩ := ih hstops happ'
      exact ⟨rfl, rfl, rfl⟩

/-- The texts become shorter, so a parser that ends on all of them fails on one. -/
theorem Progresses.exists_greedyChain (hp : p.Progresses)
    (hends : ∀ steps t, Applications p s steps t → p.Ends t) :
    ∃ steps r f, GreedyChain p s steps r f := by
  induction hlength : s.length using Nat.strongRecOn generalizing s with
  | ind n ih =>
    rcases ends_iff.mp (hends [] s .nil) with ⟨a, t, ha⟩ | ⟨f, hf⟩
    · have hlt : t.length < n := by
        rw [← hlength]
        exact hp ha
      obtain ⟨steps, r, f, hchain⟩ :=
        ih t.length hlt (fun steps u h => hends _ u (.cons ha h)) rfl
      exact ⟨_, r, f, .cons ha hchain.applications, hchain.stops⟩
    · exact ⟨[], s, f, .nil, hf⟩

/-! ## The reply of a repetition -/

theorem GreedyChain.atLeastFrom_eq (hp : p.Progresses) {steps : List (Text × α)} {f : Failure}
    (h : GreedyChain p s steps r f) {rounds : Text} (hrounds : s.length ≤ rounds.length)
    (least : Nat) (values : List α) :
    atLeastFrom p rounds least values [] s =
      ⟨if least ≤ steps.length then .success (values.reverse ++ steps.map Prod.snd) r
        else .failure f, stepEvents p steps ++ (p r).events⟩ := by
  obtain ⟨happ, hstops⟩ := h
  induction happ generalizing rounds least values with
  | nil =>
    rw [atLeastFrom_of_failure hstops, atLeastStop]
    by_cases hleast : least = 0
    · subst hleast
      simp [Reply.after, Reply.success, stepEvents]
    · simp [hleast, Reply.after, Reply.failure, stepEvents]
  | @cons s t r a steps ha _ ih =>
    have hlt : t.length < s.length := hp ha
    -- The value took a character, so there is a round for it.
    cases rounds with
    | nil => exact absurd (Nat.lt_of_lt_of_le hlt hrounds) (Nat.not_lt_zero _)
    | cons c rounds =>
      have hrest : t.length ≤ rounds.length := by
        rw [List.length_cons] at hrounds
        omega
      have hleast : least - 1 ≤ steps.length ↔ least ≤ steps.length + 1 := by omega
      rw [atLeastFrom_cons, Reply.either_of_success ha, ih hrest _ _ hstops]
      simp [Reply.after, stepEvents, hleast]

theorem GreedyChain.atLeast_eq (hp : p.Progresses) {steps : List (Text × α)} {f : Failure}
    (h : GreedyChain p s steps r f) (n : Nat) :
    atLeast n p s =
      ⟨if n ≤ steps.length then .success (steps.map Prod.snd) r else .failure f,
        stepEvents p steps ++ (p r).events⟩ :=
  h.atLeastFrom_eq hp (Nat.le_refl _) n []

/-- Whatever its parser, a repetition without a minimum stops only where the parser fails. -/
theorem fails_of_reads_many {as : List α} (h : (many p).Reads s as r) : p.Fails r := by
  obtain ⟨bs, -, -, hfails, -⟩ := atLeastFrom_sound h
  exact hfails

/-! ## The greedy chain -/

/-- A parser that progresses, and ends on the texts that it is given one after the other, has one
greedy chain, and every repetition of it ends as that chain says. -/
theorem repetition_greedy (hp : p.Progresses)
    (hends : ∀ steps t, Applications p s steps t → p.Ends t) :
    ∃ steps r f, GreedyChain p s steps r f ∧
      (∀ steps' r' f', GreedyChain p s steps' r' f' → steps' = steps ∧ r' = r ∧ f' = f) ∧
      (∀ n, (atLeast n p).Ends s ∧
        (n ≤ steps.length → (atLeast n p s).outcome = .success (steps.map Prod.snd) r) ∧
        (steps.length < n → (atLeast n p s).outcome = .failure f) ∧
        (atLeast n p s).events = stepEvents p steps ++ (p r).events) ∧
      (many p).Reads s (steps.map Prod.snd) r ∧
      (∀ as t, (many p).Reads s as t → p.Fails t) ∧
      ¬ (many p).Fails s := by
  obtain ⟨steps, r, f, hchain⟩ := hp.exists_greedyChain hends
  have hreply (n : Nat) := hchain.atLeast_eq hp n
  have hsuccess (n : Nat) (hn : n ≤ steps.length) :
      (atLeast n p s).outcome = .success (steps.map Prod.snd) r := by
    rw [hreply, if_pos hn]
  have hfailure (n : Nat) (hn : steps.length < n) : (atLeast n p s).outcome = .failure f := by
    rw [hreply, if_neg (Nat.not_le.mpr hn)]
  refine ⟨steps, r, f, hchain, fun _ _ _ h => h.unique hchain, fun n => ?_,
    hsuccess 0 (Nat.zero_le _), fun _ _ => fails_of_reads_many, fun ⟨_, hg⟩ => not_fails_many hg⟩
  refine ⟨?_, hsuccess n, hfailure n, by rw [hreply]⟩
  intro hdiverges
  rcases Nat.lt_or_ge steps.length n with hn | hn
  · rw [hfailure n hn] at hdiverges
    cases hdiverges
  · rw [hsuccess n hn] at hdiverges
    cases hdiverges

/-- Two values are read from `ababa`, and the third is missing at the end of the text. -/
theorem repetition_greedy_pairs :
    (literal "ab").Progresses ∧
      (∀ steps t, Applications (literal "ab") ['a', 'b', 'a', 'b', 'a'] steps t →
        (literal "ab").Ends t) ∧
      (atLeast 2 (literal "ab") ['a', 'b', 'a', 'b', 'a']).outcome =
        .success ["ab", "ab"] ['a'] ∧
      (atLeast 3 (literal "ab") ['a', 'b', 'a', 'b', 'a']).outcome =
        .failure Cause.emptyInput ∧
      (literal "ab").Fails ['a'] := by
  have hp : (literal "ab").Progresses := by
    intro s a r h
    obtain ⟨rfl, -⟩ := reads_literal.mp h
    rw [List.length_append]
    exact Nat.lt_add_of_pos_left (by decide)
  have hends (steps : List (Text × String)) (t : Text)
      (_ : Applications (literal "ab") ['a', 'b', 'a', 'b', 'a'] steps t) :
      (literal "ab").Ends t := ends_literal "ab" t
  have hpairs : GreedyChain (literal "ab") ['a', 'b', 'a', 'b', 'a']
      [(['a', 'b', 'a', 'b', 'a'], "ab"), (['a', 'b', 'a'], "ab")] ['a'] Cause.emptyInput :=
    ⟨.cons (reads_literal.mpr ⟨rfl, rfl⟩) (.cons (reads_literal.mpr ⟨rfl, rfl⟩) .nil), rfl⟩
  obtain ⟨steps, r, f, -, hunique, hrepeat, hmany, hfails, -⟩ := repetition_greedy hp hends
  obtain ⟨rfl, rfl, rfl⟩ := hunique _ _ _ hpairs
  obtain ⟨-, htwo, -⟩ := hrepeat 2
  obtain ⟨-, -, hthree, -⟩ := hrepeat 3
  exact ⟨hp, hends, htwo (by decide), hthree (by decide), hfails _ _ hmany⟩

end Descent.Parser
