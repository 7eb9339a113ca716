import Descent.Proofs.Parser.Loops
import Descent.Proofs.Parser.Reads

/-!
# Alternatives in any grouping

Alternatives can be written as one choice, of a list or of a tuple, or two at a time, grouped in any
way. It makes no difference: `orElse` is associative on whole replies, so every `Bracketing` of a
list of parsers is the choice of that list (`Bracketing.parser_eq_choice`), and so is the choice
that goes through the places of a tuple (`tupleChoice_eq_choice`). What the choice replies depends
on the first parser that does not fail, and on those before it (`choice_of_not_fails`); where all
fail, the failure has their messages in order (`choice_of_failures`).
-/

namespace Descent

/-! ## Messages -/

instance : Std.Associative Failure.or := ⟨Failure.or_assoc⟩

theorem Failure.message_foldl_or (f : Failure) (fs : List Failure) :
    (fs.foldl or f).message = " OR ".intercalate ((f :: fs).map message) := by
  induction fs generalizing f with
  | nil => simp
  | cons g fs ih =>
    rw [List.foldl_cons, List.foldl_assoc, message_or, ih g]
    simp only [List.map_cons, String.intercalate_cons_cons]

namespace Parser

variable {α : Type} {p q r : Parser α} {ps qs : List (Parser α)} {s : Text}

/-! ## Two alternatives -/

theorem orElse_of_failure {f : Failure} (h : (p s).outcome = .failure f) :
    p.orElse q s = ((q s).mapFailure f.or).after (p s).events := by
  simp only [orElse, Reply.recover, h]

/-- What does not fail leaves nothing to the other alternative. -/
theorem orElse_of_not_fails (h : ¬ p.Fails s) : p.orElse q s = p s := by
  rcases hp : p s with ⟨⟨a, t⟩ | f | _, events⟩
  · simp only [orElse, Reply.recover, hp]
  · exact absurd ⟨f, by rw [hp]⟩ h
  · simp only [orElse, Reply.recover, hp]

theorem orElse_assoc (p q r : Parser α) : (p.orElse q).orElse r = p.orElse (q.orElse r) := by
  funext s
  rcases hp : (p s).outcome with ⟨a, t⟩ | f | _
  · simp only [orElse, Reply.recover, hp]
  · rcases hq : (q s).outcome with ⟨b, u⟩ | g | _
    · simp [orElse, Reply.recover, hp, hq, Reply.mapFailure, Outcome.mapFailure, Reply.after]
    · rcases hr : (r s).outcome with ⟨c, v⟩ | h | _ <;>
        simp [orElse, Reply.recover, hp, hq, hr, Reply.mapFailure, Outcome.mapFailure, Reply.after,
          Failure.or_assoc]
    · simp [orElse, Reply.recover, hp, hq, Reply.mapFailure, Outcome.mapFailure, Reply.after]
  · simp only [orElse, Reply.recover, hp]

/-! ## Choices -/

theorem choice_cons (p : Parser α) (hps : ps ≠ []) : choice (p :: ps) = p.orElse (choice ps) := by
  obtain ⟨q, qs, rfl⟩ := List.exists_cons_of_ne_nil hps
  exact choice_cons_cons p q qs

theorem choice_append (hps : ps ≠ []) (hqs : qs ≠ []) :
    choice (ps ++ qs) = (choice ps).orElse (choice qs) := by
  induction ps with
  | nil => exact absurd rfl hps
  | cons p ps ih =>
    by_cases h : ps = []
    · subst h
      rw [List.singleton_append, choice_cons p hqs, choice_one]
    · have hrest : ps ++ qs ≠ [] := List.append_ne_nil_of_left_ne_nil h qs
      rw [List.cons_append, choice_cons p hrest, ih h, choice_cons p h, orElse_assoc]

/-- Alternatives that are added one by one come after those that are there. -/
theorem foldl_orElse_choice (hqs : qs ≠ []) :
    ps.foldl orElse (choice qs) = choice (qs ++ ps) := by
  induction ps generalizing qs with
  | nil => rw [List.foldl_nil, List.append_nil]
  | cons p ps ih =>
    have hone : (choice qs).orElse p = choice (qs ++ [p]) := by
      rw [choice_append hqs (List.cons_ne_nil p []), choice_one]
    rw [List.foldl_cons, hone, ih (List.append_ne_nil_of_left_ne_nil hqs _), List.append_assoc,
      List.singleton_append]

theorem foldl_orElse (p : Parser α) (ps : List (Parser α)) :
    ps.foldl orElse p = choice (p :: ps) := by
  have h : ps.foldl orElse (choice [p]) = choice ([p] ++ ps) :=
    foldl_orElse_choice (List.cons_ne_nil p [])
  rwa [choice_one] at h

/-- The first alternative that does not fail decides. Those before it have reported, those after it
are not run. -/
theorem choice_of_not_fails {earlier : List (Parser α)} (hearlier : ∀ e ∈ earlier, e.Fails s)
    (hq : ¬ q.Fails s) (later : List (Parser α)) :
    choice (earlier ++ q :: later) s =
      ⟨(q s).outcome, (earlier.flatMap fun e => (e s).events) ++ (q s).events⟩ := by
  induction earlier with
  | nil =>
    show choice (q :: later) s = q s
    by_cases h : later = []
    · rw [h, choice_one]
    · rw [choice_cons q h, orElse_of_not_fails hq]
  | cons e earlier ih =>
    obtain ⟨⟨f, hf⟩, hearlier⟩ := List.forall_mem_cons.mp hearlier
    have hrest : earlier ++ q :: later ≠ [] := by simp
    have houtcome : (q s).outcome.mapFailure f.or = (q s).outcome := by
      rcases hreply : (q s).outcome with ⟨a, t⟩ | g | _
      · rfl
      · exact absurd ⟨g, hreply⟩ hq
      · rfl
    rw [List.cons_append, choice_cons e hrest, orElse_of_failure hf, ih hearlier, Reply.mapFailure,
      Reply.after, houtcome, List.flatMap_cons, List.append_assoc]

/-- Alternatives that all fail have all reported, and their failures are joined. -/
theorem choice_of_failures {f : Failure} {fs : List Failure}
    (h : (p :: ps).map (fun e => (e s).outcome) = (f :: fs).map .failure) :
    choice (p :: ps) s =
      ⟨.failure (fs.foldl Failure.or f), (p :: ps).flatMap fun e => (e s).events⟩ := by
  induction ps generalizing p f fs with
  | nil =>
    obtain ⟨hf, hnil⟩ := List.cons.inj h
    obtain rfl := List.map_eq_nil_iff.mp hnil.symm
    rw [choice_one, List.flatMap_singleton, List.foldl_nil, ← hf]
  | cons q ps ih =>
    obtain ⟨hf, hrest⟩ := List.cons.inj h
    obtain ⟨g, gs, rfl, -, -⟩ := List.map_eq_cons_iff.mp hrest.symm
    rw [choice_cons_cons, orElse_of_failure hf, ih hrest, List.foldl_cons, List.foldl_assoc]
    rfl

/-! ## Tuples -/

/-- From each place on, a tuple is the list of the components that are left. -/
theorem tupleChoiceFrom_eq_choiceFrom {n : Nat} (tuple : Fin n → Parser α) (i : Nat)
    (failed : Option Failure) (s : Text) :
    tupleChoiceFrom tuple i failed s = choiceFrom ((List.ofFn tuple).drop i) failed [] s := by
  induction hleft : n - i generalizing i failed with
  | zero =>
    have hi : ¬ i < n := by omega
    have hnil : (List.ofFn tuple).drop i = [] := by
      rw [List.drop_eq_nil_iff, List.length_ofFn]
      omega
    rw [tupleChoiceFrom, dif_neg hi, hnil]
    rfl
  | succ left ih =>
    have hi : i < n := by omega
    have hcons : (List.ofFn tuple).drop i = tuple ⟨i, hi⟩ :: (List.ofFn tuple).drop (i + 1) := by
      rw [List.drop_eq_getElem_cons (by rwa [List.length_ofFn]), List.getElem_ofFn]
    rw [tupleChoiceFrom, dif_pos hi, hcons, choiceFrom_cons]
    simp only [ih (i + 1) _ (by omega)]

theorem tupleChoice_eq_choice {n : Nat} (tuple : Fin n → Parser α) :
    tupleChoice tuple = choice (List.ofFn tuple) := by
  funext s
  exact tupleChoiceFrom_eq_choiceFrom tuple 0 none s

/-! ## Bracketings -/

end Parser

/-- Alternatives two at a time, in some grouping. -/
inductive Bracketing (α : Type) where
  | one (p : Parser α)
  | either (first second : Bracketing α)

namespace Bracketing

variable {α : Type}

/-- The alternatives in order, whatever their grouping. -/
def parsers : Bracketing α → List (Parser α)
  | one p => [p]
  | either first second => first.parsers ++ second.parsers

/-- Runs the first group of alternatives, and the second on the same text if it fails. -/
def parser : Bracketing α → Parser α
  | one p => p
  | either first second => first.parser.orElse second.parser

theorem parsers_ne_nil (b : Bracketing α) : b.parsers ≠ [] := by
  induction b with
  | one p => exact List.cons_ne_nil p []
  | either first second ihfirst _ => exact List.append_ne_nil_of_left_ne_nil ihfirst _

theorem parser_eq_choice (b : Bracketing α) : b.parser = Parser.choice b.parsers := by
  induction b with
  | one p => exact (Parser.choice_one p).symm
  | either first second ihfirst ihsecond =>
    rw [parser, parsers, Parser.choice_append first.parsers_ne_nil second.parsers_ne_nil, ihfirst,
      ihsecond]

end Bracketing

namespace Parser

variable {α : Type}

/-- A choice of a list is that of a tuple, `orElse` from the left on, and `orElse` in any other
grouping. It replies as the first of its parsers that succeeds, after the events of those before it;
if all fail, it has all their events, and their messages in order. -/
theorem choice_bracketing (p : Parser α) (ps : List (Parser α)) (s : Text) :
    (∀ (n : Nat) (tuple : Fin n → Parser α), List.ofFn tuple = p :: ps →
      tupleChoice tuple = choice (p :: ps)) ∧
    ps.foldl orElse p = choice (p :: ps) ∧
    (∀ b : Bracketing α, b.parsers = p :: ps → b.parser = choice (p :: ps)) ∧
    (∀ earlier q later a r, p :: ps = earlier ++ q :: later → (∀ e ∈ earlier, e.Fails s) →
      q.Reads s a r → choice (p :: ps) s =
        ⟨.success a r, (earlier.flatMap fun e => (e s).events) ++ (q s).events⟩) ∧
    (∀ fs : List Failure, (p :: ps).map (fun e => (e s).outcome) = fs.map .failure →
      ∃ f, choice (p :: ps) s = ⟨.failure f, (p :: ps).flatMap fun e => (e s).events⟩ ∧
        f.message = " OR ".intercalate (fs.map Failure.message)) ∧
    choice ([] : List (Parser α)) = fail := by
  refine ⟨?_, foldl_orElse p ps, ?_, ?_, ?_, rfl⟩
  · intro n tuple htuple
    rw [tupleChoice_eq_choice, htuple]
  · intro b hb
    rw [b.parser_eq_choice, hb]
  · intro earlier q later a r hps hearlier hq
    have houtcome : (q s).outcome = .success a r := hq
    rw [hps, choice_of_not_fails hearlier (fun h => h.not_reads hq), houtcome]
  · intro fs h
    obtain ⟨f, fs, rfl, -, -⟩ := List.map_eq_cons_iff.mp h.symm
    exact ⟨fs.foldl Failure.or f, choice_of_failures h, Failure.message_foldl_or f fs⟩

/-- Grouped to the right, three letters: one that is not tried reports nothing, and three that fail
have a message each. -/
theorem choice_bracketing_letters :
    (char 'a').orElse ((traced "b" (char 'b')).orElse (traced "c" (char 'c'))) ['b'] =
      ⟨.success 'b' [], [⟨.attempt ['b'], ["b"]⟩, ⟨.matched [], ["b"]⟩]⟩ ∧
    ∃ f, ((char 'a').orElse ((char 'b').orElse (char 'c')) ['x']).outcome = .failure f ∧
      (tupleChoice [char 'a', char 'b', char 'c'].get ['x']).outcome = .failure f ∧
      f.message = "Invalid input: x OR Invalid input: x OR Invalid input: x" := by
  obtain ⟨-, -, htraced, hfirst, -⟩ :=
    choice_bracketing (char 'a') [traced "b" (char 'b'), traced "c" (char 'c')] ['b']
  obtain ⟨htuple, -, hplain, -, hall, -⟩ := choice_bracketing (char 'a') [char 'b', char 'c'] ['x']
  constructor
  · have hb := htraced (.either (.one _) (.either (.one _) (.one _))) rfl
    refine (congrFun hb ['b']).trans ?_
    refine hfirst [char 'a'] _ [traced "c" (char 'c')] 'b' [] rfl ?_ ?_
    · exact List.forall_mem_singleton.mpr ⟨_, rfl⟩
    · rfl
  · have hb := hplain (.either (.one _) (.either (.one _) (.one _))) rfl
    obtain ⟨f, hf, hmessage⟩ := hall [Cause.unexpected ['x'], Cause.unexpected ['x'],
      Cause.unexpected ['x']] rfl
    refine ⟨f, ?_, by rw [htuple 3 _ rfl, hf], hmessage⟩
    show ((Bracketing.either (.one (char 'a')) (.either (.one (char 'b'))
      (.one (char 'c')))).parser ['x']).outcome = .failure f
    rw [hb, hf]

end Parser
end Descent
