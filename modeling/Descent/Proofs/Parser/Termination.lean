import Descent.Proofs.Parser.Loops

/-!
# Runs that end

`p.Ends s` says that the run of `p` on `s` succeeds or fails. A combinator that runs each of its
parsers once ends if they do, each on the text that it is given. A repetition also needs a parser
that progresses; then its rounds are counted off along the text and do not run out.
-/

namespace Descent

namespace Reply

variable {α β : Type} {reply : Reply α}

theorem success_ne_diverges (a : α) (r : Text) : (success a r).outcome ≠ .diverges := by
  simp [success]

theorem failure_ne_diverges (f : Failure) : (failure f : Reply α).outcome ≠ .diverges := by
  simp [failure]

/-- A run ends if what it does first ends, and whatever it goes on with. -/
theorem either_ne_diverges {ok : α → Text → Reply β} {bad : Failure → Reply β}
    (h : reply.outcome ≠ .diverges)
    (hok : ∀ a r, reply.outcome = .success a r → (ok a r).outcome ≠ .diverges)
    (hbad : ∀ f, reply.outcome = .failure f → (bad f).outcome ≠ .diverges) :
    (reply.either ok bad).outcome ≠ .diverges := by
  unfold either
  split
  · next a r ha => exact hok a r ha
  · next f hf => exact hbad f hf
  · next hd => exact absurd hd h

theorem next_ne_diverges {go : α → Text → Reply β} (h : reply.outcome ≠ .diverges)
    (hgo : ∀ a r, reply.outcome = .success a r → (go a r).outcome ≠ .diverges) :
    (reply.next go).outcome ≠ .diverges := by
  rw [next_eq_either]
  exact either_ne_diverges h hgo fun f _ => failure_ne_diverges f

theorem recover_ne_diverges {go : Failure → Reply α} (h : reply.outcome ≠ .diverges)
    (hgo : ∀ f, reply.outcome = .failure f → (go f).outcome ≠ .diverges) :
    (reply.recover go).outcome ≠ .diverges := by
  rw [recover_eq_either]
  exact either_ne_diverges h (fun a r _ => success_ne_diverges a r) hgo

theorem map_ne_diverges (h : reply.outcome ≠ .diverges) (f : α → β) :
    (reply.map f).outcome ≠ .diverges := by
  rw [map_eq_either]
  exact either_ne_diverges h (fun a r _ => success_ne_diverges (f a) r) fun g _ =>
    failure_ne_diverges g

theorem mapFailure_ne_diverges (h : reply.outcome ≠ .diverges) (f : Failure → Failure) :
    (reply.mapFailure f).outcome ≠ .diverges := by
  rw [mapFailure_eq_either]
  exact either_ne_diverges h (fun a r _ => success_ne_diverges a r) fun g _ =>
    failure_ne_diverges (f g)

end Reply

namespace Parser

variable {α β γ : Type} {p : Parser α} {q : Parser β} {s : Text}

/-- The run of a parser on a text comes to an end. -/
def Ends (p : Parser α) (s : Text) : Prop := (p s).outcome ≠ .diverges

theorem ends_iff : p.Ends s ↔ (∃ a r, p.Reads s a r) ∨ p.Fails s := by
  rcases h : (p s).outcome with ⟨a, r⟩ | f | _ <;> simp [Ends, Reads, Fails, h]

/-! ## Primitive parsers -/

theorem ends_undefinedRule (s : Text) : (undefinedRule : Parser α).Ends s := by
  simp [Ends, undefinedRule]

theorem ends_item (s : Text) : item.Ends s := by
  cases s with
  | nil => exact Reply.failure_ne_diverges _
  | cons c t => exact Reply.success_ne_diverges c t

theorem ends_satisfy (test : Char → Bool) (s : Text) : (satisfy test).Ends s := by
  refine Reply.next_ne_diverges (ends_item s) fun c r _ => ?_
  split
  · exact Reply.success_ne_diverges c r
  · exact Reply.failure_ne_diverges _

theorem ends_char (c : Char) (s : Text) : (char c).Ends s := ends_satisfy _ s

theorem ends_literal (word : String) (s : Text) : (literal word).Ends s := by
  have hcharacters (w s : Text) : (characters w).Ends s := by
    rw [ends_iff]
    by_cases h : w <+: s
    · obtain ⟨r, rfl⟩ := h
      exact Or.inl ⟨(), r, reads_characters.mpr rfl⟩
    · exact Or.inr (fails_characters.mpr h)
  exact Reply.map_ne_diverges (hcharacters _ s) _

namespace Ends

/-! ## Values and sequences -/

theorem map (h : p.Ends s) (f : α → β) : (p.map f).Ends s := Reply.map_ne_diverges h f

theorem convert (h : p.Ends s) (f : α → Except String β) : (p.convert f).Ends s := by
  refine Reply.next_ne_diverges h fun a r _ => ?_
  split
  · exact Reply.success_ne_diverges _ r
  · exact Reply.failure_ne_diverges _

theorem filterExpecting [Inspect α] (h : p.Ends s) (test : α → Bool) (expectation : String) :
    (p.filterExpecting test expectation).Ends s := by
  refine Reply.next_ne_diverges h fun a r _ => ?_
  split
  · exact Reply.success_ne_diverges a r
  · exact Reply.failure_ne_diverges _

theorem skipThen (hp : p.Ends s) (hq : ∀ a r, p.Reads s a r → q.Ends r) :
    (p.skipThen q).Ends s := Reply.next_ne_diverges hp hq

theorem both (hp : p.Ends s) (hq : ∀ a r, p.Reads s a r → q.Ends r) : (p.both q).Ends s :=
  Reply.next_ne_diverges hp fun a r ha => (hq a r ha).map _

theorem thenSkip (hp : p.Ends s) (hq : ∀ a r, p.Reads s a r → q.Ends r) :
    (p.thenSkip q).Ends s := Reply.next_ne_diverges hp fun a r ha => (hq a r ha).map _

theorem bracket {closing : Parser γ} (hp : p.Ends s) (hq : ∀ a r, p.Reads s a r → q.Ends r)
    (hclosing : ∀ r, closing.Ends r) : (Parser.bracket p q closing).Ends s := by
  rw [bracket_eq_skipThen]
  exact hp.skipThen fun a r ha => (hq a r ha).thenSkip fun _ r _ => hclosing r

theorem times (n : Nat) (h : ∀ s, p.Ends s) : (Parser.times n p).Ends s := by
  have hsequence (ps : List (Parser α)) (hps : ∀ q ∈ ps, q = p) (values : List α) (s : Text) :
      (sequenceFrom ps values [] s).outcome ≠ .diverges := by
    induction ps generalizing values s with
    | nil => exact Reply.success_ne_diverges _ s
    | cons q ps ih =>
      obtain ⟨rfl, hps⟩ := List.forall_mem_cons.mp hps
      rw [sequenceFrom_cons]
      exact Reply.next_ne_diverges (h s) fun a r _ => ih hps _ r
  rw [Ends, Parser.times, timesFrom_eq_sequenceFrom]
  exact hsequence _ (fun q hq => List.eq_of_mem_replicate hq) [] s

/-! ## Alternatives -/

theorem orElse {q : Parser α} (hp : p.Ends s) (hq : q.Ends s) : (p.orElse q).Ends s :=
  Reply.recover_ne_diverges hp fun _ _ => Reply.mapFailure_ne_diverges hq _

theorem optional (h : p.Ends s) : p.optional.Ends s :=
  Reply.recover_ne_diverges (h.map some) fun _ _ => Reply.success_ne_diverges none s

theorem choice {ps : List (Parser α)} (h : ∀ p ∈ ps, p.Ends s) : (Parser.choice ps).Ends s := by
  have hchoice (failed : Option Failure) : (choiceFrom ps failed [] s).outcome ≠ .diverges := by
    induction ps generalizing failed with
    | nil => exact Reply.failure_ne_diverges _
    | cons p ps ih =>
      obtain ⟨hp, hps⟩ := List.forall_mem_cons.mp h
      rw [choiceFrom_cons]
      exact Reply.recover_ne_diverges hp fun _ _ => ih hps _
  exact hchoice none

/-! ## Repetition -/

theorem atLeastFrom (hp : p.Progresses) {rounds : Text} (hrounds : s.length ≤ rounds.length)
    (h : ∀ r, r.length ≤ s.length → p.Ends r) (least : Nat) (values : List α) :
    (Parser.atLeastFrom p rounds least values [] s).outcome ≠ .diverges := by
  have hstop (least : Nat) (values : List α) (s : Text) (f : Failure) :
      (atLeastStop least values s f).outcome ≠ .diverges := by
    unfold atLeastStop
    split
    · exact Reply.success_ne_diverges _ s
    · exact Reply.failure_ne_diverges f
  induction rounds generalizing s least values with
  | nil =>
    rw [atLeastFrom_nil]
    refine Reply.either_ne_diverges (h s (Nat.le_refl _)) (fun a r ha => ?_)
      fun f _ => hstop least values s f
    -- There are no rounds for a text without characters, in which nothing can be read.
    have hlt : r.length < s.length := hp ha
    exact absurd (Nat.lt_of_lt_of_le hlt hrounds) (Nat.not_lt_zero _)
  | cons c rounds ih =>
    rw [atLeastFrom_cons]
    refine Reply.either_ne_diverges (h s (Nat.le_refl _)) (fun a r ha => ?_)
      fun f _ => hstop least values s f
    have hlt : r.length < s.length := hp ha
    rw [List.length_cons] at hrounds
    exact ih (by omega) (fun t ht => h t (by omega)) _ _

theorem many (hp : p.Progresses) (h : ∀ r, p.Ends r) : (Parser.many p).Ends s :=
  atLeastFrom hp (Nat.le_refl _) (fun r _ => h r) 0 []

theorem many1 (hp : p.Progresses) (h : ∀ r, p.Ends r) : (Parser.many1 p).Ends s :=
  atLeastFrom hp (Nat.le_refl _) (fun r _ => h r) 1 []

/-- After its first value, a separated list ends if its separator progresses and its values, which
need not, end on what is left of the text. -/
theorem separated (hp : p.NonGrowing) (hq : q.Progresses) (h : ∀ r, r.length ≤ s.length → p.Ends r)
    (hqends : ∀ r, q.Ends r) (values : List α) :
    (Parser.atLeastFrom (q.skipThen p) s 0 values [] s).outcome ≠ .diverges := by
  refine atLeastFrom (hq.skipThen hp) (Nat.le_refl _) (fun t ht => ?_) 0 values
  refine (hqends t).skipThen fun b u hb => h u ?_
  have hlt : u.length < t.length := hq hb
  omega

theorem sepBy1 (hp : p.NonGrowing) (hq : q.Progresses)
    (h : ∀ r, r.length ≤ s.length → p.Ends r) (hqends : ∀ r, q.Ends r) :
    (Parser.sepBy1 p q).Ends s := by
  rw [Ends, sepBy1_eq]
  refine Reply.next_ne_diverges (h s (Nat.le_refl _)) fun a r ha => ?_
  exact separated hp hq (fun t ht => h t (Nat.le_trans ht (hp ha))) hqends [a]

theorem sepBy (hp : p.NonGrowing) (hq : q.Progresses)
    (h : ∀ r, r.length ≤ s.length → p.Ends r) (hqends : ∀ r, q.Ends r) :
    (Parser.sepBy p q).Ends s := by
  rw [Ends, sepBy_eq]
  refine Reply.either_ne_diverges (h s (Nat.le_refl _)) (fun a r ha => ?_)
    fun _ _ => Reply.success_ne_diverges [] s
  exact separated hp hq (fun t ht => h t (Nat.le_trans ht (hp ha))) hqends [a]

/-! ## Spans -/

theorem traced (h : p.Ends s) (name : String) : (p.traced name).Ends s := h

end Ends
end Parser
end Descent
