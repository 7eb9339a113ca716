import Descent.Proofs.Parser.Loops

/-!
# How replies come about

Every reply of a parser is put together from a few: success and failure without events, the warning
of a rule without a definition, and, from other replies, going on after one (`Reply.either`) and the
span around one. `Arises` says so for a single run, and a parser all of whose runs are of this kind
is `Composed`; every combinator makes composed parsers from composed ones. What is kept by these few
ways is true of every run of every grammar: a success leaves a suffix of the text
(`Arises.suffix`), and a failure quotes nothing but suffixes of it (`Arises.quotes`).

A parser may also be composed *silently*, with no span and no warning. Then it reports nothing
(`Arises.events_eq_nil`).
-/

namespace Descent

/-! ## Runs -/

/-- The texts that a diagnostic quotes are suffixes of a text, and what is left after a value is one
of the text it was read from. -/
def Cause.Quotes (s : Text) : Cause → Prop
  | .emptyInput | .undefinedRule | .reported _ => True
  | .unexpected input | .trailing input | .unconvertible _ input | .mismatch _ input
  | .nesting _ input => input <:+ s
  | .rejected _ _ before after => before <:+ s ∧ after <:+ before

theorem Cause.Quotes.mono {s t : Text} {c : Cause} (h : c.Quotes t) (hts : t <:+ s) :
    c.Quotes s := by
  cases c with
  | emptyInput | undefinedRule | reported => trivial
  | unexpected | trailing | unconvertible | mismatch | nesting =>
    exact List.IsSuffix.trans h hts
  | rejected => exact ⟨h.1.trans hts, h.2⟩

theorem Failure.quotes_or {f g : Failure} {s : Text} (hf : ∀ c ∈ f.causes, c.Quotes s)
    (hg : ∀ c ∈ g.causes, c.Quotes s) : ∀ c ∈ (f.or g).causes, c.Quotes s := by
  rw [causes_or, List.forall_mem_append]
  exact ⟨hf, hg⟩

/-- How a reply comes about that has to do with a text: what it leaves and what it quotes are
suffixes of that text. A silent reply has neither spans nor warnings. -/
inductive Arises (silent : Bool) (s : Text) : {α : Type} → Reply α → Prop where
  | success {α : Type} {r : Text} (value : α) (h : r <:+ s) : Arises silent s (.success value r)
  | failure {α : Type} {f : Failure} (h : ∀ c ∈ f.causes, c.Quotes s) :
      Arises silent s (.failure f : Reply α)
  | diverges {α : Type} : Arises silent s (.diverges : Reply α)
  | either {α β : Type} {reply : Reply α} {ok : α → Text → Reply β} {bad : Failure → Reply β}
      (h : Arises silent s reply)
      (hok : ∀ a r, reply.outcome = .success a r → Arises silent s (ok a r))
      (hbad : ∀ f, reply.outcome = .failure f → Arises silent s (bad f)) :
      Arises silent s (reply.either ok bad)
  | traced {α : Type} {t : Text} (name : String) {p : Parser α} (loud : silent = false)
      (ht : t <:+ s) (h : Arises silent s (p t)) : Arises silent s (p.traced name t)
  | undefinedRule {α : Type} (loud : silent = false) (t : Text) :
      Arises silent s (Parser.undefinedRule t : Reply α)

namespace Arises

variable {α β : Type} {silent : Bool} {s t r : Text} {reply : Reply α}

/-- A success leaves a suffix of the text. -/
theorem suffix (h : Arises silent s reply) {a : α} (ha : reply.outcome = .success a r) :
    r <:+ s := by
  induction h generalizing r with
  | success value h =>
    cases ha
    exact h
  | failure | diverges | undefinedRule => cases ha
  | either _ _ _ _ ihok ihbad =>
    unfold Reply.either at ha
    split at ha
    · next b t hb => exact ihok b t hb ha
    · next f hf => exact ihbad f hf ha
    · cases ha
  | traced _ _ _ _ ih => exact ih ha

/-- A failure quotes nothing but suffixes of the text. -/
theorem quotes (h : Arises silent s reply) {f : Failure} (hf : reply.outcome = .failure f) :
    ∀ c ∈ f.causes, c.Quotes s := by
  induction h with
  | success | diverges => cases hf
  | failure h =>
    cases hf
    exact h
  | either _ _ _ _ ihok ihbad =>
    unfold Reply.either at hf
    split at hf
    · next b t hb => exact ihok b t hb hf
    · next g hg => exact ihbad g hg hf
    · cases hf
  | traced _ _ _ _ ih => exact ih hf
  | undefinedRule =>
    cases hf
    intro c hc
    rw [List.mem_singleton.mp hc]
    trivial

/-- A reply that comes about silently reports nothing. -/
theorem events_eq_nil (h : Arises true s reply) : reply.events = [] := by
  induction h with
  | success | failure | diverges => rfl
  | either _ _ _ ih ihok ihbad =>
    unfold Reply.either
    split
    · next b t hb => simp [Reply.after, ih, ihok b t hb]
    · next f hf => simp [Reply.after, ih, ihbad f hf]
    · exact ih
  | traced _ loud | undefinedRule loud => cases loud

/-- What has to do with a suffix of a text has to do with the text. -/
theorem mono (h : Arises silent t reply) (hts : t <:+ s) : Arises silent s reply := by
  induction h with
  | success value h => exact .success value (h.trans hts)
  | failure h => exact .failure fun c hc => (h c hc).mono hts
  | diverges => exact .diverges
  | either _ _ _ ih ihok ihbad => exact .either ih ihok ihbad
  | traced name loud ht _ ih => exact .traced name loud (ht.trans hts) ih
  | undefinedRule loud t => exact .undefinedRule loud t

/-! ### Going on -/

theorem next {go : α → Text → Reply β} (h : Arises silent s reply)
    (hgo : ∀ a r, r <:+ s → Arises silent s (go a r)) : Arises silent s (reply.next go) := by
  rw [Reply.next_eq_either]
  exact .either h (fun a r ha => hgo a r (h.suffix ha)) fun f hf => .failure (h.quotes hf)

theorem map (h : Arises silent s reply) (f : α → β) : Arises silent s (reply.map f) := by
  rw [Reply.map_eq_either]
  exact .either h (fun a r ha => .success _ (h.suffix ha)) fun f hf => .failure (h.quotes hf)

theorem recover {go : Failure → Reply α} (h : Arises silent s reply)
    (hgo : ∀ f, (∀ c ∈ f.causes, c.Quotes s) → Arises silent s (go f)) :
    Arises silent s (reply.recover go) := by
  rw [Reply.recover_eq_either]
  exact .either h (fun a r ha => .success a (h.suffix ha)) fun f hf => hgo f (h.quotes hf)

theorem cause {c : Cause} (h : c.Quotes s) : Arises silent s (.failure c : Reply α) := by
  refine .failure fun d hd => ?_
  rw [List.mem_singleton.mp hd]
  exact h

end Arises

namespace Parser

variable {α β γ : Type} {silent : Bool} {p : Parser α} {q : Parser β}

/-- Every run of the parser comes about in the ways that there are. -/
def Composed (silent : Bool) (p : Parser α) : Prop := ∀ s, Arises silent s (p s)

namespace Composed

theorem mono {r s : Text} (h : p.Composed silent) (hr : r <:+ s) : Arises silent s (p r) :=
  (h r).mono hr

theorem suffix (h : p.Composed silent) {s r : Text} {a : α} (ha : p.Reads s a r) : r <:+ s :=
  (h s).suffix ha

/-! ## Primitive parsers -/

theorem succeed (value : α) : (Parser.succeed value).Composed silent :=
  fun s => .success value (List.suffix_refl s)

theorem fail : (Parser.fail : Parser α).Composed silent :=
  fun s => .cause (List.suffix_refl s)

theorem item : Parser.item.Composed silent
  | [] => .cause trivial
  | c :: r => .success c (List.suffix_cons c r)

@[simp] theorem satisfy (test : Char → Bool) : (Parser.satisfy test).Composed silent := by
  intro s
  refine .next (item s) fun c r hr => ?_
  split
  · exact .success c hr
  · exact .cause (List.suffix_refl s)

theorem satisfyExpecting (test : Char → Bool) (expectation : String) :
    (Parser.satisfyExpecting test expectation).Composed silent := by
  intro s
  refine .next (item s) fun c r hr => ?_
  split
  · exact .success c hr
  · exact .cause ⟨List.suffix_refl s, hr⟩

@[simp] theorem char (c : Char) : (Parser.char c).Composed silent := satisfy _

theorem characters (w : Text) : (Parser.characters w).Composed silent := by
  induction w with
  | nil => exact succeed ()
  | cons c w ih =>
    intro s
    cases s with
    | nil => exact .cause trivial
    | cons d s =>
      rw [Parser.characters]
      split
      · exact ih.mono (List.suffix_cons d s)
      · exact .cause (List.suffix_refl _)

theorem literal (word : String) : (Parser.literal word).Composed silent :=
  fun s => (characters word.toList s).map _

theorem ending : Parser.ending.Composed silent
  | [] => .success () (List.suffix_refl [])
  | c :: r => .cause (List.suffix_refl (c :: r))

/-! ## Values and sequences -/

theorem map (h : p.Composed silent) (f : α → β) : (p.map f).Composed silent :=
  fun s => (h s).map f

theorem convert (h : p.Composed silent) (f : α → Except String β) :
    (p.convert f).Composed silent := by
  intro s
  refine .next (h s) fun a r hr => ?_
  split
  · exact .success _ hr
  · exact .cause (List.suffix_refl s)

theorem filterExpecting [Inspect α] (h : p.Composed silent) (test : α → Bool)
    (expectation : String) : (p.filterExpecting test expectation).Composed silent := by
  intro s
  refine .next (h s) fun a r hr => ?_
  split
  · exact .success a hr
  · exact .cause ⟨List.suffix_refl s, hr⟩

theorem filter [Inspect α] (h : p.Composed silent) (test : α → Bool) :
    (p.filter test).Composed silent := h.filterExpecting test _

theorem andThen {q : α → Parser β} (hp : p.Composed silent)
    (hq : ∀ a, (q a).Composed silent) : (p.andThen q).Composed silent :=
  fun s => .next (hp s) fun a _ hr => (hq a).mono hr

theorem both (hp : p.Composed silent) (hq : q.Composed silent) :
    (p.both q).Composed silent :=
  fun s => .next (hp s) fun _ _ hr => (hq.mono hr).map _

theorem skipThen (hp : p.Composed silent) (hq : q.Composed silent) :
    (p.skipThen q).Composed silent :=
  fun s => .next (hp s) fun _ _ hr => hq.mono hr

theorem thenSkip (hp : p.Composed silent) (hq : q.Composed silent) :
    (p.thenSkip q).Composed silent :=
  fun s => .next (hp s) fun _ _ hr => (hq.mono hr).map _

theorem bracket {closing : Parser γ} (hp : p.Composed silent) (hq : q.Composed silent)
    (hclosing : closing.Composed silent) : (Parser.bracket p q closing).Composed silent := by
  rw [bracket_eq_skipThen]
  exact hp.skipThen (hq.thenSkip hclosing)

theorem sequenceFrom {ps : List (Parser α)} (h : ∀ p ∈ ps, p.Composed silent) (values : List α) :
    (Parser.sequenceFrom ps values []).Composed silent := by
  induction ps generalizing values with
  | nil => exact succeed values.reverse
  | cons p ps ih =>
    obtain ⟨hp, hps⟩ := List.forall_mem_cons.mp h
    intro s
    rw [sequenceFrom_cons]
    exact .next (hp s) fun a _ hr => (ih hps (a :: values)).mono hr

theorem sequence {ps : List (Parser α)} (h : ∀ p ∈ ps, p.Composed silent) :
    (Parser.sequence ps).Composed silent := sequenceFrom h []

theorem times (n : Nat) (h : p.Composed silent) : (Parser.times n p).Composed silent := by
  rw [Parser.times, timesFrom_eq_sequenceFrom]
  exact sequenceFrom (fun q hq => (List.eq_of_mem_replicate hq).symm ▸ h) []

theorem traced (name : String) (h : p.Composed false) :
    (Parser.traced name p).Composed false :=
  fun s => .traced name rfl (List.suffix_refl s) (h s)

/-! ## Alternatives -/

theorem choiceFrom {ps : List (Parser α)} (h : ∀ p ∈ ps, p.Composed silent)
    {failed : Option Failure} {s : Text} (hf : ∀ f ∈ failed, ∀ c ∈ f.causes, c.Quotes s) :
    Arises silent s (Parser.choiceFrom ps failed [] s) := by
  induction ps generalizing failed with
  | nil =>
    cases failed with
    | none => exact .cause (List.suffix_refl s)
    | some f => exact .failure (hf f rfl)
  | cons p ps ih =>
    obtain ⟨hp, hps⟩ := List.forall_mem_cons.mp h
    rw [choiceFrom_cons]
    refine .recover (hp s) fun g hg => ih hps fun f hfg => ?_
    cases failed with
    | none =>
      cases hfg
      exact hg
    | some e =>
      cases hfg
      exact Failure.quotes_or (hf e rfl) hg

theorem choice {ps : List (Parser α)} (h : ∀ p ∈ ps, p.Composed silent) :
    (Parser.choice ps).Composed silent :=
  fun _ => choiceFrom h fun f hf => by cases hf

theorem orElse {q : Parser α} (hp : p.Composed silent) (hq : q.Composed silent) :
    (p.orElse q).Composed silent := by
  intro s
  refine .recover (hp s) fun f hf => ?_
  rw [Reply.mapFailure_eq_either]
  exact .either (hq s) (fun a r ha => .success a (hq.suffix ha)) fun g hg =>
    .failure (Failure.quotes_or hf ((hq s).quotes hg))

theorem optional (h : p.Composed silent) : p.optional.Composed silent :=
  fun s => .recover ((h s).map some) fun _ _ => .success none (List.suffix_refl s)

/-! ## Repetition -/

theorem atLeastFrom (h : p.Composed silent) (rounds : Text) (least : Nat) (values : List α) :
    (Parser.atLeastFrom p rounds least values []).Composed silent := by
  have hstop (least : Nat) (values : List α) {s : Text} (f : Failure)
      (hf : (p s).outcome = .failure f) : Arises silent s (atLeastStop least values s f) := by
    unfold atLeastStop
    split
    · exact .success _ (List.suffix_refl s)
    · exact .failure ((h s).quotes hf)
  induction rounds generalizing least values with
  | nil =>
    intro s
    rw [atLeastFrom_nil]
    exact .either (h s) (fun _ _ _ => .diverges) (hstop least values)
  | cons c rounds ih =>
    intro s
    rw [atLeastFrom_cons]
    exact .either (h s) (fun a r ha => (ih (least - 1) (a :: values)).mono (h.suffix ha))
      (hstop least values)

theorem atLeast (n : Nat) (h : p.Composed silent) : (Parser.atLeast n p).Composed silent :=
  fun s => h.atLeastFrom s n [] s

theorem many (h : p.Composed silent) : (Parser.many p).Composed silent := h.atLeast 0

theorem many1 (h : p.Composed silent) : (Parser.many1 p).Composed silent := h.atLeast 1

theorem sepBy1 (hp : p.Composed silent) (hq : q.Composed silent) :
    (Parser.sepBy1 p q).Composed silent := by
  intro s
  rw [sepBy1_eq]
  exact .next (hp s) fun a r hr => ((hq.skipThen hp).atLeastFrom r 0 [a]).mono hr

theorem sepBy (hp : p.Composed silent) (hq : q.Composed silent) :
    (Parser.sepBy p q).Composed silent := by
  intro s
  rw [sepBy_eq]
  exact .either (hp s)
    (fun a r ha => ((hq.skipThen hp).atLeastFrom r 0 [a]).mono (hp.suffix ha))
    fun _ _ => .success [] (List.suffix_refl s)

/-! ## Rules -/

theorem undefinedRule : (Parser.undefinedRule : Parser α).Composed false :=
  fun s => .undefinedRule rfl s

theorem nested {body : Parser α → Parser α}
    (h : ∀ self, self.Composed silent → (body self).Composed silent) (n : Nat) :
    (Parser.nested body n).Composed silent := by
  induction n with
  | zero => exact fun _ => .diverges
  | succ n ih => exact h _ ih

theorem fix {body : Parser α → Parser α}
    (h : ∀ self, self.Composed silent → (body self).Composed silent) :
    (Parser.fix body).Composed silent :=
  fun s => nested h (s.length + 1) s

end Composed
end Parser

/-- Rules are composed if their bodies make composed parsers from those of the rules. -/
theorem Rules.composed {ι α : Type} {rules : Rules ι α}
    (h : ∀ name body, rules name = some body →
      ∀ call : ι → Parser α, (∀ other, (call other).Composed false) → (body call).Composed false)
    (count : Nat) (name : ι) : (rules.parser count name).Composed false := by
  have hnested (n : Nat) : ∀ name, (rules.nested n name).Composed false := by
    induction n with
    | zero => exact fun _ _ => .diverges
    | succ n ih =>
      intro name s
      rw [nested]
      split
      · next body hbody => exact h name body hbody _ ih s
      · exact .undefinedRule rfl s
  exact fun s => hnested _ name s

end Descent
