import Descent.Proofs.Parser.Composition
import Descent.Proofs.Parser.Termination

/-!
# Laws of combinators

Most combinators are others put together, and sequences are a monad. The laws are about whole runs:
values, what is left of the text, failures and events. Where both sides count their rounds along the
same text, they hold on every text. `many1` counts along the text from its first value on, and the
composed form from the second; there both runs must end, and for a parser that leaves suffixes of
its text one ends if the other does.

`structural_laws` puts the laws together.
-/

namespace Descent

/-! ## Replies that go on -/

namespace Reply

variable {α β γ : Type}

theorem after_next (events : List Event) (reply : Reply α) (go : α → Text → Reply β) :
    (reply.after events).next go = (reply.next go).after events := by
  rcases reply with ⟨⟨a, r⟩ | f | _, later⟩ <;> simp [next, after]

theorem next_next (reply : Reply α) (go : α → Text → Reply β) (more : β → Text → Reply γ) :
    (reply.next go).next more = reply.next fun a r => (go a r).next more := by
  rcases reply with ⟨⟨a, r⟩ | f | _, events⟩
  · exact after_next events (go a r) more
  · rfl
  · rfl

@[simp] theorem next_success_right (reply : Reply α) : reply.next success = reply := by
  rcases reply with ⟨⟨a, r⟩ | f | _, events⟩ <;> simp [next, success, after]

theorem map_eq_next (f : α → β) (reply : Reply α) :
    reply.map f = reply.next fun a r => success (f a) r := by
  rw [map_eq_either, next_eq_either]

theorem map_map (f : α → β) (g : β → γ) (reply : Reply α) :
    (reply.map f).map g = reply.map (g ∘ f) := by
  rcases reply with ⟨⟨a, r⟩ | h | _, events⟩ <;> rfl

theorem map_next (f : β → γ) (reply : Reply α) (go : α → Text → Reply β) :
    (reply.next go).map f = reply.next fun a r => (go a r).map f := by
  simp only [map_eq_next, next_next]

theorem map_either (f : β → γ) (reply : Reply α) (ok : α → Text → Reply β)
    (bad : Failure → Reply β) :
    (reply.either ok bad).map f =
      reply.either (fun a r => (ok a r).map f) fun g => (bad g).map f := by
  rcases reply with ⟨⟨a, r⟩ | g | _, events⟩ <;> rfl

/-- What does not fail once it goes on can only fail before. -/
theorem recover_next {reply : Reply α} {go : α → Text → Reply β}
    (h : ∀ a r f, (go a r).outcome ≠ .failure f) (back : Failure → Reply β) :
    (reply.next go).recover back = reply.either go back := by
  rcases reply with ⟨⟨a, r⟩ | f | _, events⟩
  · show ((go a r).after events).recover back = (go a r).after events
    rcases hgo : go a r with ⟨⟨b, t⟩ | f | _, later⟩
    · rfl
    · have hfails := h a r f
      rw [hgo] at hfails
      exact absurd rfl hfails
    · rfl
  · simp [next, recover, either, after]
  · rfl

end Reply

namespace Parser

variable {α β γ : Type} {p : Parser α} {s t : Text}

/-! ## Sequences -/

theorem andThen_succeed (p : Parser α) : p.andThen succeed = p := by
  funext s
  exact Reply.next_success_right (p s)

theorem succeed_andThen (a : α) (f : α → Parser β) : (succeed a).andThen f = f a := by
  funext s
  exact Reply.next_success a s f

theorem andThen_assoc (p : Parser α) (f : α → Parser β) (g : β → Parser γ) :
    (p.andThen f).andThen g = p.andThen fun a => (f a).andThen g := by
  funext s
  exact Reply.next_next (p s) f g

theorem map_eq_andThen (f : α → β) (p : Parser α) :
    p.map f = p.andThen fun a => succeed (f a) := by
  funext s
  exact Reply.map_eq_next f (p s)

theorem both_eq_andThen (p : Parser α) (q : Parser β) :
    p.both q = p.andThen fun a => q.andThen fun b => succeed (a, b) := by
  simp only [← map_eq_andThen]
  rfl

theorem skipThen_eq_andThen (p : Parser α) (q : Parser β) :
    p.skipThen q = p.andThen fun _ => q.andThen fun b => succeed b := by
  have hq : (q.andThen fun b => succeed b) = q := andThen_succeed q
  rw [hq]
  rfl

theorem thenSkip_eq_andThen (p : Parser α) (q : Parser β) :
    p.thenSkip q = p.andThen fun a => q.andThen fun _ => succeed a := by
  simp only [← map_eq_andThen]
  rfl

theorem bracket_eq_thenSkip (opening : Parser α) (p : Parser β) (closing : Parser γ) :
    bracket opening p closing = (opening.skipThen p).thenSkip closing := by
  funext s
  exact (Reply.next_next (opening s) (fun _ t => p t) _).symm

theorem optional_eq_orElse (p : Parser α) :
    p.optional = (p.map some).orElse (succeed none) := rfl

/-! ## The rounds of a repetition -/

/-- Values that a repetition has before its own come before what it reads. -/
theorem atLeastFrom_values (p : Parser α) (rounds : Text) (least : Nat)
    (values earlier : List α) (s : Text) :
    atLeastFrom p rounds least (values ++ earlier) [] s =
      (atLeastFrom p rounds least values [] s).map (earlier.reverse ++ ·) := by
  have hstop (least : Nat) (values : List α) (s : Text) :
      atLeastStop least (values ++ earlier) s =
        fun f => (atLeastStop least values s f).map (earlier.reverse ++ ·) := by
    funext f
    unfold atLeastStop
    split
    · show Reply.success (values ++ earlier).reverse s =
        Reply.success (earlier.reverse ++ values.reverse) s
      rw [List.reverse_append]
    · rfl
  induction rounds generalizing least values s with
  | nil =>
    rw [atLeastFrom_nil, atLeastFrom_nil, Reply.map_either, hstop]
    rfl
  | cons c rounds ih =>
    have hgo (a : α) (t : Text) := ih (least - 1) (a :: values) t
    simp only [List.cons_append] at hgo
    simp only [atLeastFrom_cons, Reply.map_either, hstop, hgo]

/-- A round that fails is the last, however many more there are. -/
theorem atLeastFrom_of_failure {f : Failure} (h : (p s).outcome = .failure f) (rounds : Text)
    (least : Nat) (values : List α) :
    atLeastFrom p rounds least values [] s =
      (atLeastStop least values s f).after (p s).events := by
  cases rounds with
  | nil => rw [atLeastFrom_nil, Reply.either_of_failure h]
  | cons c rounds => rw [atLeastFrom_cons, Reply.either_of_failure h]

/-- A run that ended is the same with more rounds. -/
theorem atLeastFrom_more {rounds more : Text} (h : rounds.length ≤ more.length) {least : Nat}
    {values : List α} (hends : (atLeastFrom p rounds least values [] s).outcome ≠ .diverges) :
    atLeastFrom p more least values [] s = atLeastFrom p rounds least values [] s := by
  induction rounds generalizing more least values s with
  | nil =>
    rcases hp : (p s).outcome with ⟨a, t⟩ | f | _
    · -- With no rounds left the run would not have ended.
      rw [atLeastFrom_nil, Reply.either_of_success hp] at hends
      exact absurd rfl hends
    · rw [atLeastFrom_of_failure hp, atLeastFrom_of_failure hp]
    · rw [atLeastFrom_nil, Reply.either, hp] at hends
      exact absurd rfl hends
  | cons c rounds ih =>
    cases more with
    | nil => exact absurd h (Nat.not_succ_le_zero _)
    | cons d more =>
      rw [atLeastFrom_cons] at hends
      rw [atLeastFrom_cons, atLeastFrom_cons]
      rcases hp : (p s).outcome with ⟨a, t⟩ | f | _
      · rw [Reply.either_of_success hp] at hends
        rw [Reply.either_of_success hp, Reply.either_of_success hp,
          ih (Nat.le_of_succ_le_succ h) hends]
      · rw [Reply.either_of_failure hp, Reply.either_of_failure hp]
      · rw [Reply.either, Reply.either, hp]

/-- Two runs that ended are the same, however their rounds were counted. -/
theorem atLeastFrom_agree {rounds others : Text} {least : Nat} {values : List α}
    (h : (atLeastFrom p rounds least values [] s).outcome ≠ .diverges)
    (h' : (atLeastFrom p others least values [] s).outcome ≠ .diverges) :
    atLeastFrom p rounds least values [] s = atLeastFrom p others least values [] s := by
  rcases Nat.le_total rounds.length others.length with hle | hle
  · exact (atLeastFrom_more hle h).symm
  · exact atLeastFrom_more hle h'

/-- What the parser leaves after a value is the end of the text that it was given. -/
def LeavesSuffixes (p : Parser α) : Prop := ∀ {s a r}, p.Reads s a r → r <:+ s

theorem Composed.leavesSuffixes {silent : Bool} (h : p.Composed silent) : p.LeavesSuffixes :=
  fun ha => h.suffix ha

/-- A round that consumes nothing is followed by the same round. -/
theorem atLeastFrom_diverges {a : α} (h : p.Reads s a s) (rounds : Text) (least : Nat)
    (values : List α) : (atLeastFrom p rounds least values [] s).outcome = .diverges := by
  induction rounds generalizing least values with
  | nil =>
    rw [atLeastFrom_nil, Reply.either_of_success h]
    rfl
  | cons c rounds ih =>
    rw [atLeastFrom_cons, Reply.either_of_success h]
    exact ih (least - 1) (a :: values)

/-- If any number of rounds is enough, then as many as there are characters. -/
theorem LeavesSuffixes.atLeastFrom_ends (hp : p.LeavesSuffixes) {rounds enough : Text}
    (henough : s.length ≤ enough.length) {least : Nat} {values : List α}
    (h : (atLeastFrom p rounds least values [] s).outcome ≠ .diverges) :
    (atLeastFrom p enough least values [] s).outcome ≠ .diverges := by
  induction rounds generalizing enough least values s with
  | nil => rwa [atLeastFrom_more (Nat.zero_le _) h]
  | cons c rounds ih =>
    rcases hs : (p s).outcome with ⟨a, t⟩ | f | _
    · have hsuffix : t <:+ s := hp hs
      have hlt : t.length < s.length := by
        refine Nat.lt_of_le_of_ne hsuffix.length_le fun hlength => h ?_
        obtain rfl : t = s := hsuffix.eq_of_length hlength
        exact atLeastFrom_diverges hs _ _ _
      cases enough with
      | nil => exact absurd (Nat.lt_of_lt_of_le hlt henough) (Nat.not_lt_zero _)
      | cons d enough =>
        rw [atLeastFrom_cons, Reply.either_of_success hs] at h ⊢
        rw [List.length_cons] at henough
        exact ih (by omega) h
    · rwa [atLeastFrom_of_failure hs] at h ⊢
    · rw [atLeastFrom_cons, Reply.either, hs] at h
      exact absurd rfl h

/-! ## Repetitions -/

/-- A value and a list of values, as one list. -/
def consed (p : Parser (α × List α)) : Parser (List α) := p.map fun v => v.1 :: v.2

theorem consed_both_many (p q : Parser α) (s : Text) :
    (p.both (many q)).consed s = (p s).next fun a t => atLeastFrom q t 0 [a] [] t := by
  have hgo (a : α) (t : Text) :
      ((many q t).map fun as => (a, as)).map (fun v => v.1 :: v.2) =
        atLeastFrom q t 0 [a] [] t := by
    rw [← List.nil_append [a], atLeastFrom_values]
    exact Reply.map_map ..
  rw [consed, map, both, Reply.map_next]
  simp only [hgo]

/-- A separated list is a value and then any number of separators with a value each. -/
theorem sepBy1_eq_consed (p : Parser α) (separator : Parser β) :
    sepBy1 p separator = (p.both (many (separator.skipThen p))).consed := by
  funext s
  rw [sepBy1_eq, consed_both_many]

theorem sepBy_eq_orElse (p : Parser α) (separator : Parser β) :
    sepBy p separator = (sepBy1 p separator).orElse (succeed []) := by
  funext s
  rw [orElse, sepBy_eq, sepBy1_eq, Reply.recover_next]
  · rfl
  · -- After its first value a list does not fail any more.
    intro a t f hf
    exact (atLeastFrom_fails hf).1 rfl

/-- A repetition of one or more values that ends reads the first and goes on like `many`, but for
the rounds that it allows. -/
theorem many1_eq_next (h : (many1 p).Ends s) :
    many1 p s = (p s).next fun a t => atLeastFrom p s 0 [a] [] t := by
  -- One more round does no harm, and with it there is a first round on every text.
  have hmore : atLeastFrom p (' ' :: s) 1 [] [] s = many1 p s :=
    atLeastFrom_more (Nat.le_succ s.length) h
  rw [← hmore, atLeastFrom_cons, Reply.next_eq_either]
  rfl

theorem many1_eq_consed (h : (many1 p).Ends s) (h' : (p.both (many p)).consed.Ends s) :
    many1 p s = (p.both (many p)).consed s := by
  have hone := many1_eq_next h
  have hall := consed_both_many p p s
  rw [Ends, hone] at h
  rw [Ends, hall] at h'
  rw [hone, hall]
  rcases hp : (p s).outcome with ⟨a, t⟩ | f | _
  · simp only [Reply.next, hp] at h h' ⊢
    rw [atLeastFrom_agree h h']
  · simp only [Reply.next, hp]
  · simp only [Reply.next, hp]

/-- With a parser that leaves suffixes, both count enough rounds if one does. -/
theorem LeavesSuffixes.ends_many1_iff (hp : p.LeavesSuffixes) :
    (many1 p).Ends s ↔ (p.both (many p)).consed.Ends s := by
  have hall := consed_both_many p p s
  constructor
  · intro h
    have hone := many1_eq_next h
    rw [Ends, hone] at h
    rw [Ends, hall]
    refine Reply.next_ne_diverges (fun hs => h ?_) fun a t ha => ?_
    · rw [Reply.next, hs]
    · rw [Reply.next, ha] at h
      exact hp.atLeastFrom_ends (Nat.le_refl _) h
  · intro h
    rw [Ends, hall] at h
    -- The rounds of the second side are those of the first, with one before them.
    have hround : ∃ rounds, (atLeastFrom p rounds 1 [] [] s).outcome ≠ .diverges := by
      rcases hs : (p s).outcome with ⟨a, t⟩ | f | _
      · refine ⟨' ' :: t, ?_⟩
        rw [Reply.next, hs] at h
        rw [atLeastFrom_cons, Reply.either_of_success hs]
        exact h
      · refine ⟨[], ?_⟩
        rw [atLeastFrom_of_failure hs]
        exact Reply.failure_ne_diverges f
      · rw [Reply.next, hs] at h
        exact absurd rfl h
    obtain ⟨rounds, hround⟩ := hround
    exact hp.atLeastFrom_ends (Nat.le_refl _) hround

/-! ## The laws -/

/-- Lists, options and sequences by `both`, `many`, `orElse`, `andThen` and `succeed`, and the laws
of `andThen` and `succeed`: equal values, equal texts left, equal failures and equal events. -/
theorem structural_laws (p : Parser α) (q : Parser β) (closing : Parser γ) (f : α → Parser β)
    (g : β → Parser γ) :
    sepBy1 p q = (p.both (many (q.skipThen p))).consed ∧
    sepBy p q = (sepBy1 p q).orElse (succeed []) ∧
    (∀ s, (many1 p).Ends s → (p.both (many p)).consed.Ends s →
      many1 p s = (p.both (many p)).consed s) ∧
    (p.LeavesSuffixes → ∀ s, (many1 p).Ends s ∨ (p.both (many p)).consed.Ends s →
      many1 p s = (p.both (many p)).consed s) ∧
    p.optional = (p.map some).orElse (succeed none) ∧
    bracket q p closing = (q.skipThen p).thenSkip closing ∧
    p.both q = p.andThen (fun a => q.andThen fun b => succeed (a, b)) ∧
    p.skipThen q = p.andThen (fun _ => q.andThen fun b => succeed b) ∧
    p.thenSkip q = p.andThen (fun a => q.andThen fun _ => succeed a) ∧
    (p.andThen f).andThen g = p.andThen (fun a => (f a).andThen g) ∧
    p.andThen succeed = p ∧
    ∀ a, (succeed a).andThen f = f a := by
  refine ⟨sepBy1_eq_consed p q, sepBy_eq_orElse p q, fun s => many1_eq_consed, ?_,
    optional_eq_orElse p, bracket_eq_thenSkip q p closing, both_eq_andThen p q,
    skipThen_eq_andThen p q, thenSkip_eq_andThen p q, andThen_assoc p f g, andThen_succeed p,
    fun a => succeed_andThen a f⟩
  intro hp s h
  have hiff : (many1 p).Ends s ↔ (p.both (many p)).consed.Ends s := hp.ends_many1_iff
  rcases h with h | h
  · exact many1_eq_consed h (hiff.mp h)
  · exact many1_eq_consed (hiff.mpr h) h

theorem structural_laws_letters :
    (many1 (char 'a')).Ends ['a', 'a', 'b'] ∧
      ((char 'a').both (many (char 'a'))).consed.Ends ['a', 'a', 'b'] ∧
      many1 (char 'a') ['a', 'a', 'b'] =
        ((char 'a').both (many (char 'a'))).consed ['a', 'a', 'b'] ∧
      many1 (char 'a') ['a', 'a', 'b'] = .success ['a', 'a'] ['b'] ∧
      (char 'a').LeavesSuffixes ∧ (many1 (char 'a')).Ends ['b'] ∧
      many1 (char 'a') ['b'] = ((char 'a').both (many (char 'a'))).consed ['b'] := by
  have hends (s : Text) (h : (many1 (char 'a') s).outcome ≠ .diverges) :
      (many1 (char 'a')).Ends s := h
  have hleft : (many1 (char 'a')).Ends ['a', 'a', 'b'] := hends _ (by decide)
  have hright : ((char 'a').both (many (char 'a'))).consed.Ends ['a', 'a', 'b'] := by
    rw [Ends]
    decide
  have hcomposed : (char 'a').Composed true := Composed.char 'a'
  have hsuffixes : (char 'a').LeavesSuffixes := hcomposed.leavesSuffixes
  have hfirst : (many1 (char 'a')).Ends ['b'] := hends _ (by decide)
  obtain ⟨-, -, hboth, heither, -⟩ := structural_laws (char 'a') (char ',') (char ')')
    (fun _ => char 'b') (fun _ => char 'c')
  exact ⟨hleft, hright, hboth _ hleft hright, by decide, hsuffixes, hfirst,
    heither hsuffixes _ (Or.inl hfirst)⟩

end Parser

end Descent
