import Descent.Parser.Alternation
import Descent.Parser.Completion
import Descent.Parser.Recursion
import Descent.Parser.Sequence

/-!
# What a parser reads

Two relations say how a run ends without its events: `p.Reads s a r` when `p` succeeds on the text
`s` with the value `a` and leaves `r`, and `p.Fails s` when it fails. Each combinator that runs its
parsers once has an equation for both, so that a run of a grammar is taken apart, or put together,
by rewriting.
-/

namespace Descent

/-- The text does not begin with a character of the class. -/
def Text.Avoids (t : Text) (p : Char → Bool) : Prop := ∀ c ∈ t.head?, p c = false

namespace Text

variable {p q : Char → Bool}

@[simp] theorem avoids_nil : Avoids [] p := by
  intro c hc
  cases hc

@[simp] theorem avoids_cons {c : Char} {t : Text} : Avoids (c :: t) p ↔ p c = false := by
  simp [Avoids]

instance (t : Text) (p : Char → Bool) : Decidable (t.Avoids p) :=
  match t with
  | [] => isTrue avoids_nil
  | c :: _ => decidable_of_iff (p c = false) avoids_cons.symm

/-- A text that avoids a class avoids the classes it includes. -/
theorem Avoids.mono {t : Text} (h : t.Avoids p) (hqp : ∀ c, q c = true → p c = true) :
    t.Avoids q := by
  intro c hc
  cases hq : q c with
  | false => rfl
  | true => exact absurd (hqp c hq) (by simp [h c hc])

/-- What is left after the longest run of a class avoids the class. -/
theorem avoids_dropWhile (t : Text) (p : Char → Bool) : Avoids (t.dropWhile p) p := by
  intro c hc
  have h := List.head?_dropWhile_not p t
  rw [Option.mem_def.mp hc] at h
  simpa using h

/-- A run of a class is the longest when the text after it avoids the class. -/
theorem takeWhile_append_of_avoids {s t : Text} (hs : ∀ c ∈ s, p c = true) (ht : t.Avoids p) :
    (s ++ t).takeWhile p = s := by
  rw [List.takeWhile_append_of_pos hs]
  cases t with
  | nil => simp
  | cons c t => simp [avoids_cons.mp ht]

theorem dropWhile_append_of_avoids {s t : Text} (hs : ∀ c ∈ s, p c = true) (ht : t.Avoids p) :
    (s ++ t).dropWhile p = t := by
  rw [List.dropWhile_append_of_pos hs]
  cases t with
  | nil => simp
  | cons c t => simp [avoids_cons.mp ht]

end Text

namespace Parser

variable {α β γ : Type}

/-- `p.Reads s a r`: on the text `s`, the parser succeeds with the value `a` and leaves `r`. -/
def Reads (p : Parser α) (s : Text) (a : α) (r : Text) : Prop := (p s).outcome = .success a r

/-- The parser fails on the text. -/
def Fails (p : Parser α) (s : Text) : Prop := ∃ f, (p s).outcome = .failure f

/-- A parser reads one value from a text, and leaves one text. -/
theorem Reads.unique {p : Parser α} {s r r' : Text} {a a' : α} (h : p.Reads s a r)
    (h' : p.Reads s a' r') : a = a' ∧ r = r' := by
  rw [Reads, h] at h'
  cases h'
  exact ⟨rfl, rfl⟩

theorem Fails.not_reads {p : Parser α} {s r : Text} {a : α} (h : p.Fails s) :
    ¬ p.Reads s a r := by
  obtain ⟨f, hf⟩ := h
  rw [Reads, hf]
  simp

/-! ## Replies that go on -/

theorem next_eq_success_iff {reply : Reply α} {go : α → Text → Reply β} {b : β} {r : Text} :
    (reply.next go).outcome = .success b r ↔
      ∃ a t, reply.outcome = .success a t ∧ (go a t).outcome = .success b r := by
  constructor
  · exact Reply.exists_of_next_eq_success
  · intro h
    obtain ⟨a, t, h, hgo⟩ := h
    simp only [Reply.next, h]
    exact hgo

theorem next_fails_iff {reply : Reply α} {go : α → Text → Reply β} :
    (∃ f, (reply.next go).outcome = .failure f) ↔
      (∃ f, reply.outcome = .failure f) ∨
        ∃ a t, reply.outcome = .success a t ∧ ∃ f, (go a t).outcome = .failure f := by
  rcases h : reply.outcome with ⟨a, t⟩ | f | _
  · simp only [Reply.next, h, Reply.after]
    constructor
    · exact fun hf => Or.inr ⟨a, t, rfl, hf⟩
    · intro h
      rcases h with ⟨f, ⟨⟩⟩ | ⟨_, _, ⟨⟩, hf⟩
      exact hf
  · simp [Reply.next, h]
  · simp [Reply.next, h]

theorem map_eq_success_iff {f : α → β} {reply : Reply α} {b : β} {r : Text} :
    (reply.map f).outcome = .success b r ↔ ∃ a, reply.outcome = .success a r ∧ f a = b := by
  rcases h : reply.outcome with ⟨a, t⟩ | g | _
  · simp only [Reply.map, h, Outcome.map]
    constructor
    · rintro ⟨⟩
      exact ⟨a, rfl, rfl⟩
    · intro h
      obtain ⟨_, ⟨⟩, rfl⟩ := h
      rfl
  · simp [Reply.map, h, Outcome.map]
  · simp [Reply.map, h, Outcome.map]

theorem map_fails_iff {f : α → β} {reply : Reply α} :
    (∃ g, (reply.map f).outcome = .failure g) ↔ ∃ g, reply.outcome = .failure g := by
  rcases h : reply.outcome with ⟨a, t⟩ | g | _ <;> simp [Reply.map, h, Outcome.map]

/-! ## Primitive parsers -/

theorem reads_succeed {a b : α} {s r : Text} : (succeed a).Reads s b r ↔ a = b ∧ s = r := by
  simp [Reads, succeed, Reply.success]

theorem reads_item {s r : Text} {c : Char} : item.Reads s c r ↔ s = c :: r := by
  cases s <;> simp [Reads, item, Reply.success, Reply.failure]

theorem fails_item {s : Text} : item.Fails s ↔ s = [] := by
  cases s <;> simp [Fails, item, Reply.success, Reply.failure]

theorem reads_satisfy {p : Char → Bool} {s r : Text} {c : Char} :
    (satisfy p).Reads s c r ↔ s = c :: r ∧ p c = true := by
  rw [Reads, satisfy, next_eq_success_iff]
  constructor
  · intro h
    obtain ⟨d, t, hd, h⟩ := h
    split at h
    · next hp =>
      cases h
      exact ⟨reads_item.mp hd, hp⟩
    · cases h
  · intro h
    obtain ⟨rfl, hc⟩ := h
    exact ⟨c, r, rfl, by rw [if_pos hc]; rfl⟩

theorem fails_satisfy {p : Char → Bool} {s : Text} : (satisfy p).Fails s ↔ s.Avoids p := by
  rw [Fails, satisfy, next_fails_iff]
  cases s with
  | nil => simp [item, Reply.failure]
  | cons d t =>
    simp only [item, Reply.success, Text.avoids_cons]
    constructor
    · intro h
      rcases h with ⟨f, ⟨⟩⟩ | ⟨_, _, ⟨⟩, f, hf⟩
      cases hd : p d with
      | false => rfl
      | true =>
        rw [if_pos hd] at hf
        cases hf
    · intro hd
      exact Or.inr ⟨d, t, rfl, Cause.unexpected (d :: t), by simp [hd, Reply.failure]⟩

theorem reads_char {c d : Char} {s r : Text} : (char c).Reads s d r ↔ s = c :: r ∧ d = c := by
  rw [char, reads_satisfy]
  constructor
  · intro h
    obtain ⟨rfl, h⟩ := h
    have hdc : d = c := eq_of_beq h
    exact ⟨by rw [hdc], hdc⟩
  · intro h
    obtain ⟨rfl, rfl⟩ := h
    exact ⟨rfl, beq_self_eq_true d⟩

theorem fails_char {c : Char} {s : Text} : (char c).Fails s ↔ s.Avoids (· == c) := fails_satisfy

/-- Reading characters one by one is reading the text they make. -/
theorem reads_characters {w s r : Text} : (characters w).Reads s () r ↔ s = w ++ r := by
  induction w generalizing s with
  | nil => simp [Reads, characters, Reply.success]
  | cons c w ih =>
    cases s with
    | nil => simp [Reads, characters, Reply.failure]
    | cons d t =>
      rw [Reads, characters]
      split
      · next h => simpa [eq_of_beq h, Reads] using ih (s := t)
      · next h =>
        have hdc : d ≠ c := fun he => h (by simp [he])
        simp [Reply.failure, hdc]

theorem fails_characters {w s : Text} : (characters w).Fails s ↔ ¬ w <+: s := by
  induction w generalizing s with
  | nil => simp [Fails, characters, Reply.success]
  | cons c w ih =>
    cases s with
    | nil => simp [Fails, characters, Reply.failure]
    | cons d t =>
      rw [Fails, characters]
      split
      · next h => simpa [eq_of_beq h, Fails, List.cons_prefix_cons] using ih (s := t)
      · next h =>
        have hcd : c ≠ d := fun he => h (by simp [he])
        simp [Reply.failure, List.cons_prefix_cons, hcd]

theorem reads_literal {word v : String} {s r : Text} :
    (literal word).Reads s v r ↔ s = word.toList ++ r ∧ v = word := by
  rw [Reads, literal, map_eq_success_iff]
  constructor
  · intro h
    obtain ⟨⟨⟩, h, rfl⟩ := h
    exact ⟨reads_characters.mp h, rfl⟩
  · intro h
    obtain ⟨h, rfl⟩ := h
    exact ⟨(), reads_characters.mpr h, rfl⟩

theorem fails_literal {word : String} {s : Text} :
    (literal word).Fails s ↔ ¬ word.toList <+: s := by
  rw [Fails, literal, map_fails_iff]
  exact fails_characters

/-! ## Values -/

variable {p : Parser α} {q : Parser β} {s r : Text}

theorem reads_map {f : α → β} {b : β} : (p.map f).Reads s b r ↔ ∃ a, p.Reads s a r ∧ f a = b :=
  map_eq_success_iff

theorem fails_map {f : α → β} : (p.map f).Fails s ↔ p.Fails s := map_fails_iff

theorem reads_convert {f : α → Except String β} {b : β} :
    (p.convert f).Reads s b r ↔ ∃ a, p.Reads s a r ∧ f a = .ok b := by
  rw [Reads, convert, next_eq_success_iff]
  constructor
  · intro h
    obtain ⟨a, t, ha, hb⟩ := h
    split at hb
    · next hf =>
      cases hb
      exact ⟨a, ha, hf⟩
    · cases hb
  · intro h
    obtain ⟨a, ha, hf⟩ := h
    refine ⟨a, r, ha, ?_⟩
    simp only [hf]
    rfl

theorem fails_convert {f : α → Except String β} :
    (p.convert f).Fails s ↔ p.Fails s ∨ ∃ a t e, p.Reads s a t ∧ f a = .error e := by
  rw [Fails, convert, next_fails_iff]
  refine or_congr Iff.rfl ⟨?_, ?_⟩
  · intro h
    obtain ⟨a, t, ha, g, hg⟩ := h
    split at hg
    · cases hg
    · next e hf => exact ⟨a, t, e, ha, hf⟩
  · intro h
    obtain ⟨a, t, e, ha, hf⟩ := h
    refine ⟨a, t, ha, Cause.unconvertible e s, ?_⟩
    simp only [hf]
    rfl

/-- The failure of a conversion quotes the text from where the value began. -/
theorem Reads.outcome_convert {f : α → Except String β} {a : α} {reason : String}
    (h : p.Reads s a r) (hf : f a = .error reason) :
    (p.convert f s).outcome = .failure (Cause.unconvertible reason s) := by
  have ha : (p s).outcome = .success a r := h
  rw [convert, Reply.next]
  simp only [ha, hf]
  rfl

theorem outcome_convert_of_failure {f : α → Except String β} {g : Failure}
    (h : (p s).outcome = .failure g) : (p.convert f s).outcome = .failure g := by
  simp only [convert, Reply.next, h]

theorem reads_filterExpecting [Inspect α] {test : α → Bool} {expectation : String} {a : α} :
    (p.filterExpecting test expectation).Reads s a r ↔ p.Reads s a r ∧ test a = true := by
  rw [Reads, filterExpecting, next_eq_success_iff]
  constructor
  · intro h
    obtain ⟨b, t, hb, h⟩ := h
    split at h
    · next ht =>
      cases h
      exact ⟨hb, ht⟩
    · cases h
  · intro h
    obtain ⟨ha, ht⟩ := h
    refine ⟨a, r, ha, ?_⟩
    simp only [ht, if_true]
    rfl

theorem fails_filterExpecting [Inspect α] {test : α → Bool} {expectation : String} :
    (p.filterExpecting test expectation).Fails s ↔
      p.Fails s ∨ ∃ a t, p.Reads s a t ∧ test a = false := by
  rw [Fails, filterExpecting, next_fails_iff]
  refine or_congr Iff.rfl ⟨?_, ?_⟩
  · intro h
    obtain ⟨a, t, ha, g, hg⟩ := h
    split at hg
    · cases hg
    · next ht => exact ⟨a, t, ha, by simpa using ht⟩
  · intro h
    obtain ⟨a, t, ha, ht⟩ := h
    refine ⟨a, t, ha, Cause.rejected expectation (inspect a) s t, ?_⟩
    simp only [ht]
    rfl

/-! ## Parsers one after the other -/

theorem reads_skipThen {b : β} :
    (p.skipThen q).Reads s b r ↔ ∃ a t, p.Reads s a t ∧ q.Reads t b r :=
  next_eq_success_iff

theorem fails_skipThen :
    (p.skipThen q).Fails s ↔ p.Fails s ∨ ∃ a t, p.Reads s a t ∧ q.Fails t :=
  next_fails_iff

/-- Where the first parser succeeds, a sequence ends as the second does. -/
theorem Reads.outcome_skipThen {a : α} (h : p.Reads s a r) :
    (p.skipThen q s).outcome = (q r).outcome := by
  have hp : (p s).outcome = .success a r := h
  simp only [Parser.skipThen, Reply.next, hp]
  rfl

theorem outcome_skipThen_of_failure {f : Failure} (h : (p s).outcome = .failure f) :
    (p.skipThen q s).outcome = .failure f := by
  simp only [skipThen, Reply.next, h]

theorem reads_both {c : α × β} :
    (p.both q).Reads s c r ↔ ∃ t, p.Reads s c.1 t ∧ q.Reads t c.2 r := by
  rw [Reads, both, next_eq_success_iff]
  constructor
  · intro h
    obtain ⟨a, t, ha, h⟩ := h
    obtain ⟨b, hb, rfl⟩ := map_eq_success_iff.mp h
    exact ⟨t, ha, hb⟩
  · intro h
    obtain ⟨t, ha, hb⟩ := h
    exact ⟨c.1, t, ha, map_eq_success_iff.mpr ⟨c.2, hb, rfl⟩⟩

theorem fails_both : (p.both q).Fails s ↔ p.Fails s ∨ ∃ a t, p.Reads s a t ∧ q.Fails t := by
  rw [Fails, both, next_fails_iff]
  simp only [map_fails_iff]
  exact Iff.rfl

/-- Where the first parser succeeds, a failure of the second is that of both. -/
theorem Reads.outcome_both {a : α} {f : Failure} (h : p.Reads s a r)
    (hf : (q r).outcome = .failure f) : (p.both q s).outcome = .failure f := by
  have hp : (p s).outcome = .success a r := h
  simp only [Parser.both, Reply.next, hp, Reply.after, Reply.map, hf, Outcome.map]

theorem reads_thenSkip {a : α} :
    (p.thenSkip q).Reads s a r ↔ ∃ t b, p.Reads s a t ∧ q.Reads t b r := by
  rw [Reads, thenSkip, next_eq_success_iff]
  constructor
  · intro h
    obtain ⟨a', t, ha, h⟩ := h
    obtain ⟨b, hb, rfl⟩ := map_eq_success_iff.mp h
    exact ⟨t, b, ha, hb⟩
  · intro h
    obtain ⟨t, b, ha, hb⟩ := h
    exact ⟨a, t, ha, map_eq_success_iff.mpr ⟨b, hb, rfl⟩⟩

theorem fails_thenSkip :
    (p.thenSkip q).Fails s ↔ p.Fails s ∨ ∃ a t, p.Reads s a t ∧ q.Fails t := by
  rw [Fails, thenSkip, next_fails_iff]
  simp only [map_fails_iff]
  exact Iff.rfl

/-- What stands between two parsers is what the middle one reads. -/
theorem bracket_eq_skipThen (p : Parser α) (q : Parser β) (closing : Parser γ) :
    bracket p q closing = p.skipThen (q.thenSkip closing) := rfl

theorem reads_bracket {closing : Parser γ} {b : β} :
    (bracket p q closing).Reads s b r ↔
      ∃ a t u c, p.Reads s a t ∧ q.Reads t b u ∧ closing.Reads u c r := by
  rw [bracket_eq_skipThen, reads_skipThen]
  simp only [reads_thenSkip]
  constructor
  · intro h
    obtain ⟨a, t, ha, u, c, hb, hc⟩ := h
    exact ⟨a, t, u, c, ha, hb, hc⟩
  · intro h
    obtain ⟨a, t, u, c, ha, hb, hc⟩ := h
    exact ⟨a, t, ha, u, c, hb, hc⟩

/-- A bracket fails where its opening does. -/
theorem Fails.bracket {closing : Parser γ} (h : p.Fails s) : (bracket p q closing).Fails s := by
  rw [bracket_eq_skipThen, fails_skipThen]
  exact Or.inl h

/-- The values and events so far do not change what the rest of a sequence reads. -/
theorem timesFrom_eq_success_iff {n : Nat} {values vs : List α} {log : List Event} :
    (timesFrom p n values log s).outcome = .success vs r ↔
      ∃ ws, vs = values.reverse ++ ws ∧ (times n p).Reads s ws r := by
  induction n generalizing s values vs log with
  | zero =>
    simp only [timesFrom, times, Reads, Outcome.success.injEq, List.reverse_nil]
    constructor
    · intro h
      obtain ⟨rfl, rfl⟩ := h
      exact ⟨[], by simp, rfl, rfl⟩
    · intro h
      obtain ⟨_, rfl, rfl, rfl⟩ := h
      exact ⟨by simp, rfl⟩
  | succ n ih =>
    rcases h : (p s).outcome with ⟨a, t⟩ | f | _
    · rw [timesFrom]
      simp only [h, Reads, times, timesFrom]
      rw [ih]
      constructor
      · intro h
        obtain ⟨ws, rfl, hws⟩ := h
        exact ⟨a :: ws, by simp, ih.mpr ⟨ws, by simp, hws⟩⟩
      · intro h
        obtain ⟨_, rfl, hs⟩ := h
        obtain ⟨ws, rfl, hws⟩ := ih.mp hs
        exact ⟨ws, by simp, hws⟩
    · simp [Reads, times, timesFrom, h]
    · simp [Reads, times, timesFrom, h]

theorem reads_times_zero {vs : List α} : (times 0 p).Reads s vs r ↔ vs = [] ∧ s = r := by
  simp [Reads, times, timesFrom, eq_comm]

theorem reads_times_succ {n : Nat} {vs : List α} :
    (times (n + 1) p).Reads s vs r ↔
      ∃ a t ws, vs = a :: ws ∧ p.Reads s a t ∧ (times n p).Reads t ws r := by
  rcases h : (p s).outcome with ⟨a, t⟩ | f | _
  · have hs : (times (n + 1) p).Reads s vs r ↔ ∃ ws, vs = a :: ws ∧ (times n p).Reads t ws r := by
      rw [Reads, times, timesFrom]
      simp only [h, timesFrom_eq_success_iff, List.reverse_cons, List.reverse_nil, List.nil_append,
        List.singleton_append]
    rw [hs]
    constructor
    · rintro ⟨ws, rfl, hws⟩
      exact ⟨a, t, ws, rfl, h, hws⟩
    · rintro ⟨a', t', ws, rfl, ha, hws⟩
      obtain ⟨rfl, rfl⟩ := Reads.unique h ha
      exact ⟨ws, rfl, hws⟩
  · simp [Reads, times, timesFrom, h]
  · simp [Reads, times, timesFrom, h]

/-- A fixed number of characters of a class. -/
theorem reads_times_satisfy {c : Char → Bool} {n : Nat} {cs : List Char} :
    (times n (satisfy c)).Reads s cs r ↔ s = cs ++ r ∧ cs.length = n ∧ ∀ d ∈ cs, c d = true := by
  induction n generalizing s cs with
  | zero =>
    rw [reads_times_zero]
    constructor
    · intro h
      obtain ⟨rfl, rfl⟩ := h
      simp
    · intro h
      obtain ⟨rfl, hn, -⟩ := h
      obtain rfl := List.length_eq_zero_iff.mp hn
      exact ⟨rfl, rfl⟩
  | succ n ih =>
    rw [reads_times_succ]
    constructor
    · intro h
      obtain ⟨d, t, ds, rfl, hd, hds⟩ := h
      obtain ⟨rfl, hc⟩ := reads_satisfy.mp hd
      obtain ⟨rfl, hn, hall⟩ := ih.mp hds
      exact ⟨rfl, by simp [hn], List.forall_mem_cons.mpr ⟨hc, hall⟩⟩
    · intro h
      obtain ⟨rfl, hn, hall⟩ := h
      cases cs with
      | nil => cases hn
      | cons d ds =>
        obtain ⟨hc, hds⟩ := List.forall_mem_cons.mp hall
        exact ⟨d, ds ++ r, ds, rfl, reads_satisfy.mpr ⟨rfl, hc⟩,
          ih.mpr ⟨rfl, Nat.succ.inj hn, hds⟩⟩

/-! ## Alternatives -/

theorem reads_orElse {p q : Parser α} {a : α} :
    (p.orElse q).Reads s a r ↔ p.Reads s a r ∨ p.Fails s ∧ q.Reads s a r := by
  rcases h : (p s).outcome with ⟨b, t⟩ | f | _
  · simp [Reads, Fails, orElse, Reply.recover, h]
  · rcases hq : (q s).outcome with ⟨b, t⟩ | g | _ <;>
      simp [Reads, Fails, orElse, Reply.recover, h, Reply.after, Reply.mapFailure,
        Outcome.mapFailure, hq]
  · simp [Reads, Fails, orElse, Reply.recover, h]

theorem fails_orElse {p q : Parser α} : (p.orElse q).Fails s ↔ p.Fails s ∧ q.Fails s := by
  rcases h : (p s).outcome with ⟨b, t⟩ | f | _
  · simp [Fails, orElse, Reply.recover, h]
  · rcases hq : (q s).outcome with ⟨b, t⟩ | g | _ <;>
      simp [Fails, orElse, Reply.recover, h, Reply.after, Reply.mapFailure,
        Outcome.mapFailure, hq]
  · simp [Fails, orElse, Reply.recover, h]

theorem reads_optional {o : Option α} :
    p.optional.Reads s o r ↔ (∃ a, o = some a ∧ p.Reads s a r) ∨ o = none ∧ s = r ∧ p.Fails s := by
  rcases h : (p s).outcome with ⟨b, t⟩ | f | _
  · simp only [Reads, Fails, optional, Reply.recover, Reply.map, h, Outcome.map]
    constructor
    · rintro ⟨⟩
      exact Or.inl ⟨b, rfl, rfl⟩
    · intro h
      rcases h with ⟨a, rfl, ⟨⟩⟩ | ⟨-, -, f, ⟨⟩⟩
      rfl
  · simp [Reads, Fails, optional, Reply.recover, Reply.map, h, Outcome.map, Reply.success,
      Reply.after, eq_comm]
  · simp [Reads, Fails, optional, Reply.recover, Reply.map, h, Outcome.map]

/-- Where its parser fails, an optional part is left out, so that it does not fail. -/
theorem not_fails_optional : ¬ p.optional.Fails s := by
  rcases h : (p s).outcome with ⟨b, t⟩ | f | _ <;>
    simp [Fails, optional, Reply.recover, Reply.map, h, Outcome.map, Reply.success, Reply.after]

/-- The failures and events of alternatives that failed do not change what the rest reads. -/
theorem choiceFrom_eq_success_iff {ps : List (Parser α)} {failed : Option Failure}
    {log : List Event} {a : α} :
    (choiceFrom ps failed log s).outcome = .success a r ↔ (choice ps).Reads s a r := by
  induction ps generalizing failed log with
  | nil => simp [Reads, choice, choiceFrom]
  | cons p ps ih =>
    rcases h : (p s).outcome with ⟨b, t⟩ | f | _
    · simp [Reads, choice, choiceFrom, h]
    · simp only [Reads, choice, choiceFrom, h]
      exact ih.trans ih.symm
    · simp [Reads, choice, choiceFrom, h]

theorem choiceFrom_fails_iff {ps : List (Parser α)} {failed : Option Failure}
    {log : List Event} :
    (∃ f, (choiceFrom ps failed log s).outcome = .failure f) ↔ (choice ps).Fails s := by
  induction ps generalizing failed log with
  | nil => simp [Fails, choice, choiceFrom]
  | cons p ps ih =>
    rcases h : (p s).outcome with ⟨b, t⟩ | f | _
    · simp [Fails, choice, choiceFrom, h]
    · simp only [Fails, choice, choiceFrom, h]
      exact ih.trans ih.symm
    · simp [Fails, choice, choiceFrom, h]

@[simp] theorem not_reads_choice_nil {a : α} : ¬ (choice []).Reads s a r := by
  simp [Reads, choice, choiceFrom]

@[simp] theorem fails_choice_nil : (choice ([] : List (Parser α))).Fails s :=
  ⟨_, rfl⟩

theorem reads_choice_cons {ps : List (Parser α)} {a : α} :
    (choice (p :: ps)).Reads s a r ↔ p.Reads s a r ∨ p.Fails s ∧ (choice ps).Reads s a r := by
  rcases h : (p s).outcome with ⟨b, t⟩ | f | _
  · simp [Reads, Fails, choice, choiceFrom, h]
  · rw [Reads, choice, choiceFrom]
    simp only [h, choiceFrom_eq_success_iff]
    simp [Reads, Fails, h]
  · simp [Reads, Fails, choice, choiceFrom, h]

theorem fails_choice_cons {ps : List (Parser α)} :
    (choice (p :: ps)).Fails s ↔ p.Fails s ∧ (choice ps).Fails s := by
  rcases h : (p s).outcome with ⟨b, t⟩ | f | _
  · simp [Fails, choice, choiceFrom, h]
  · rw [Fails, choice, choiceFrom]
    simp only [h, choiceFrom_fails_iff]
    simp [Fails, h]
  · simp [Fails, choice, choiceFrom, h]

/-! ## Spans -/

theorem reads_traced {name : String} {a : α} : (p.traced name).Reads s a r ↔ p.Reads s a r :=
  Iff.rfl

theorem fails_traced {name : String} : (p.traced name).Fails s ↔ p.Fails s := Iff.rfl

/-! ## Rules -/

theorem reads_fix {body : Parser α → Parser α} {a : α} :
    (fix body).Reads s a r ↔ (nested body (s.length + 1)).Reads s a r := Iff.rfl

theorem not_reads_nested_zero {body : Parser α → Parser α} {a : α} :
    ¬ (nested body 0).Reads s a r := by
  intro h
  cases h

theorem reads_nested_succ {body : Parser α → Parser α} {n : Nat} {a : α} :
    (nested body (n + 1)).Reads s a r ↔ (body (nested body n)).Reads s a r := Iff.rfl

theorem fails_nested_succ {body : Parser α → Parser α} {n : Nat} :
    (nested body (n + 1)).Fails s ↔ (body (nested body n)).Fails s := Iff.rfl

/-! ## Whole texts -/

/-- A text is complete when its parser reads it and leaves nothing. -/
theorem parseComplete_eq_complete_iff {a : α} :
    p.parseComplete s = .complete a ↔ p.Reads s a [] := by
  rcases h : (p s).outcome with ⟨b, t⟩ | f | _
  · cases t <;> simp [parseComplete, complete, Reads, h]
  · simp [parseComplete, complete, Reads, h]
  · simp [parseComplete, complete, Reads, h]

/-- A text that is complete adds nothing to the events of the run. -/
theorem Reads.complete {a : α} (h : p.Reads s a []) :
    p.complete s = (.complete a, (p s).events) := by
  have houtcome : (p s).outcome = .success a [] := h
  simp only [Parser.complete, houtcome]

end Parser
end Descent
