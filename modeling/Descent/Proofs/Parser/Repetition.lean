import Descent.Parser.Repetition
import Descent.Proofs.Parser.Reads

/-!
# What repetitions read

A repetition reads a *chain*: value after value, each where the one before it stopped, up to a text
on which its parser fails. The loops count their rounds along the text; a parser that *progresses*,
in that each value takes at least a character, never uses them up. A separated list is a value and
then a repetition of separator and value, so nothing is proved twice.
-/

namespace Descent.Parser

variable {α β : Type}

/-- `Chain p s as r`: the parser reads the values one after the other, from `s` on, and leaves
`r`. -/
inductive Chain (p : Parser α) : Text → List α → Text → Prop where
  | nil {s : Text} : Chain p s [] s
  | cons {s t r : Text} {a : α} {as : List α} :
      p.Reads s a t → Chain p t as r → Chain p s (a :: as) r

/-- Whatever the parser reads, it consumes a character of it. -/
def Progresses (p : Parser α) : Prop := ∀ {s a r}, p.Reads s a r → r.length < s.length

/-- The parser never leaves more than it was given. -/
def NonGrowing (p : Parser α) : Prop := ∀ {s a r}, p.Reads s a r → r.length ≤ s.length

variable {p : Parser α} {s r t : Text}

theorem Progresses.nonGrowing (hp : p.Progresses) : p.NonGrowing :=
  fun h => Nat.le_of_lt (hp h)

/-- A sequence progresses if its first parser does and the second does not grow the text. -/
theorem Progresses.skipThen {q : Parser β} (hp : p.Progresses) (hq : q.NonGrowing) :
    (p.skipThen q).Progresses := by
  intro s b r h
  obtain ⟨a, t, ha, hb⟩ := reads_skipThen.mp h
  exact Nat.lt_of_le_of_lt (hq hb) (hp ha)

/-! ## Loops -/

/-- A round that leads to success reads a value and goes on, or stops where its parser fails. -/
theorem of_atLeastRound {least : Nat} {values vs : List α} {log : List Event}
    {again : α → List Event → Parser (List α)}
    (h : (atLeastRound p least values log again s).outcome = .success vs r) :
    (∃ a t log, p.Reads s a t ∧ (again a log t).outcome = .success vs r) ∨
      p.Fails s ∧ least = 0 ∧ vs = values.reverse ∧ r = s := by
  rw [atLeastRound] at h
  split at h
  · next a t ha => exact Or.inl ⟨a, t, _, ha, h⟩
  · next f hf =>
    split at h
    · next hl =>
      cases h
      exact Or.inr ⟨⟨f, hf⟩, hl, rfl, rfl⟩
    · cases h
  · cases h

theorem atLeastFrom_sound {rounds : Text} {least : Nat} {values vs : List α} {log : List Event}
    (h : (atLeastFrom p rounds least values log s).outcome = .success vs r) :
    ∃ as, vs = values.reverse ++ as ∧ Chain p s as r ∧ p.Fails r ∧ least ≤ as.length := by
  induction rounds generalizing s least values log with
  | nil =>
    rw [atLeastFrom] at h
    rcases of_atLeastRound h with ⟨a, t, log, -, hgo⟩ | ⟨hfails, rfl, rfl, rfl⟩
    · cases hgo
    · exact ⟨[], by simp, .nil, hfails, Nat.le_refl _⟩
  | cons c rounds ih =>
    rw [atLeastFrom] at h
    rcases of_atLeastRound h with ⟨a, t, log, ha, hgo⟩ | ⟨hfails, rfl, rfl, rfl⟩
    · obtain ⟨as, rfl, hchain, hfails, hleast⟩ := ih hgo
      refine ⟨a :: as, by simp, .cons ha hchain, hfails, ?_⟩
      rw [List.length_cons]
      omega
    · exact ⟨[], by simp, .nil, hfails, Nat.le_refl _⟩

theorem atLeastFrom_complete (hp : p.Progresses) {as : List α} (hchain : Chain p s as r)
    (hfails : p.Fails r) {rounds : Text} {least : Nat} {values : List α} {log : List Event}
    (hrounds : s.length ≤ rounds.length) (hleast : least ≤ as.length) :
    (atLeastFrom p rounds least values log s).outcome = .success (values.reverse ++ as) r := by
  induction hchain generalizing rounds least values log with
  | nil =>
    obtain ⟨f, hf⟩ := hfails
    obtain rfl : least = 0 := by simpa using hleast
    cases rounds <;> simp [atLeastFrom, atLeastRound, hf]
  | @cons s t r a as ha _ ih =>
    have hlt : t.length < s.length := hp ha
    -- The value took a character, so there is a round for each value that is still to come.
    cases rounds with
    | nil => exact absurd (Nat.lt_of_lt_of_le hlt hrounds) (Nat.not_lt_zero _)
    | cons c rounds =>
      have hgo : (atLeastFrom p rounds (least - 1) (a :: values)
          ((p s).events.reverseAux log) t).outcome = .success ((a :: values).reverse ++ as) r := by
        refine ih hfails ?_ ?_
        · rw [List.length_cons] at hrounds
          omega
        · rw [List.length_cons] at hleast
          omega
      rw [atLeastFrom, atLeastRound]
      simp only [show (p s).outcome = .success a t from ha]
      simpa using hgo

/-- Repetition reads the chain up to where its parser fails, if that chain is long enough. -/
theorem reads_atLeast (hp : p.Progresses) {n : Nat} {as : List α} :
    (atLeast n p).Reads s as r ↔ Chain p s as r ∧ p.Fails r ∧ n ≤ as.length := by
  constructor
  · intro h
    obtain ⟨as, rfl, hchain, hfails, hn⟩ := atLeastFrom_sound h
    exact ⟨hchain, hfails, hn⟩
  · intro h
    obtain ⟨hchain, hfails, hn⟩ := h
    exact atLeastFrom_complete hp hchain hfails (Nat.le_refl _) hn

theorem reads_many (hp : p.Progresses) {as : List α} :
    (many p).Reads s as r ↔ Chain p s as r ∧ p.Fails r := by
  rw [many, reads_atLeast hp]
  simp

/-- Where its parser fails, a repetition that needs a value fails in the same way. -/
theorem outcome_many1_of_failure {f : Failure} (h : (p s).outcome = .failure f) :
    (many1 p s).outcome = .failure f := by
  cases s <;> simp [many1, atLeast, atLeastFrom, atLeastRound, h]

/-! ## Runs of characters -/

/-- `p.Recognizes c`: the parser reads one character, which has to be of the class. -/
structure Recognizes (p : Parser Char) (c : Char → Bool) : Prop where
  reads : ∀ {s d r}, p.Reads s d r ↔ s = d :: r ∧ c d = true
  fails : ∀ {s}, p.Fails s ↔ s.Avoids c

theorem recognizes_satisfy (c : Char → Bool) : (satisfy c).Recognizes c :=
  ⟨reads_satisfy, fails_satisfy⟩

theorem recognizes_char (d : Char) : (char d).Recognizes (· == d) := recognizes_satisfy _

section Recognizes

variable {p q : Parser Char} {c d : Char → Bool} {cs : List Char}

/-- Two classes as alternatives are the class of both. -/
theorem Recognizes.orElse (hp : p.Recognizes c) (hq : q.Recognizes d) :
    (p.orElse q).Recognizes fun x => c x || d x := by
  constructor
  · intro s x r
    rw [reads_orElse, hp.reads, hp.fails, hq.reads]
    constructor
    · intro h
      rcases h with ⟨rfl, hx⟩ | ⟨-, rfl, hx⟩
      · exact ⟨rfl, by rw [hx, Bool.true_or]⟩
      · exact ⟨rfl, by rw [hx, Bool.or_true]⟩
    · intro h
      obtain ⟨rfl, hx⟩ := h
      rw [Bool.or_eq_true] at hx
      by_cases hc : c x = true
      · exact Or.inl ⟨rfl, hc⟩
      · exact Or.inr ⟨Text.avoids_cons.mpr (by simpa using hc), rfl, hx.resolve_left hc⟩
  · intro s
    rw [fails_orElse, hp.fails, hq.fails]
    cases s with
    | nil => simp
    | cons x s => simp only [Text.avoids_cons, Bool.or_eq_false_iff]

theorem Recognizes.progresses (hp : p.Recognizes c) : p.Progresses := by
  intro s x r h
  obtain ⟨rfl, -⟩ := hp.reads.mp h
  simp

theorem Recognizes.chain_iff (hp : p.Recognizes c) :
    Chain p s cs r ↔ s = cs ++ r ∧ ∀ x ∈ cs, c x = true := by
  constructor
  · intro h
    induction h with
    | nil => simp
    | cons ha _ ih =>
      obtain ⟨rfl, hx⟩ := hp.reads.mp ha
      obtain ⟨rfl, hall⟩ := ih
      exact ⟨rfl, List.forall_mem_cons.mpr ⟨hx, hall⟩⟩
  · intro h
    obtain ⟨rfl, hall⟩ := h
    induction cs with
    | nil => exact .nil
    | cons x cs ih =>
      obtain ⟨hx, hcs⟩ := List.forall_mem_cons.mp hall
      exact .cons (hp.reads.mpr ⟨rfl, hx⟩) (ih hcs)

/-- The characters of a class are read to the last of their run. -/
theorem Recognizes.reads_many (hp : p.Recognizes c) :
    (many p).Reads s cs r ↔ s = cs ++ r ∧ (∀ x ∈ cs, c x = true) ∧ r.Avoids c := by
  rw [Parser.reads_many hp.progresses, hp.chain_iff, hp.fails, and_assoc]

theorem Recognizes.reads_many1 (hp : p.Recognizes c) :
    (many1 p).Reads s cs r ↔ s = cs ++ r ∧ cs ≠ [] ∧ (∀ x ∈ cs, c x = true) ∧ r.Avoids c := by
  rw [many1, reads_atLeast hp.progresses, hp.chain_iff, hp.fails]
  rw [show 1 ≤ cs.length ↔ cs ≠ [] from List.length_pos_iff]
  constructor
  · intro h
    obtain ⟨⟨hs, hall⟩, hr, hne⟩ := h
    exact ⟨hs, hne, hall, hr⟩
  · intro h
    obtain ⟨hs, hne, hall, hr⟩ := h
    exact ⟨⟨hs, hall⟩, hr, hne⟩

end Recognizes

theorem reads_many_satisfy {c : Char → Bool} {cs : List Char} :
    (many (satisfy c)).Reads s cs r ↔ s = cs ++ r ∧ (∀ x ∈ cs, c x = true) ∧ r.Avoids c :=
  (recognizes_satisfy c).reads_many

/-! ## Separated lists -/

/-- `Separated p separator s as r`: one value or more are read with a separator between any two, and
`r` is left. -/
inductive Separated (p : Parser α) (separator : Parser β) : Text → List α → Text → Prop where
  | last {s r : Text} {a : α} : p.Reads s a r → Separated p separator s [a] r
  | more {s t u r : Text} {a : α} {b : β} {as : List α} :
      p.Reads s a t → separator.Reads t b u → Separated p separator u as r →
        Separated p separator s (a :: as) r

/-- After its first value, a separated list is a chain of separators with a value each. -/
theorem separated_iff {separator : Parser β} {as : List α} :
    Separated p separator s as r ↔
      ∃ a t bs, as = a :: bs ∧ p.Reads s a t ∧ Chain (separator.skipThen p) t bs r := by
  constructor
  · intro h
    induction h with
    | last ha => exact ⟨_, _, [], rfl, ha, .nil⟩
    | more ha hsep _ ih =>
      obtain ⟨a', t', bs, rfl, ha', hchain⟩ := ih
      exact ⟨_, _, a' :: bs, rfl, ha, .cons (reads_skipThen.mpr ⟨_, _, hsep, ha'⟩) hchain⟩
  · intro h
    obtain ⟨a, t, bs, rfl, ha, hchain⟩ := h
    induction hchain generalizing s a with
    | nil => exact .last ha
    | cons hb _ ih =>
      obtain ⟨b, u, hsep, hvalue⟩ := reads_skipThen.mp hb
      exact .more ha hsep (ih _ hvalue)

theorem sepByRound_eq_atLeastRound (p : Parser α) (separator : Parser β) (values : List α)
    (log : List Event) (again : α → List Event → Parser (List α)) :
    sepByRound p separator values log again =
      atLeastRound (separator.skipThen p) 0 values log again := by
  funext input
  rw [sepByRound, atLeastRound]
  rcases h : separator input with ⟨⟨b, t⟩ | f | _, events⟩
  · rcases hp : p t with ⟨⟨a, r⟩ | f | _, events'⟩ <;>
      simp [skipThen, Reply.next, h, Reply.after, hp, List.reverseAux_eq]
  · simp [skipThen, Reply.next, h]
  · simp [skipThen, Reply.next, h]

/-- After its first value, a separated list is a repetition of separator and value. -/
theorem sepByFrom_eq_atLeastFrom (p : Parser α) (separator : Parser β) (rounds : Text)
    (values : List α) (log : List Event) :
    sepByFrom p separator rounds values log =
      atLeastFrom (separator.skipThen p) rounds 0 values log := by
  induction rounds generalizing values log with
  | nil =>
    funext input
    rw [sepByFrom, atLeastFrom, sepByRound_eq_atLeastRound]
  | cons c rounds ih =>
    funext input
    rw [sepByFrom, atLeastFrom, sepByRound_eq_atLeastRound]
    simp only [ih]

theorem sepBy1_sound {separator : Parser β} {as : List α}
    (h : (sepBy1 p separator).Reads s as r) :
    Separated p separator s as r ∧ (separator.skipThen p).Fails r := by
  rw [Reads, sepBy1] at h
  split at h
  · next a t ha =>
    rw [sepByFrom_eq_atLeastFrom] at h
    obtain ⟨bs, rfl, hchain, hfails, -⟩ := atLeastFrom_sound h
    exact ⟨separated_iff.mpr ⟨a, t, bs, rfl, ha, hchain⟩, hfails⟩
  · cases h
  · cases h

/-- A separated list goes on up to where no separator with a value follows. -/
theorem reads_sepBy1 {separator : Parser β} (hp : (separator.skipThen p).Progresses)
    {as : List α} :
    (sepBy1 p separator).Reads s as r ↔
      Separated p separator s as r ∧ (separator.skipThen p).Fails r := by
  refine ⟨sepBy1_sound, ?_⟩
  intro h
  obtain ⟨hseparated, hfails⟩ := h
  obtain ⟨a, t, bs, rfl, ha, hchain⟩ := separated_iff.mp hseparated
  rw [Reads, sepBy1]
  simp only [show (p s).outcome = .success a t from ha, sepByFrom_eq_atLeastFrom]
  exact atLeastFrom_complete hp hchain hfails (Nat.le_refl _) (Nat.zero_le _)

/-- A separated list that may be empty is empty where no value can be read. -/
theorem reads_sepBy {separator : Parser β} {as : List α} :
    (sepBy p separator).Reads s as r ↔
      (sepBy1 p separator).Reads s as r ∨ p.Fails s ∧ as = [] ∧ r = s := by
  rcases h : (p s).outcome with ⟨a, t⟩ | f | _ <;> simp [Reads, Fails, sepBy, sepBy1, h, eq_comm]

end Descent.Parser
