import Descent.Proofs.Json.Calls

/-!
# No value is tried twice

The rule for values can go back in the text: when an item is missing, when a comma dangles, when a
closing bracket is not there. But it never calls itself again after it has gone back. So in the
order in which the rule is tried, each attempt is on a shorter end of the text than the one before
it (`attempts_decrease`), whatever the text is.

The invariant is `Descends`. A call that succeeds has made all its attempts before what it leaves,
so the next item starts behind them; and a call at a closing bracket, where an empty array ends, is
the only attempt there.
-/

namespace Descent.Json

open Descent.Parser Scan

variable {s t r : Text} {us xs : List Text} {p : Parser Json} {A : Text → List Text}

/-! ## Attempts that go forward -/

/-- Ends of a text, each shorter than the one before it. -/
structure Forward (s : Text) (xs : List Text) : Prop where
  suffix : ∀ x ∈ xs, x <:+ s
  shorter : xs.Pairwise fun a b => b.length < a.length

/-- The attempts of a call on a text go forward; they end before what the call leaves, if it
succeeds; and where no bracket opens, the call itself is the only one. -/
structure Descends (p : Parser Json) (s : Text) (xs : List Text) : Prop extends Forward s xs where
  before : ∀ {v r}, p.Reads s v r → ∀ x ∈ xs, r.length < x.length
  only : s.Avoids isOpening → xs = [s]

theorem Forward.nil (s : Text) : Forward s [] := ⟨by simp, .nil⟩

theorem Forward.mono (h : Forward t xs) (hts : t <:+ s) : Forward s xs :=
  ⟨fun x hx => (h.suffix x hx).trans hts, h.shorter⟩

/-- Attempts that go forward, and then attempts on an end of the text behind them. -/
theorem Forward.append {ys : List Text} (hx : Forward s xs) (hy : Forward t ys) (hts : t <:+ s)
    (hbefore : ∀ x ∈ xs, t.length < x.length) : Forward s (xs ++ ys) := by
  refine ⟨List.forall_mem_append.mpr ⟨hx.suffix, (hy.mono hts).suffix⟩, ?_⟩
  refine List.pairwise_append.mpr ⟨hx.shorter, hy.shorter, fun x hxs y hys => ?_⟩
  have hle := (hy.suffix y hys).length_le
  have hlt := hbefore x hxs
  omega

/-! ## Items -/

theorem Missing.forward (h : Missing p s us) (hA : ∀ u ∈ us, Descends p u (A u)) :
    Forward s (us.flatMap A) := by
  cases h with
  | key => exact .nil s
  | value hlead =>
    rw [List.flatMap_singleton]
    exact (hA _ List.mem_cons_self).toForward.mono hlead.suffix

/-- The attempts of a value are behind the next item. -/
theorem Descends.before_item {v : Json} {gap : Gap} (h : Descends p t xs)
    (hv : p.Reads t v (',' :: (gap.1 ++ s))) : ∀ x ∈ xs, s.length < x.length := by
  intro x hx
  have hlt := h.before hv x hx
  rw [List.length_cons, List.length_append] at hlt
  omega

/-- The attempts for items go forward. -/
theorem Items.forward (hp : p.Composed false) (h : Items p s us r)
    (hA : ∀ u ∈ us, Descends p u (A u)) : Forward s (us.flatMap A) := by
  induction h with
  | missing h => exact h.forward hA
  | last hlead hv =>
    rw [List.flatMap_singleton]
    exact (hA _ List.mem_cons_self).toForward.mono hlead.suffix
  | dangling hlead hv h =>
    obtain ⟨ht, hus⟩ := List.forall_mem_cons.mp hA
    rw [List.flatMap_cons]
    exact (ht.toForward.append (h.forward hus) (suffix_of_reads hp hv)
      (ht.before_item hv)).mono hlead.suffix
  | more hlead hv _ ih =>
    obtain ⟨ht, hus⟩ := List.forall_mem_cons.mp hA
    rw [List.flatMap_cons]
    exact (ht.toForward.append (ih hus) (suffix_of_reads hp hv)
      (ht.before_item hv)).mono hlead.suffix

theorem not_isOpening_of_isClosing {c : Char} (hc : isClosing c = true) : isOpening c = false := by
  rcases isClosing_iff.mp hc with rfl | rfl <;> rfl

/-- If a closing bracket comes right after the items, all attempts are before what is behind it. -/
theorem Items.before (hp : p.Composed false) (h : Items p s us r)
    (hA : ∀ u ∈ us, Descends p u (A u)) {closing : Char} {r' : Text}
    (hc : isClosing closing = true) (hr : r = closing :: r') :
    ∀ x ∈ us.flatMap A, r'.length < x.length := by
  induction h with
  | @missing s us h =>
    cases h with
    | key => simp
    | value hlead =>
      subst hr
      cases hlead with
      | element =>
        -- The items end at once, and the call at the closing bracket is the only one.
        have honly := (hA _ List.mem_cons_self).only
          (Text.avoids_cons.mpr (not_isOpening_of_isClosing hc))
        simp [honly]
      | member => cases hc
  | last hlead hv =>
    intro x hx
    rw [List.flatMap_singleton] at hx
    have hlt := (hA _ List.mem_cons_self).before hv x hx
    rw [hr, List.length_cons] at hlt
    omega
  | dangling =>
    cases hr
    cases hc
  | @more s s' t r v gap us hlead hv hitems ih =>
    obtain ⟨ht, hus⟩ := List.forall_mem_cons.mp hA
    have hle := (hitems.leaves_suffix hp).length_le
    rw [List.flatMap_cons, List.forall_mem_append]
    refine ⟨fun x hx => ?_, ih hus hr⟩
    have hlt := ht.before_item hv x hx
    rw [hr, List.length_cons] at hle
    omega

/-! ## Calls -/

theorem Calls.forward (hp : p.Composed false) (h : Calls p s us)
    (hA : ∀ u ∈ us, Descends p u (A u)) : Forward s (s :: us.flatMap A) := by
  have hinside : Forward s (us.flatMap A) ∧ ∀ x ∈ us.flatMap A, x.length < s.length := by
    cases h with
    | scalar => exact ⟨.nil s, by simp⟩
    | @items opening gap t _ r _ hitems _ =>
      have hforward := (hitems.forward hp hA).mono (List.suffix_append gap.1 t)
      refine ⟨hforward.mono (List.suffix_cons _ _), fun x hx => ?_⟩
      have hle := (hforward.suffix x hx).length_le
      rw [List.length_cons]
      omega
  exact ⟨List.forall_mem_cons.mpr ⟨List.suffix_refl s, hinside.1.suffix⟩,
    List.pairwise_cons.mpr ⟨hinside.2, hinside.1.shorter⟩⟩

/-- If the attempts of the calls descend, then so do those of the run that makes them. -/
theorem Calls.descends (hp : p.Composed false) (hbody : ReadsDocuments (valueBody p))
    (h : Calls p s us) (hA : ∀ u ∈ us, Descends p u (A u)) :
    Descends (valueBody p) s (s :: us.flatMap A) := by
  refine ⟨h.forward hp hA, ?_, ?_⟩
  · intro v r' hv
    refine List.forall_mem_cons.mpr ⟨hbody.progresses hv, ?_⟩
    cases h with
    | scalar => simp
    | items _ hitems hend =>
      obtain ⟨closing, gap', hc, hr⟩ := hend v r' hv
      intro x hx
      have hlt := hitems.before hp hA hc hr x hx
      rw [List.length_append] at hlt
      omega
  · intro hs
    cases h with
    | scalar => rfl
    | items hopening => exact absurd (Text.avoids_cons.mp hs) (by simp [hopening])

theorem spans_nested_ne_nil (n : Nat) (s : Text) :
    ∀ e ∈ (nested valueBody n s).events, e.spans ≠ [] := by
  cases n with
  | zero => simp [nested, Reply.diverges]
  | succ n => exact spans_traced_ne_nil

/-- The attempts of any call of the rule descend, by induction on how deep calls may nest. -/
theorem descends_nested {n : Nat} (hn : s.length < n) :
    Descends (nested valueBody n) s (attempts valueName (nested valueBody n s).events) := by
  induction n generalizing s with
  | zero => exact absurd hn (Nat.not_lt_zero _)
  | succ n ih =>
    obtain ⟨us, finish, hcalls, hevents, hfinish⟩ := exists_calls_nested hn
    have hspans : ∀ e ∈ us.flatMap fun u => (nested valueBody n u).events, e.spans ≠ [] := by
      intro e he
      obtain ⟨u, -, he⟩ := List.mem_flatMap.mp he
      exact spans_nested_ne_nil n u e he
    rw [hevents, attempts_traced hspans hfinish, attempts_flatMap]
    exact hcalls.descends (composed_nested n) (valueBody_sound (nested_sound n)) fun u hu =>
      ih (Nat.lt_of_lt_of_le (hcalls.suffix (composed_nested n) u hu).2 (by omega))

/-! ## Whole runs -/

theorem Forward.nodup (h : Forward s xs) : xs.Nodup := by
  refine h.shorter.imp fun hlt heq => ?_
  rw [heq] at hlt
  exact Nat.lt_irrefl _ hlt

theorem Forward.pairwise_suffix (h : Forward s xs) :
    xs.Pairwise fun a b => b <:+ a ∧ b.length < a.length := by
  refine h.shorter.imp_of_mem fun ha hb hlt => ⟨?_, hlt⟩
  exact List.suffix_of_suffix_length_le (h.suffix _ hb) (h.suffix _ ha) (Nat.le_of_lt hlt)

/-- Texts that get shorter are no more than there are lengths for them. -/
theorem length_le_of_shorter {n : Nat} (h : xs.Pairwise fun a b => b.length < a.length)
    (hn : ∀ x ∈ xs, x.length < n) : xs.length ≤ n := by
  induction xs generalizing n with
  | nil => exact Nat.zero_le n
  | cons x xs ih =>
    obtain ⟨hx, hxs⟩ := List.pairwise_cons.mp h
    obtain ⟨hlt, -⟩ := List.forall_mem_cons.mp hn
    have hle := ih hxs hx
    rw [List.length_cons]
    omega

theorem Forward.length_le (h : Forward s xs) : xs.length ≤ s.length + 1 :=
  length_le_of_shorter h.shorter fun x hx => Nat.lt_succ_of_le (h.suffix x hx).length_le

/-- The texts on which the rule for values is tried in a run of the parser, in order. -/
def valueAttempts (s : Text) : List Text := attempts valueName (parser s).events

/-- In any run, which always ends, the rule for values is tried on ever shorter ends of the text:
at most once at each position, so at most once more than there are characters. -/
theorem attempts_decrease (s : Text) :
    parser.Ends s ∧ (∀ t ∈ valueAttempts s, t <:+ s) ∧
      (valueAttempts s).Pairwise (fun a b => b <:+ a ∧ b.length < a.length) ∧
      (valueAttempts s).Nodup ∧ (valueAttempts s).length ≤ s.length + 1 := by
  have hforward : Forward s (valueAttempts s) := by
    rw [valueAttempts, parser_eq]
    split
    · have hdescends := descends_nested (Nat.lt_succ_self (s.dropWhile Lexeme.isBlank).length)
      exact hdescends.toForward.mono (List.dropWhile_suffix _)
    · exact .nil s
  exact ⟨parser_ends s, hforward.suffix, hforward.pairwise_suffix, hforward.nodup,
    hforward.length_le⟩

/-- After a comma with no value behind it, nothing is tried again. -/
example : valueAttempts ['[', '1', ',', ']'] = [['[', '1', ',', ']'], ['1', ',', ']'], [']']] := by
  rfl

end Descent.Json
