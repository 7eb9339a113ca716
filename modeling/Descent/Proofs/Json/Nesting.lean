import Descent.Proofs.Json.Calls
import Descent.Proofs.Parser.Completion

/-!
# How deep calls of the rule for values nest

The scan for depth and the grammar count brackets apart from each other, and the scan knows nothing
of the grammar. But wherever the rule calls itself inside brackets, what lies between them and the
call has been read, and so the scan has counted just these brackets (`Items.accepts`). If it accepts
a text with `k` brackets open, the calls on that text nest at most `129 - k` deep
(`spans_nested`), whether or not they succeed.
-/

namespace Descent.Json

open Descent.Parser Scan

variable {s t r : Text} {us : List Text} {p : Parser Json} {k : Nat}

/-! ## The scan at a call -/

theorem Lead.accepts_eq (h : Lead s t) :
    accepts ⟨k + 1, .outside⟩ s = accepts ⟨k + 1, .outside⟩ t := by
  cases h with
  | element => rfl
  | member key afterKey before =>
    rw [accepts_quoted, accepts_not_structural (not_structural_of_gap afterKey), accepts_mark rfl,
      accepts_not_structural (not_structural_of_gap before)]

/-- Inside a bracket, what is left after a value is accepted where the value was. -/
theorem ReadsDocuments.accepts (hp : ReadsDocuments p) {v : Json} (h : p.Reads t v r)
    (hk : k + 1 ≤ maxDepth) (ht : accepts ⟨k + 1, .outside⟩ t = true) :
    accepts ⟨k + 1, .outside⟩ r = true := by
  obtain ⟨d, after, rfl, -, -⟩ := hp h
  rw [accepts_document k d _ hk, accepts_not_structural (not_structural_of_gap after),
    Bool.and_eq_true] at ht
  exact ht.2

theorem Missing.accepts (h : Missing p s us) (hs : accepts ⟨k + 1, .outside⟩ s = true) :
    ∀ u ∈ us, accepts ⟨k + 1, .outside⟩ u = true := by
  cases h with
  | key => simp
  | value hlead => simpa [← hlead.accepts_eq] using hs

/-- Inside a bracket, a text is accepted at every call for its items. -/
theorem Items.accepts (hp : ReadsDocuments p) (hk : k + 1 ≤ maxDepth) (h : Items p s us r)
    (hs : accepts ⟨k + 1, .outside⟩ s = true) :
    ∀ u ∈ us, accepts ⟨k + 1, .outside⟩ u = true := by
  have hnext {s s' t : Text} {v : Json} {gap : Gap} (hlead : Lead s t)
      (hv : p.Reads t v (',' :: (gap.1 ++ s')))
      (hs : Scan.accepts ⟨k + 1, .outside⟩ s = true) :
      Scan.accepts ⟨k + 1, .outside⟩ t = true ∧ Scan.accepts ⟨k + 1, .outside⟩ s' = true := by
    rw [hlead.accepts_eq] at hs
    have hrest := hp.accepts hv hk hs
    rw [accepts_mark rfl, accepts_not_structural (not_structural_of_gap gap)] at hrest
    exact ⟨hs, hrest⟩
  induction h with
  | missing h => exact h.accepts hs
  | last hlead => simpa [← hlead.accepts_eq] using hs
  | dangling hlead hv h =>
    obtain ⟨ht, hs'⟩ := hnext hlead hv hs
    exact List.forall_mem_cons.mpr ⟨ht, h.accepts hs'⟩
  | more hlead hv _ ih =>
    obtain ⟨ht, hs'⟩ := hnext hlead hv hs
    exact List.forall_mem_cons.mpr ⟨ht, ih hs'⟩

/-- A text that is accepted is accepted at every call, with one more bracket open. -/
theorem Calls.accepts (hp : ReadsDocuments p) (h : Calls p s us)
    (hs : accepts ⟨k, .outside⟩ s = true) :
    ∀ u ∈ us, k + 1 ≤ maxDepth ∧ accepts ⟨k + 1, .outside⟩ u = true := by
  intro u hu
  cases h with
  | scalar => cases hu
  | @items opening gap t _ r hopening hitems _ =>
    rw [accepts_opening hopening, accepts_not_structural (not_structural_of_gap gap),
      Bool.and_eq_true, decide_eq_true_eq] at hs
    exact ⟨hs.1, hitems.accepts hp hs.1 hs.2 u hu⟩

/-! ## Spans -/

/-- With `k` brackets open, the calls on a text that is accepted nest no deeper than is allowed. -/
theorem spans_nested {n : Nat} (hn : s.length < n) (hk : k ≤ maxDepth)
    (hs : accepts ⟨k, .outside⟩ s = true) :
    ∀ e ∈ (nested valueBody n s).events,
      (∀ name ∈ e.spans, name = valueName) ∧ k + e.spans.length ≤ maxDepth + 1 := by
  induction n generalizing s k with
  | zero => exact absurd hn (Nat.not_lt_zero _)
  | succ n ih =>
    obtain ⟨us, finish, hcalls, hevents, hfinish⟩ := exists_calls_nested hn
    have hone (e : Event) (he : e.spans = [valueName]) :
        (∀ name ∈ e.spans, name = valueName) ∧ k + e.spans.length ≤ maxDepth + 1 := by
      rw [he]
      exact ⟨by simp, Nat.succ_le_succ hk⟩
    intro e he
    rw [hevents] at he
    simp only [List.mem_cons, List.mem_append, List.mem_map, List.mem_flatMap] at he
    rcases he with rfl | ⟨e, ⟨u, hu, he⟩, rfl⟩ | he
    · exact hone _ rfl
    · -- An event of a call has one span more, and there is one bracket more at the call.
      have hlt := (hcalls.suffix (composed_nested n) u hu).2
      obtain ⟨hk', haccepts⟩ := hcalls.accepts (nested_sound n) hs u hu
      obtain ⟨hnames, hlength⟩ := ih (by omega) hk' haccepts e he
      refine ⟨List.forall_mem_cons.mpr ⟨rfl, hnames⟩, ?_⟩
      show k + (e.spans.length + 1) ≤ maxDepth + 1
      omega
    · exact hone e (hfinish e he).1

/-! ## Whole runs -/

/-- No run nests more than 129 calls of the rule for values, and a JSON text that nests deeper than
128 levels is refused without any. -/
theorem nesting_bounded (s : Text) :
    parser.Ends s ∧
      (∀ e ∈ (parser s).events, (∀ name ∈ e.spans, name = valueName) ∧ e.spans.length ≤ 129) ∧
      ∀ d, Spells s d → 128 < d.depth → (parser s).events = [] ∧
        ∃ f, parse s = .rejected f ∧ f.message =
          "Nesting deeper than 128 levels. Invalid input: " ++
            Text.snippet (s.dropWhile Lexeme.isBlank) := by
  refine ⟨parser_ends s, ?_, ?_⟩
  · rw [parser_eq]
    split
    · next haccepts =>
      intro e he
      obtain ⟨hnames, hlength⟩ := spans_nested (Nat.lt_succ_self _) (Nat.zero_le _) haccepts e he
      exact ⟨hnames, by simpa [maxDepth] using hlength⟩
    · simp [Reply.failure]
  · rintro d ⟨before, after, rfl⟩ hdepth
    have hrejects : start.accepts (d.text ++ after.1) = false := by
      have hstring : ∀ ps, d ≠ .string ps := by
        rintro ps rfl
        exact absurd hdepth (Nat.not_lt_zero _)
      rw [accepts_start_document hstring]
      exact decide_eq_false (Nat.not_le.mpr hdepth)
    have hparser := parser_eq (before.1 ++ d.text ++ after.1)
    rw [List.append_assoc, dropWhile_gap_append before (d.avoids_isBlank _), hrejects] at hparser
    rw [List.append_assoc, dropWhile_gap_append before (d.avoids_isBlank _)]
    refine ⟨by rw [hparser]; rfl, _, parseComplete_eq_rejected_iff.mpr (by rw [hparser]; rfl), rfl⟩

/-- Nested arrays, each the only element of the one around it. -/
def nestedArrays : Nat → Document
  | 0 => .emptyArray ⟨[], by simp⟩
  | n + 1 => .array (.last ⟨[], by simp⟩ (nestedArrays n) ⟨[], by simp⟩)

theorem depth_nestedArrays (n : Nat) : (nestedArrays n).depth = n + 1 := by
  induction n with
  | zero => rfl
  | succ n ih => simp [nestedArrays, ih]

/-- A blank and 129 arrays. -/
theorem nesting_bounded_arrays :
    Spells (' ' :: (nestedArrays 128).text) (nestedArrays 128) ∧ 128 < (nestedArrays 128).depth ∧
      (parser (' ' :: (nestedArrays 128).text)).events = [] := by
  have hspells : Spells (' ' :: (nestedArrays 128).text) (nestedArrays 128) :=
    ⟨⟨[' '], by simp⟩, ⟨[], by simp⟩, by simp⟩
  have hdepth : 128 < (nestedArrays 128).depth := by
    rw [depth_nestedArrays]
    omega
  obtain ⟨-, -, hrefused⟩ := nesting_bounded (' ' :: (nestedArrays 128).text)
  exact ⟨hspells, hdepth, (hrefused _ hspells hdepth).1⟩

end Descent.Json
