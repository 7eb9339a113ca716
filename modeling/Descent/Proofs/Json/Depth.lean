import Descent.Json.Depth
import Descent.Proofs.Json.Numbers
import Descent.Proofs.Json.Strings

/-!
# What the depth scan measures

The scan counts brackets and knows nothing of the grammar. `run` takes it over the first part of a
text and keeps the greatest depth on the way, and the scan of the whole text goes on from there
(`accepts_append`).

On the text of a document the scan measures the depth of that document. Inside a bracket, it is
after the text of a value as it was before, and has had as many more brackets open as the value is
deep, unless the value nests too deeply there (`measures_document`). When no bracket is open, the
scan ends with the first value, whatever follows (`accepts_start_document`), but for a string: it
does not count as a value, and the scan goes on behind it (`accepts_quoted`).
-/

namespace Descent.Json

open Scan

/-! ## Steps of the scan -/

/-- Whether a character means anything to a scan that is not in a string. -/
def isStructural (c : Char) : Bool := c == '"' || isOpening c || isClosing c

variable {s s' : Scan} {k m a b : Nat} {c : Char} {t u r : Text}

theorem isOpening_iff : isOpening c = true ↔ c = '[' ∨ c = '\x7b' := by
  simp [isOpening]

theorem isClosing_iff : isClosing c = true ↔ c = ']' ∨ c = '\x7d' := by
  simp [isClosing]

theorem step_opening (hc : isOpening c = true) :
    step ⟨k, .outside⟩ c = if maxDepth < k + 1 then .tooDeep else .go ⟨k + 1, .outside⟩ := by
  rcases isOpening_iff.mp hc with rfl | rfl <;> rfl

theorem step_closing (hc : isClosing c = true) :
    step ⟨k + 2, .outside⟩ c = .go ⟨k + 1, .outside⟩ := by
  rcases isClosing_iff.mp hc with rfl | rfl <;> rfl

theorem step_not_structural (hc : isStructural c = false) :
    step ⟨k, .outside⟩ c = if k = 0 then .stop else .go ⟨k, .outside⟩ := by
  simp only [isStructural, Bool.or_eq_false_iff] at hc
  obtain ⟨⟨hquote, hopen⟩, hclose⟩ := hc
  simp [step, hquote, hopen, hclose]

/-! ## Runs of the scan -/

/-- How far a scan comes in a text. -/
inductive Progress where
  /-- The scan passes over the text. It is in this state then, and this is the greatest depth on the
  way, at the beginning and at the end included. -/
  | passed (scan : Scan) (peak : Nat)
  /-- The scan ends within the text, and accepts it or does not. -/
  | ended (accepted : Bool)

namespace Progress

/-- The same with an earlier depth on the way. -/
def raise (depth : Nat) : Progress → Progress
  | passed scan peak => passed scan (max depth peak)
  | ended accepted => ended accepted

/-- Go on with the state in which the scan is then, if it has not ended. -/
def next (p : Progress) (go : Scan → Progress) : Progress :=
  match p with
  | passed scan peak => (go scan).raise peak
  | ended accepted => ended accepted

/-- Whether a text is accepted of which the scan has seen the first part, when this is the rest. -/
def accepts (p : Progress) (rest : Text) : Bool :=
  match p with
  | passed scan _ => scan.accepts rest
  | ended accepted => accepted

@[simp] theorem raise_passed (s : Scan) (k m : Nat) :
    (passed s m).raise k = passed s (max k m) := rfl

@[simp] theorem raise_ended (k : Nat) (b : Bool) : (ended b).raise k = ended b := rfl

@[simp] theorem next_passed (s : Scan) (m : Nat) (go : Scan → Progress) :
    (passed s m).next go = (go s).raise m := rfl

@[simp] theorem next_ended (b : Bool) (go : Scan → Progress) : (ended b).next go = ended b := rfl

@[simp] theorem raise_raise (p : Progress) (k m : Nat) :
    (p.raise m).raise k = p.raise (max k m) := by
  cases p with
  | passed s n => simp [Nat.max_assoc]
  | ended b => rfl

theorem next_raise (p : Progress) (k : Nat) (go : Scan → Progress) :
    (p.raise k).next go = (p.next go).raise k := by
  cases p with
  | passed s n => simp
  | ended b => rfl

@[simp] theorem accepts_raise (p : Progress) (k : Nat) (r : Text) :
    (p.raise k).accepts r = p.accepts r := by
  cases p <;> rfl

end Progress

/-- The scan of the first part of a text. -/
def Scan.run (s : Scan) : Text → Progress
  | [] => .passed s s.depth
  | c :: rest =>
    match s.step c with
    | .go next => (next.run rest).raise s.depth
    | .stop => .ended true
    | .tooDeep => .ended false

theorem run_cons (h : s.step c = .go s') (t : Text) :
    s.run (c :: t) = (s'.run t).raise s.depth := by
  rw [run, h]

/-- The depth at the beginning is on the way. -/
theorem raise_run (s : Scan) (t : Text) : (s.run t).raise s.depth = s.run t := by
  cases t with
  | nil => simp [run]
  | cons c t =>
    rw [run]
    cases s.step c <;> simp

/-- The scan goes on behind the first part of a text with the state that it has there. -/
theorem run_append (s : Scan) (t u : Text) :
    s.run (t ++ u) = (s.run t).next fun last => last.run u := by
  induction t generalizing s with
  | nil => exact (raise_run s u).symm
  | cons c t ih =>
    rw [List.cons_append, run, run]
    cases s.step c with
    | go next => simp only [ih, Progress.next_raise]
    | stop => rfl
    | tooDeep => rfl

theorem accepts_append (s : Scan) (t r : Text) : s.accepts (t ++ r) = (s.run t).accepts r := by
  induction t generalizing s with
  | nil => rfl
  | cons c t ih =>
    rw [List.cons_append, accepts, run]
    cases s.step c with
    | go next => simp only [ih, Progress.accepts_raise]
    | stop => rfl
    | tooDeep => rfl

theorem accepts_append_of_run (h : s.run t = .passed s' m) (r : Text) :
    s.accepts (t ++ r) = s'.accepts r := by
  rw [accepts_append, h]
  rfl

/-! ## What the scan passes over -/

/-- Inside a bracket, characters that mean nothing to the scan are passed over. -/
theorem run_not_structural (ht : ∀ c ∈ t, isStructural c = false) (k : Nat) :
    run ⟨k + 1, .outside⟩ t = .passed ⟨k + 1, .outside⟩ (k + 1) := by
  induction t with
  | nil => rfl
  | cons c t ih =>
    obtain ⟨hc, ht⟩ := List.forall_mem_cons.mp ht
    have hstep : step ⟨k + 1, .outside⟩ c = .go ⟨k + 1, .outside⟩ := step_not_structural hc
    rw [run_cons hstep, ih ht, Progress.raise_passed, Nat.max_self]

theorem run_inString (ht : ∀ c ∈ t, c ≠ '"' ∧ c ≠ '\\') (k : Nat) :
    run ⟨k, .inString⟩ t = .passed ⟨k, .inString⟩ k := by
  induction t with
  | nil => rfl
  | cons c t ih =>
    obtain ⟨⟨hquote, hslash⟩, ht⟩ := List.forall_mem_cons.mp ht
    have hstep : step ⟨k, .inString⟩ c = .go ⟨k, .inString⟩ := by
      simp [step, hquote, hslash]
    rw [run_cons hstep, ih ht, Progress.raise_passed, Nat.max_self]

theorem isUnescaped_of_hexQuad (digits : HexQuad) : ∀ c ∈ digits.text, c ≠ '"' ∧ c ≠ '\\' := by
  have h : ∀ d ∈ hexDigits, d.1 ≠ '"' ∧ d.1 ≠ '\\' := by decide
  intro c hc
  obtain ⟨d, hd, rfl⟩ := List.mem_map.mp hc
  exact h d (digits.2.2 d hd)

/-- Whatever stands after a backslash does not end the string. -/
theorem run_escape (c : Char) (ht : ∀ d ∈ t, d ≠ '"' ∧ d ≠ '\\') (k : Nat) :
    run ⟨k, .inString⟩ ('\\' :: c :: t) = .passed ⟨k, .inString⟩ k := by
  simp [run, step, run_inString ht]

theorem run_piece (p : Piece) (k : Nat) :
    run ⟨k, .inString⟩ p.text = .passed ⟨k, .inString⟩ k := by
  cases p with
  | plain c hc => exact run_inString (by simpa [Piece.text] using hc.2) k
  | short mark c h => exact run_escape mark (by simp) k
  | unit digits => exact run_escape 'u' (isUnescaped_of_hexQuad digits) k

theorem run_pieces (ps : List Piece) (k : Nat) :
    run ⟨k, .inString⟩ (piecesText ps) = .passed ⟨k, .inString⟩ k := by
  induction ps with
  | nil => rfl
  | cons p ps ih => simp [run_append, run_piece, ih]

/-- The brackets and escapes in a string make no difference to the scan. -/
theorem run_quoted (ps : List Piece) (k : Nat) :
    run ⟨k, .outside⟩ (quoted ps) = .passed ⟨k, .outside⟩ k := by
  have hopen : step ⟨k, .outside⟩ '"' = .go ⟨k, .inString⟩ := rfl
  rw [quoted, run_cons hopen, run_append, run_pieces]
  simp [run, step]

theorem accepts_not_structural (ht : ∀ c ∈ t, isStructural c = false) :
    accepts ⟨k + 1, .outside⟩ (t ++ r) = accepts ⟨k + 1, .outside⟩ r :=
  accepts_append_of_run (run_not_structural ht k) r

theorem accepts_mark (hc : isStructural c = false) :
    accepts ⟨k + 1, .outside⟩ (c :: r) = accepts ⟨k + 1, .outside⟩ r :=
  accepts_not_structural (t := [c]) (by simpa using hc)

theorem accepts_quoted (k : Nat) (ps : List Piece) (r : Text) :
    accepts ⟨k, .outside⟩ (quoted ps ++ r) = accepts ⟨k, .outside⟩ r :=
  accepts_append_of_run (run_quoted ps k) r

/-- A bracket opens if that is not too deep. -/
theorem accepts_opening (hc : isOpening c = true) :
    accepts ⟨k, .outside⟩ (c :: r) =
      (decide (k + 1 ≤ maxDepth) && accepts ⟨k + 1, .outside⟩ r) := by
  rw [accepts, step_opening hc]
  by_cases h : k + 1 ≤ maxDepth
  · simp [h, Nat.not_lt.mpr h]
  · simp [h, Nat.not_le.mp h]

/-- The scan ends with the last bracket. -/
theorem accepts_closing_last (hc : isClosing c = true) :
    accepts ⟨1, .outside⟩ (c :: r) = true := by
  rcases isClosing_iff.mp hc with rfl | rfl <;> rfl

/-- When no bracket is open, the scan ends at a character that means nothing to it. -/
theorem accepts_start_of_not_structural (hc : isStructural c = false) :
    start.accepts (c :: r) = true := by
  rw [accepts, start, step_not_structural hc]
  rfl

/-! ## Blanks, numbers and keywords -/

theorem not_structural_of_gap (gap : Gap) : ∀ c ∈ gap.1, isStructural c = false := by
  intro c hc
  rcases gap.2 c hc with rfl | rfl | rfl | rfl <;> rfl

theorem not_structural_of_isDigit (h : c.isDigit = true) : isStructural c = false :=
  Numeral.forall_isDigit (P := fun c => isStructural c = false) (by decide) h

theorem not_structural_of_any {t : Text} (h : t.any isStructural = false) :
    ∀ c ∈ t, isStructural c = false := by
  intro c hc
  have hnot := List.any_eq_false.mp h c hc
  simpa using hnot

theorem not_structural_of_literal (l : NumberLiteral) : ∀ c ∈ l.text, isStructural c = false := by
  intro c hc
  rcases NumberLiteral.of_mem_text hc with h | rfl | rfl | rfl | rfl | rfl
  · exact not_structural_of_isDigit h
  all_goals rfl

/-! ## Documents -/

/-- Inside a bracket, the scan is after the text as it was before, and at most so many more brackets
were open on the way, and at some point just as many. If that is too deep there, it does not
accept. -/
def Measures (t : Text) (depth : Nat) : Prop :=
  ∀ k, k + 1 ≤ maxDepth → run ⟨k + 1, .outside⟩ t =
    if k + 1 + depth ≤ maxDepth then .passed ⟨k + 1, .outside⟩ (k + 1 + depth) else .ended false

namespace Measures

theorem of_not_structural (ht : ∀ c ∈ t, isStructural c = false) : Measures t 0 := by
  intro k hk
  rw [Nat.add_zero, if_pos hk, run_not_structural ht]

theorem gap (gap : Gap) : Measures gap.1 0 :=
  of_not_structural (not_structural_of_gap gap)

theorem quoted (ps : List Piece) : Measures (quoted ps) 0 := by
  intro k hk
  rw [Nat.add_zero, if_pos hk, run_quoted]

theorem append (ht : Measures t a) (hu : Measures u b) : Measures (t ++ u) (max a b) := by
  intro k hk
  rw [run_append, ht k hk, ← Nat.add_max_add_left]
  by_cases ha : k + 1 + a ≤ maxDepth
  · rw [if_pos ha, Progress.next_passed, hu k hk]
    by_cases hb : k + 1 + b ≤ maxDepth
    · rw [if_pos hb, if_pos (Nat.max_le.mpr ⟨ha, hb⟩), Progress.raise_passed]
    · rw [if_neg hb, if_neg fun h => hb (Nat.max_le.mp h).2, Progress.raise_ended]
  · rw [if_neg ha, if_neg fun h => ha (Nat.max_le.mp h).1, Progress.next_ended]

/-- Blanks around a text make no difference. -/
theorem blanks (ht : Measures t a) (before after : Gap) :
    Measures (before.1 ++ t ++ after.1) a := by
  simpa using ((gap before).append ht).append (gap after)

/-- Two texts, with a character between them that means nothing to the scan. -/
theorem separated (ht : Measures t a) (hu : Measures u b) (hc : isStructural c = false) :
    Measures (t ++ c :: u) (max a b) := by
  have h : Measures [c] 0 := of_not_structural (by simpa using hc)
  simpa using ht.append (h.append hu)

/-- What stands in brackets is one level deeper than they are. -/
theorem bracketed {opening closing : Char} (ht : Measures t a) (ho : isOpening opening = true)
    (hc : isClosing closing = true) : Measures (opening :: (t ++ [closing])) (a + 1) := by
  intro k hk
  have hdepth : k + 1 + (a + 1) = k + 1 + 1 + a := by omega
  rw [hdepth]
  -- Only where the bracket itself is not too deep does the scan get to what is inside.
  by_cases hopen : k + 1 + 1 ≤ maxDepth
  · have hstep : step ⟨k + 1, .outside⟩ opening = .go ⟨k + 1 + 1, .outside⟩ := by
      rw [step_opening ho, if_neg (Nat.not_lt.mpr hopen)]
    have hclose : run ⟨k + 1 + 1, .outside⟩ [closing] = .passed ⟨k + 1, .outside⟩ (k + 1 + 1) := by
      rw [run_cons (step_closing hc), run, Progress.raise_passed, Nat.max_eq_left (Nat.le_succ _)]
    rw [run_cons hstep, run_append, ht (k + 1) hopen]
    by_cases ha : k + 1 + 1 + a ≤ maxDepth
    · rw [if_pos ha, if_pos ha, Progress.next_passed, hclose, Progress.raise_passed,
        Progress.raise_passed, Nat.max_eq_left (Nat.le_add_right _ a),
        Nat.max_eq_right (show k + 1 ≤ k + 1 + 1 + a by omega)]
    · rw [if_neg ha, if_neg ha, Progress.next_ended, Progress.raise_ended]
  · have hstep : step ⟨k + 1, .outside⟩ opening = .tooDeep := by
      rw [step_opening ho, if_pos (Nat.not_le.mp hopen)]
    rw [run, hstep, if_neg (by omega)]

/-- The scan goes on behind the text if it is not too deep there. -/
theorem accepts (ht : Measures t a) (hk : k + 1 ≤ maxDepth) (r : Text) :
    Scan.accepts ⟨k + 1, .outside⟩ (t ++ r) =
      (decide (k + 1 + a ≤ maxDepth) && Scan.accepts ⟨k + 1, .outside⟩ r) := by
  rw [accepts_append, ht k hk]
  by_cases ha : k + 1 + a ≤ maxDepth
  · rw [if_pos ha, decide_eq_true ha, Bool.true_and]
    rfl
  · rw [if_neg ha, decide_eq_false ha, Bool.false_and]
    rfl

/-- With no bracket open, the scan ends behind the closing bracket. -/
theorem accepts_start {opening closing : Char} (ht : Measures t a) (ho : isOpening opening = true)
    (hc : isClosing closing = true) (r : Text) :
    start.accepts (opening :: (t ++ [closing]) ++ r) = decide (a + 1 ≤ maxDepth) := by
  rw [List.cons_append, List.append_assoc, List.singleton_append, start, accepts_opening ho,
    ht.accepts (by decide), accepts_closing_last hc, Bool.and_true, Nat.add_comm 1 a]
  rfl

end Measures

mutual

/-- The scan measures the depth of a document on its text. -/
theorem measures_document (d : Document) : Measures d.text d.depth := by
  match d with
  | .null => exact .of_not_structural (not_structural_of_any rfl)
  | .bool b => cases b <;> exact .of_not_structural (not_structural_of_any rfl)
  | .number l => exact .of_not_structural (not_structural_of_literal l)
  | .string ps => exact .quoted ps
  | .emptyArray gap => exact (Measures.gap gap).bracketed rfl rfl
  | .array es => exact (measures_elements es).bracketed rfl rfl
  | .emptyObject gap => exact (Measures.gap gap).bracketed rfl rfl
  | .object ms => exact (measures_members ms).bracketed rfl rfl

theorem measures_elements (es : Elements) : Measures es.text es.depth := by
  match es with
  | .last before value after => exact (measures_document value).blanks before after
  | .more before value after rest =>
    exact ((measures_document value).blanks before after).separated (measures_elements rest) rfl

theorem measures_members (ms : Members) : Measures ms.text ms.depth := by
  have hcolon : isStructural ':' = false := rfl
  have hcomma : isStructural ',' = false := rfl
  match ms with
  | .last beforeKey key afterKey before value after =>
    have hvalue := (measures_document value).blanks before after
    simpa using ((Measures.quoted key).blanks beforeKey afterKey).separated hvalue hcolon
  | .more beforeKey key afterKey before value after rest =>
    have hvalue := (measures_document value).blanks before after
    have hmember := ((Measures.quoted key).blanks beforeKey afterKey).separated hvalue hcolon
    simpa using hmember.separated (measures_members rest) hcomma

end

/-- Inside a bracket, the scan is after a value as it was before, unless that is too deep there. -/
theorem accepts_document (k : Nat) (d : Document) (r : Text) (hk : k + 1 ≤ maxDepth) :
    accepts ⟨k + 1, .outside⟩ (d.text ++ r) =
      (decide (k + 1 + d.depth ≤ maxDepth) && accepts ⟨k + 1, .outside⟩ r) :=
  (measures_document d).accepts hk r

/-- The scan ends with a value that is no string, and accepts it if it does not nest too deeply. -/
theorem accepts_start_document {d : Document} (hd : ∀ ps, d ≠ .string ps) (r : Text) :
    start.accepts (d.text ++ r) = decide (d.depth ≤ maxDepth) := by
  cases d with
  | null => exact accepts_start_of_not_structural rfl
  | bool b => cases b <;> exact accepts_start_of_not_structural rfl
  | number l =>
    obtain ⟨c, t, ht⟩ := List.exists_cons_of_ne_nil l.text_ne_nil
    have hc : isStructural c = false :=
      not_structural_of_literal l c (by rw [ht]; exact List.mem_cons_self)
    rw [Document.text, ht]
    exact accepts_start_of_not_structural hc
  | string ps => exact absurd rfl (hd ps)
  | emptyArray gap => exact (Measures.gap gap).accepts_start rfl rfl r
  | array es => exact (measures_elements es).accepts_start rfl rfl r
  | emptyObject gap => exact (Measures.gap gap).accepts_start rfl rfl r
  | object ms => exact (measures_members ms).accepts_start rfl rfl r

end Descent.Json
