import Descent.Proofs.Json.Termination

/-!
# The longest number

A number is read as far as a literal goes. Part after part is read as it comes, and a part of which
only the beginning is there is left behind, so the text does not go on with the literal that was
read (`reads_numeralParts`). That is so of the longest literal at the beginning of the text, since a
text that went on with it would make a longer one, and so the longest is the one that is read
(`numeral_longest`).
-/

namespace Descent.Json

open Descent.Parser
open NumberLiteral (fractionText exponentText)
open Numeral (IsDigits IsCanonical)

variable {s r : Text} {l : NumberLiteral}

/-- The text of a literal: `-?(0|[1-9][0-9]*)(\.[0-9]+)?([eE][+-]?[0-9]+)?`. -/
def IsNumber (m : Text) : Prop := ∃ l : NumberLiteral, l.text = m

/-- The longest number that a text begins with. -/
structure LongestNumber (s m : Text) : Prop where
  begins : m <+: s
  number : IsNumber m
  longest {w : Text} : w <+: s → IsNumber w → w.length ≤ m.length

theorem exists_longestNumber {m : Text} (hbegins : m <+: s) (hm : IsNumber m) :
    ∃ w, LongestNumber s w := by
  by_cases hlonger : ∃ w, w <+: s ∧ IsNumber w ∧ m.length < w.length
  · obtain ⟨w, hw, hnumber, hlt⟩ := hlonger
    have hle : w.length ≤ s.length := hw.length_le
    exact exists_longestNumber hw hnumber
  · refine ⟨m, hbegins, hm, fun {w} hw hnumber => ?_⟩
    by_contra hlt
    exact hlonger ⟨w, hw, hnumber, Nat.lt_of_not_le hlt⟩
termination_by s.length - m.length

/-! ## What would make a literal longer -/

/-- No text of a literal goes on with the longest. -/
theorem LongestNumber.text_ne (h : LongestNumber (l.text ++ r) l.text) {w t : Text}
    (hw : w ≠ []) (hr : r = w ++ t) (longer : NumberLiteral) : longer.text ≠ l.text ++ w := by
  intro htext
  have hbegins : longer.text <+: l.text ++ r := ⟨t, by rw [htext, hr, List.append_assoc]⟩
  have hle : longer.text.length ≤ l.text.length := h.longest hbegins ⟨longer, rfl⟩
  rw [htext, List.length_append] at hle
  have hpos : 0 < w.length := List.length_pos_iff.mpr hw
  omega

theorem isDigits_append {ds : Text} {d : Char} (hds : IsDigits ds) (hd : d.isDigit = true) :
    IsDigits (ds ++ [d]) := by
  refine ⟨by simp, List.forall_mem_append.mpr ⟨hds.2, ?_⟩⟩
  simpa using hd

/-- One more digit goes on with the last part of a literal, if this is not a single zero. -/
theorem exists_text_append_digit (l : NumberLiteral) {d : Char} (hd : d.isDigit = true)
    (hzero : ¬ (l.whole = ['0'] ∧ l.fraction = none ∧ l.exponent = none)) :
    ∃ longer : NumberLiteral, longer.text = l.text ++ [d] := by
  obtain ⟨minus, whole, fraction, exponent, hwhole, hfraction, hexponent⟩ := l
  cases exponent with
  | some e =>
    obtain ⟨mark, sign, ds⟩ := e
    obtain ⟨hmark, hsign, hds⟩ := hexponent _ rfl
    refine ⟨⟨minus, whole, fraction, some (mark, sign, ds ++ [d]), hwhole, hfraction, ?_⟩, ?_⟩
    · rintro _ ⟨⟩
      exact ⟨hmark, hsign, isDigits_append hds hd⟩
    · simp [NumberLiteral.text, exponentText]
  | none =>
    cases fraction with
    | some ds =>
      refine ⟨⟨minus, whole, some (ds ++ [d]), none, hwhole, ?_, hexponent⟩, ?_⟩
      · rintro _ ⟨⟩
        exact isDigits_append (hfraction ds rfl) hd
      · simp [NumberLiteral.text, fractionText, exponentText]
    | none =>
      have hcanonical : IsCanonical (whole ++ [d]) := by
        rcases hwhole with rfl | ⟨hdigits, hhead⟩
        · exact absurd ⟨rfl, rfl, rfl⟩ hzero
        · refine Or.inr ⟨isDigits_append hdigits hd, ?_⟩
          rwa [List.head?_append_of_ne_nil _ hdigits.1]
      refine ⟨⟨minus, whole ++ [d], none, none, hcanonical, hfraction, hexponent⟩, ?_⟩
      simp [NumberLiteral.text, fractionText, exponentText]

theorem LongestNumber.stopsAt (h : LongestNumber (l.text ++ r) l.text) : l.StopsAt r := by
  refine ⟨?_, fun hfraction hexponent => ?_, fun hexponent => ?_⟩
  · by_contra hdigits
    obtain ⟨hr, hzero⟩ := not_or.mp hdigits
    cases r with
    | nil => exact hr Text.avoids_nil
    | cons d t =>
      have hd : d.isDigit = true := by simpa using hr
      obtain ⟨longer, htext⟩ := exists_text_append_digit l hd hzero
      exact h.text_ne (List.cons_ne_nil d []) rfl longer htext
  · rcases ends_iff.mp (ends_fractionDigits r) with ⟨ds, t, hread⟩ | hfails
    · obtain ⟨hr, hds, -⟩ := reads_fractionDigits.mp hread
      let longer : NumberLiteral := { l with
        fraction := some ds
        fraction_ok := by
          rintro _ ⟨⟩
          exact hds }
      refine absurd ?_ (h.text_ne (List.cons_ne_nil '.' ds) hr longer)
      simp [longer, NumberLiteral.text, fractionText, exponentText, hfraction, hexponent]
    · exact hfails
  · rcases ends_iff.mp (ends_exponentDigits r) with ⟨⟨sign, ds⟩, t, hread⟩ | hfails
    · obtain ⟨mark, hmark, hr, hsign, hds, -⟩ := reads_exponentDigits.mp hread
      let longer : NumberLiteral := { l with
        exponent := some (mark, sign, ds)
        exponent_ok := by
          rintro _ ⟨⟩
          exact ⟨hmark, hsign, hds⟩ }
      refine absurd ?_ (h.text_ne (List.cons_ne_nil mark (sign.toList ++ ds)) hr longer)
      simp [longer, NumberLiteral.text, exponentText, hexponent]
    · exact hfails

/-! ## What is read -/

/-- The mark of an exponent as the literal that is converted has it. -/
def lowerMark (c : Char) : Char := if c = 'E' then 'e' else c

theorem map_lowerMark {t : Text} (ht : ∀ c ∈ t, c.isDigit = true) : t.map lowerMark = t := by
  rw [List.map_congr_left (g := id), List.map_id]
  intro c hc
  rw [lowerMark, if_neg]
  · rfl
  · rintro rfl
    cases ht 'E' hc

theorem text_marked (l : NumberLiteral) : l.marked.text = l.text.map lowerMark := by
  obtain ⟨minus, whole, fraction, exponent, hwhole, hfraction, hexponent⟩ := l
  have hminus : (if minus then ['-'] else []).map lowerMark = if minus then ['-'] else [] := by
    cases minus <;> rfl
  have hfractionText : (fractionText fraction).map lowerMark = fractionText fraction := by
    cases fraction with
    | none => rfl
    | some ds => exact congrArg ('.' :: ·) (map_lowerMark (hfraction ds rfl).2)
  have hexponentText : (exponentText exponent).map lowerMark =
      exponentText (exponent.map fun e => ('e', e.2)) := by
    cases exponent with
    | none => rfl
    | some e =>
      obtain ⟨mark, sign, ds⟩ := e
      obtain ⟨hmark, hsign, hds⟩ := hexponent _ rfl
      have hmarkText : lowerMark mark = 'e' := by rcases hmark with rfl | rfl <;> rfl
      have hsignText : sign.toList.map lowerMark = sign.toList := by
        cases sign with
        | none => rfl
        | some c => rcases hsign c rfl with rfl | rfl <;> rfl
      show lowerMark mark :: (sign.toList ++ ds).map lowerMark = 'e' :: (sign.toList ++ ds)
      rw [hmarkText, List.map_append, hsignText, map_lowerMark hds.2]
  show (if minus then ['-'] else []) ++ whole ++ fractionText fraction ++
      exponentText (exponent.map fun e => ('e', e.2)) =
    ((if minus then ['-'] else []) ++ whole ++ fractionText fraction ++
      exponentText exponent).map lowerMark
  rw [List.map_append, List.map_append, List.map_append, hminus,
    map_lowerMark hwhole.isDigits.2, hfractionText, hexponentText]

theorem convertNumber_marked (l : NumberLiteral) :
    ∃ x, Binary64.ofLiteral? l.text = some x ∧ Binary64.ofLiteral? l.marked.text = some x ∧
      convertNumber l.marked.text =
        if x.isFinite then .ok x else .error "Number out of range" := by
  have hmarked : Binary64.ofLiteral? l.marked.text = some (.ofDecimal l.decimal) := by
    rw [ofLiteral?_text, decimal_marked]
  exact ⟨_, ofLiteral?_text l, hmarked, by rw [convertNumber, hmarked]⟩

theorem fails_numeral_of_not_isNumber (h : ∀ m, m <+: s → ¬ IsNumber m) : numeral.Fails s := by
  rw [numeral_eq, fails_convert]
  rcases ends_iff.mp (ends_numeralParts s) with ⟨parts, r, hread⟩ | hfails
  · obtain ⟨l, rfl, -, -⟩ := reads_numeralParts.mp hread
    exact absurd ⟨l, rfl⟩ (h l.text (List.prefix_append _ _))
  · exact Or.inl hfails

/-- The parts of the longest number are read, and they are put together as they were written, but
for the mark of the exponent. -/
theorem LongestNumber.reads_parts {m : Text} (h : LongestNumber s m) :
    ∃ (l : NumberLiteral) (r : Text), m = l.text ∧ s = m ++ r ∧ numeralParts.Reads s l.parts r ∧
      literalOf l.parts = m.map lowerMark := by
  obtain ⟨l, rfl⟩ := h.number
  obtain ⟨r, rfl⟩ := h.begins
  refine ⟨l, r, rfl, rfl, reads_numeralParts.mpr ⟨l, rfl, rfl, h.stopsAt⟩, ?_⟩
  rw [literalOf_parts, text_marked]

theorem message_outOfRange (s : Text) :
    Failure.message (Cause.unconvertible "Number out of range" s) =
      "Number out of range. Invalid input: " ++ s.snippet := by
  have hwords : "Number out of range" ++ ". Invalid input: " =
      "Number out of range. Invalid input: " := by decide
  rw [← hwords]
  rfl

/-- Of a text, the longest number at its beginning is read, if there is one. Its parts are put
together as they were, but for the mark of the exponent, and converted; the number is refused if it
is not finite. -/
theorem numeral_longest (s : Text) :
    (numeral = numeralParts.convert fun parts => convertNumber (literalOf parts)) ∧
    ((∀ m, m <+: s → ¬ IsNumber m) → ∃ f, (numeral s).outcome = .failure f) ∧
    ((∃ m, m <+: s ∧ IsNumber m) → ∃ m, LongestNumber s m) ∧
    ∀ m, LongestNumber s m → ∃ (parts : NumberParts) (x : Binary64) (r : Text), s = m ++ r ∧
      numeralParts.Reads s parts r ∧ literalOf parts = m.map lowerMark ∧
      Binary64.ofLiteral? m = some x ∧ Binary64.ofLiteral? (m.map lowerMark) = some x ∧
      (x.isFinite = true → (numeral s).outcome = .success x r) ∧
      (x.isFinite = false → ∃ f, (numeral s).outcome = .failure f ∧
        f.message = "Number out of range. Invalid input: " ++ s.snippet) := by
  refine ⟨numeral_eq, fails_numeral_of_not_isNumber, ?_, fun m hm => ?_⟩
  · rintro ⟨m, hbegins, hnumber⟩
    exact exists_longestNumber hbegins hnumber
  · obtain ⟨l, r, rfl, hs, hread, hliteral⟩ := hm.reads_parts
    obtain ⟨x, hx, hmarked, hconvert⟩ := convertNumber_marked l
    rw [← literalOf_parts, hliteral] at hmarked
    rw [← literalOf_parts] at hconvert
    refine ⟨l.parts, x, r, hs, hread, hliteral, hx, hmarked, fun hfinite => ?_, fun hinfinite => ?_⟩
    · apply reads_convert.mpr
      rw [if_pos hfinite] at hconvert
      exact ⟨l.parts, hread, hconvert⟩
    · rw [hinfinite, if_neg Bool.false_ne_true] at hconvert
      exact ⟨_, hread.outcome_convert hconvert, message_outOfRange s⟩

/-- An exponent without digits is left behind, a number that is too great is refused, and other text
has no number at its beginning. -/
theorem numeral_longest_cut :
    let s := ['-', '1', '.', '5', 'E', '2', 'e', '+']
    let great := ['1', 'e', '9', '9', '9']
    (∃ m, m <+: s ∧ IsNumber m) ∧ LongestNumber s ['-', '1', '.', '5', 'E', '2'] ∧
      (∃ x, Binary64.ofLiteral? ['-', '1', '5', '0'] = some x ∧
        (numeral s).outcome = .success x ['e', '+']) ∧
      (∃ m, LongestNumber great m) ∧
      (∃ f, (numeral great).outcome = .failure f ∧
        f.message = "Number out of range. Invalid input: 1e999") ∧
      (∀ m, m <+: ['x'] → ¬ IsNumber m) ∧ ∃ f, (numeral ['x']).outcome = .failure f := by
  intro s great
  have hliteral : ∃ m, m <+: s ∧ IsNumber m := by
    let l : NumberLiteral := ⟨true, ['1'], none, none, by simp [IsCanonical, IsDigits], by simp,
      by simp⟩
    exact ⟨l.text, ⟨['.', '5', 'E', '2', 'e', '+'], rfl⟩, l, rfl⟩
  have hgreat : ∃ m, m <+: great ∧ IsNumber m := by
    let l : NumberLiteral := ⟨false, ['1'], none, none, by simp [IsCanonical, IsDigits], by simp,
      by simp⟩
    exact ⟨l.text, ⟨['e', '9', '9', '9'], rfl⟩, l, rfl⟩
  have hnone : ∀ m, m <+: ['x'] → ¬ IsNumber m := by
    rintro _ ⟨t, ht⟩ ⟨l, rfl⟩
    obtain ⟨c, w, hc⟩ := List.exists_cons_of_ne_nil l.text_ne_nil
    rw [hc] at ht
    obtain ⟨rfl, -⟩ := List.cons.inj ht
    have hmem : 'x' ∈ l.text := by simp [hc]
    exact absurd (NumberLiteral.of_mem_text hmem) (by decide)
  -- What the run on the text leaves tells which number is the longest.
  obtain ⟨-, -, hexists, hlongest⟩ := numeral_longest s
  obtain ⟨m, hm⟩ := hexists hliteral
  obtain ⟨-, x, r, hs, -, -, -, -, hread, hrefused⟩ := hlongest m hm
  obtain ⟨y, hy, houtcome⟩ : ∃ y, Binary64.ofLiteral? ['-', '1', '5', '0'] = some y ∧
      (numeral s).outcome = .success y ['e', '+'] := ⟨_, rfl, rfl⟩
  have hsplit : m = ['-', '1', '.', '5', 'E', '2'] := by
    cases hfinite : x.isFinite with
    | true =>
      have heq := houtcome.symm.trans (hread hfinite)
      obtain ⟨rfl, rfl⟩ := Outcome.success.inj heq
      exact List.append_cancel_right hs.symm
    | false =>
      obtain ⟨f, hf, -⟩ := hrefused hfinite
      cases houtcome.symm.trans hf
  obtain ⟨-, -, hexists', hlongest'⟩ := numeral_longest great
  obtain ⟨w, hw⟩ := hexists' hgreat
  obtain ⟨-, z, t, -, -, -, -, -, hread', hrefused'⟩ := hlongest' w hw
  have hfails : ∃ f, (numeral great).outcome = .failure f ∧
      f.message = "Number out of range. Invalid input: 1e999" := by
    cases hfinite : z.isFinite with
    | true => cases hread' hfinite
    | false =>
      obtain ⟨f, hf, hmessage⟩ := hrefused' hfinite
      exact ⟨f, hf, hmessage⟩
  exact ⟨hliteral, hsplit ▸ hm, ⟨y, hy, houtcome⟩, ⟨w, hw⟩, hfails, hnone,
    (numeral_longest ['x']).2.1 hnone⟩

end Descent.Json
