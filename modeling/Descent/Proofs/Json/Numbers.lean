import Descent.Json.Grammar
import Descent.Proofs.Json.Document
import Descent.Proofs.Lexeme

/-!
# Number literals

The parser of numbers takes a literal apart into sign, digits, fraction and exponent and puts it
together again to convert it, with an `e` for the mark of the exponent. The parts that it reads are
those of a literal of the grammar that the text does not go on with (`reads_numeralParts`), so what
it reads is a literal (`numeral_sound`), and it reads the whole of one that nothing after it
continues (`numeral_complete`). The mark makes no difference, since a literal is a decimal number by
its other parts alone (`ofLiteral?_text`).
-/

namespace Descent.Json

open Descent.Parser
open Lexeme (reads_digits)
open Numeral (IsDigits IsCanonical)
open Text (takeWhile_append_of_avoids dropWhile_append_of_avoids)

/-! ## Parts of a literal -/

theorem reads_wholeDigits {s r ds : Text} :
    wholeDigits.Reads s ds r ↔ s = ds ++ r ∧
      (ds = ['0'] ∨ (IsDigits ds ∧ ds.head? ≠ some '0') ∧ r.Avoids Char.isDigit) := by
  have hdigit : isNonzeroDigit = fun c => '1' ≤ c && c ≤ '9' := rfl
  rw [wholeDigits, hdigit, reads_orElse, fails_map, reads_map, reads_map]
  simp only [reads_literal, Prod.exists, Lexeme.reads_positive]
  constructor
  · intro h
    rcases h with ⟨_, ⟨rfl, rfl⟩, rfl⟩ | ⟨-, c, ds, ⟨rfl, hds, hr⟩, rfl⟩
    · exact ⟨rfl, Or.inl rfl⟩
    · exact ⟨rfl, Or.inr ⟨hds, hr⟩⟩
  · intro h
    obtain ⟨rfl, rfl | ⟨hds, hr⟩⟩ := h
    · exact Or.inl ⟨"0", ⟨rfl, rfl⟩, rfl⟩
    · cases ds with
      | nil => exact absurd rfl hds.1.1
      | cons c ds =>
        have hzero : c ≠ '0' := fun hc => hds.2 (by rw [List.head?_cons, hc])
        exact Or.inr ⟨Lexeme.fails_zero hzero, c, ds, ⟨rfl, hds, hr⟩, rfl⟩

theorem reads_fractionDigits {s r ds : Text} :
    fractionDigits.Reads s ds r ↔
      s = '.' :: (ds ++ r) ∧ IsDigits ds ∧ r.Avoids Char.isDigit := by
  rw [fractionDigits, reads_skipThen]
  simp only [reads_char, reads_digits]
  constructor
  · intro h
    obtain ⟨_, _, ⟨rfl, rfl⟩, rfl, hds, hr⟩ := h
    exact ⟨rfl, hds, hr⟩
  · intro h
    obtain ⟨rfl, hds, hr⟩ := h
    exact ⟨_, _, ⟨rfl, rfl⟩, rfl, hds, hr⟩

theorem fails_fractionDigits {s : Text} (h : s.Avoids (· == '.')) : fractionDigits.Fails s := by
  rw [fractionDigits, fails_skipThen]
  exact Or.inl (fails_char.mpr h)

/-- Whether a character marks an exponent. -/
def isExponentMark (c : Char) : Bool := c == 'e' || c == 'E'

theorem isExponentMark_iff {c : Char} : isExponentMark c = true ↔ c = 'e' ∨ c = 'E' := by
  simp [isExponentMark]

theorem reads_exponentDigits {s r ds : Text} {sign : Option Char} :
    exponentDigits.Reads s (sign, ds) r ↔
      ∃ mark, (mark = 'e' ∨ mark = 'E') ∧ s = mark :: (sign.toList ++ ds ++ r) ∧
        (∀ c ∈ sign, c = '+' ∨ c = '-') ∧ IsDigits ds ∧ r.Avoids Char.isDigit := by
  rw [exponentDigits, reads_both]
  simp only [reads_skipThen, reads_satisfy, reads_optional, reads_digits, reads_choice_cons,
    reads_char, fails_char, not_reads_choice_nil, and_false, or_false, fails_choice_cons]
  constructor
  · intro h
    obtain ⟨_, ⟨mark, _, ⟨rfl, hmark⟩, hsign⟩, rfl, hds, hr⟩ := h
    refine ⟨mark, isExponentMark_iff.mp hmark, ?_⟩
    rcases hsign with ⟨_, rfl, ⟨rfl, rfl⟩ | ⟨-, rfl, rfl⟩⟩ | ⟨rfl, rfl, -⟩
    · exact ⟨rfl, by simp, hds, hr⟩
    · exact ⟨rfl, by simp, hds, hr⟩
    · exact ⟨rfl, by simp, hds, hr⟩
  · intro h
    obtain ⟨mark, hmark, rfl, hsign, hds, hr⟩ := h
    refine ⟨ds ++ r, ⟨mark, _, ⟨rfl, isExponentMark_iff.mpr hmark⟩, ?_⟩, rfl, hds, hr⟩
    cases sign with
    | none =>
      exact Or.inr ⟨rfl, rfl, hds.avoids_char rfl, hds.avoids_char rfl, fails_choice_nil⟩
    | some c =>
      refine Or.inl ⟨c, rfl, ?_⟩
      rcases hsign c rfl with rfl | rfl
      · exact Or.inl ⟨rfl, rfl⟩
      · exact Or.inr ⟨by simp, rfl, rfl⟩

theorem fails_exponentDigits {s : Text} (h : s.Avoids isExponentMark) : exponentDigits.Fails s := by
  rw [exponentDigits, fails_both, fails_skipThen]
  exact Or.inl (Or.inl (fails_satisfy.mpr h))

/-! ## What a literal denotes -/

namespace NumberLiteral

/-- The exponent that is written in a literal. -/
def exponentValue : Option (Char × Option Char × Text) → Int
  | none => 0
  | some (_, sign, digits) =>
    if sign = some '-' then -(Numeral.nat digits : Int) else Numeral.nat digits

/-- The digits after the point of a literal. -/
def places (l : NumberLiteral) : Text := l.fraction.getD []

/-- The decimal number that a literal denotes. -/
def decimal (l : NumberLiteral) : Binary64.Decimal :=
  ⟨l.minus, Numeral.nat (l.whole ++ l.places), exponentValue l.exponent - l.places.length⟩

theorem isDigits_whole (l : NumberLiteral) : IsDigits l.whole := l.whole_ok.isDigits

/-- The mark of an exponent comes before the digits and points of what follows. -/
theorem avoids_exponentText_append (l : NumberLiteral) {p : Char → Bool} (he : p 'e' = false)
    (hE : p 'E' = false) {r : Text} (hr : l.exponent = none → r.Avoids p) :
    Text.Avoids (exponentText l.exponent ++ r) p := by
  rcases h : l.exponent with _ | ⟨mark, sign, ds⟩
  · exact hr h
  · rw [exponentText, List.cons_append, Text.avoids_cons]
    rcases (l.exponent_ok _ h).1 with rfl | rfl
    · exact he
    · exact hE

theorem avoids_exponentText (l : NumberLiteral) {p : Char → Bool} (he : p 'e' = false)
    (hE : p 'E' = false) : Text.Avoids (exponentText l.exponent) p := by
  have h := l.avoids_exponentText_append he hE (r := []) fun _ => Text.avoids_nil
  rwa [List.append_nil] at h

theorem text_ne_nil (l : NumberLiteral) : l.text ≠ [] := by
  rw [text]
  simp [l.isDigits_whole.1]

/-- The characters of a literal. -/
theorem of_mem_text {l : NumberLiteral} {c : Char} (h : c ∈ l.text) :
    c.isDigit = true ∨ c = '-' ∨ c = '+' ∨ c = '.' ∨ c = 'e' ∨ c = 'E' := by
  have hfraction : c ∈ fractionText l.fraction → c.isDigit = true ∨ c = '.' := by
    rcases hf : l.fraction with _ | ds
    · simp [fractionText]
    · rw [fractionText, List.mem_cons]
      exact fun hc => hc.symm.imp_left ((l.fraction_ok ds hf).2 c)
  have hexponent : c ∈ exponentText l.exponent →
      c.isDigit = true ∨ c = '-' ∨ c = '+' ∨ c = 'e' ∨ c = 'E' := by
    rcases he : l.exponent with _ | ⟨mark, sign, ds⟩
    · simp [exponentText]
    · obtain ⟨hmark, hsign, hds⟩ := l.exponent_ok _ he
      rw [exponentText, List.mem_cons, List.mem_append, Option.mem_toList]
      intro h
      rcases h with rfl | hc | hc
      · grind
      · have := hsign c hc
        grind
      · exact Or.inl (hds.2 c hc)
  rw [text, List.mem_append, List.mem_append, List.mem_append] at h
  rcases h with ((h | h) | h) | h
  · split at h
    · exact Or.inr (Or.inl (List.mem_singleton.mp h))
    · cases h
  · exact Or.inl (l.isDigits_whole.2 c h)
  · have := hfraction h
    grind
  · have := hexponent h
    grind

end NumberLiteral

open NumberLiteral

theorem readDigits?_eq {ds : Text} (h : IsDigits ds) :
    Binary64.readExponent?.readDigits? ds = some (Numeral.nat ds) := by
  have hall : ds.all Char.isDigit = true := List.all_eq_true.mpr h.2
  have hne : ds.isEmpty = false := by simpa using h.1
  simp [Binary64.readExponent?.readDigits?, hall, hne]

theorem readExponent?_exponentText (l : NumberLiteral) :
    Binary64.readExponent? (exponentText l.exponent) = some (exponentValue l.exponent) := by
  rcases h : l.exponent with _ | ⟨mark, sign, ds⟩
  · rfl
  · obtain ⟨hmark, hsign, hds⟩ := l.exponent_ok _ h
    change IsDigits ds at hds
    have hm : (mark == 'e' || mark == 'E') = true := isExponentMark_iff.mpr hmark
    simp only [exponentText, Binary64.readExponent?, if_pos hm]
    cases sign with
    | some c =>
      rcases hsign c rfl with rfl | rfl
      · simp [readDigits?_eq hds, exponentValue]
      · simp [readDigits?_eq hds, exponentValue]
    | none =>
      rw [Option.toList_none, List.nil_append]
      -- Without a sign, the digits come first, and they are no signs.
      split
      · exact absurd (hds.2 '-' List.mem_cons_self) (by decide)
      · exact absurd (hds.2 '+' List.mem_cons_self) (by decide)
      · simp [readDigits?_eq hds, exponentValue]

theorem readUnsigned?_text (l : NumberLiteral) (negative : Bool) :
    Binary64.readUnsigned? negative
        (l.whole ++ (fractionText l.fraction ++ exponentText l.exponent)) =
      some ⟨negative, Numeral.nat (l.whole ++ l.places),
        exponentValue l.exponent - l.places.length⟩ := by
  have hwhole : l.whole.isEmpty = false := by simpa using l.isDigits_whole.1
  have hexponent : Text.Avoids (exponentText l.exponent) Char.isDigit :=
    l.avoids_exponentText rfl rfl
  cases h : l.fraction with
  | none =>
    simp only [Binary64.readUnsigned?, fractionText, List.nil_append, places, h, Option.getD_none,
      takeWhile_append_of_avoids l.isDigits_whole.2 hexponent,
      dropWhile_append_of_avoids l.isDigits_whole.2 hexponent]
    split
    · -- No point follows, since the exponent begins with its mark.
      next t hpoint =>
      have hdot := l.avoids_exponentText (p := (· == '.')) rfl rfl
      rw [hpoint] at hdot
      exact absurd (Text.avoids_cons.mp hdot) (by simp)
    · simp [hwhole, readExponent?_exponentText]
  | some ds =>
    have hds : ∀ c ∈ ds, c.isDigit = true := (l.fraction_ok ds h).2
    have hpoint : Text.Avoids ('.' :: (ds ++ exponentText l.exponent)) Char.isDigit :=
      Text.avoids_cons.mpr rfl
    simp only [Binary64.readUnsigned?, fractionText, List.cons_append, places, h, Option.getD_some,
      takeWhile_append_of_avoids l.isDigits_whole.2 hpoint,
      dropWhile_append_of_avoids l.isDigits_whole.2 hpoint,
      takeWhile_append_of_avoids hds hexponent, dropWhile_append_of_avoids hds hexponent, hwhole,
      Bool.false_and, readExponent?_exponentText]
    rfl

/-- A literal is read to its end as the decimal number that it denotes. -/
theorem decimalOfLiteral?_text (l : NumberLiteral) :
    Binary64.Decimal.ofLiteral? l.text = some l.decimal := by
  rw [text, decimal, List.append_assoc, List.append_assoc]
  cases l.minus with
  | true => exact readUnsigned?_text l true
  | false =>
    rw [if_neg Bool.false_ne_true, List.nil_append, ← readUnsigned?_text l false,
      Binary64.Decimal.ofLiteral?.eq_def]
    split
    · next hminus =>
      have h := l.isDigits_whole.avoids_char (c := '-') rfl
        (r := fractionText l.fraction ++ exponentText l.exponent)
      rw [hminus] at h
      exact absurd (Text.avoids_cons.mp h) (by simp)
    · next hplus =>
      have h := l.isDigits_whole.avoids_char (c := '+') rfl
        (r := fractionText l.fraction ++ exponentText l.exponent)
      rw [hplus] at h
      exact absurd (Text.avoids_cons.mp h) (by simp)
    · rfl

/-- The double nearest to the decimal number that a literal denotes. -/
theorem ofLiteral?_text (l : NumberLiteral) :
    Binary64.ofLiteral? l.text = some (Binary64.ofDecimal l.decimal) := by
  rw [Binary64.ofLiteral?, decimalOfLiteral?_text]
  rfl

/-! ## Literals taken apart -/

/-- The literal with an `e` for the mark of its exponent. -/
def NumberLiteral.marked (l : NumberLiteral) : NumberLiteral where
  minus := l.minus
  whole := l.whole
  fraction := l.fraction
  exponent := l.exponent.map fun e => ('e', e.2)
  whole_ok := l.whole_ok
  fraction_ok := l.fraction_ok
  exponent_ok := by
    intro e he
    obtain ⟨e', he', rfl⟩ := Option.map_eq_some_iff.mp he
    exact ⟨Or.inl rfl, (l.exponent_ok e' he').2⟩

/-- The sign of a literal as the parser has it. -/
def NumberLiteral.sign (l : NumberLiteral) : Option Char := if l.minus then some '-' else none

theorem numeralText_eq (l : NumberLiteral) :
    numeralText l.sign l.whole l.fraction (l.exponent.map Prod.snd) = l.marked.text := by
  rcases l with ⟨_ | _, whole, _ | _, _ | _, _, _, _⟩ <;> rfl

/-- A literal denotes the same number whatever the mark of its exponent is. -/
theorem decimal_marked (l : NumberLiteral) : l.marked.decimal = l.decimal := by
  rcases l with ⟨_, _, _, _ | _, _, _, _⟩ <;> rfl

theorem convertNumber_eq_ok_iff {l : NumberLiteral} {x : Binary64} :
    convertNumber (numeralText l.sign l.whole l.fraction (l.exponent.map Prod.snd)) = .ok x ↔
      Binary64.ofLiteral? l.text = some x ∧ x.isFinite = true := by
  rw [numeralText_eq, convertNumber, ofLiteral?_text, ofLiteral?_text, decimal_marked]
  simp only [Option.some.injEq]
  split
  · next h =>
    rw [Except.ok.injEq]
    constructor
    · rintro rfl
      exact ⟨rfl, h⟩
    · exact And.left
  · next h =>
    simp only [reduceCtorEq, false_iff]
    rintro ⟨rfl, hx⟩
    exact h hx

theorem reads_minus {s r : Text} {o : Option Char} :
    (char '-').optional.Reads s o r ↔
      (o = some '-' ∧ s = '-' :: r) ∨ o = none ∧ s = r ∧ r.Avoids (· == '-') := by
  rw [reads_optional]
  simp only [reads_char, fails_char]
  constructor
  · intro h
    rcases h with ⟨_, rfl, rfl, rfl⟩ | ⟨rfl, rfl, h⟩
    · exact Or.inl ⟨rfl, rfl⟩
    · exact Or.inr ⟨rfl, rfl, h⟩
  · intro h
    rcases h with ⟨rfl, rfl⟩ | ⟨rfl, rfl, h⟩
    · exact Or.inl ⟨_, rfl, rfl, rfl⟩
    · exact Or.inr ⟨rfl, rfl, h⟩

theorem reads_optional_fractionDigits {s r : Text} {o : Option Text} :
    fractionDigits.optional.Reads s o r ↔ s = fractionText o ++ r ∧
      (∀ ds ∈ o, IsDigits ds ∧ r.Avoids Char.isDigit) ∧ (o = none → fractionDigits.Fails r) := by
  rw [reads_optional]
  cases o with
  | none =>
    constructor
    · rintro (⟨_, ⟨⟩, -⟩ | ⟨-, rfl, hfails⟩)
      exact ⟨rfl, by simp, fun _ => hfails⟩
    · rintro ⟨rfl, -, hfails⟩
      exact Or.inr ⟨rfl, rfl, hfails rfl⟩
  | some ds => simp [fractionText, reads_fractionDigits]

theorem reads_optional_exponentDigits {s r : Text} {o : Option (Option Char × Text)} :
    exponentDigits.optional.Reads s o r ↔
      ∃ exponent, o = exponent.map Prod.snd ∧ s = exponentText exponent ++ r ∧
        (∀ e ∈ exponent, ((e.1 = 'e' ∨ e.1 = 'E') ∧ (∀ sign ∈ e.2.1, sign = '+' ∨ sign = '-') ∧
          IsDigits e.2.2) ∧ r.Avoids Char.isDigit) ∧
        (exponent = none → exponentDigits.Fails r) := by
  rw [reads_optional]
  constructor
  · intro h
    rcases h with ⟨⟨sign, ds⟩, rfl, hsome⟩ | ⟨rfl, rfl, hfails⟩
    · obtain ⟨mark, hmark, rfl, hsign, hds, hr⟩ := reads_exponentDigits.mp hsome
      refine ⟨some (mark, sign, ds), rfl, by simp [exponentText], ?_, by simp⟩
      rintro _ ⟨⟩
      exact ⟨⟨hmark, hsign, hds⟩, hr⟩
    · exact ⟨none, rfl, rfl, by simp, fun _ => hfails⟩
  · rintro ⟨exponent, rfl, rfl, hparts, hfails⟩
    cases exponent with
    | none => exact Or.inr ⟨rfl, rfl, hfails rfl⟩
    | some e =>
      obtain ⟨⟨hmark, hsign, hds⟩, hr⟩ := hparts e rfl
      refine Or.inl ⟨e.2, rfl, reads_exponentDigits.mpr ⟨e.1, hmark, ?_, hsign, hds, hr⟩⟩
      rw [exponentText, List.cons_append]

/-! ## The parser -/

/-- A sign, the digits of a whole number, those of a fraction, and the sign and the digits of an
exponent. -/
abbrev NumberParts : Type := ((Option Char × Text) × Option Text) × Option (Option Char × Text)

/-- The parts of a number, before they are put together. -/
def numeralParts : Parser NumberParts :=
  (((char '-').optional.both wholeDigits).both fractionDigits.optional).both
    exponentDigits.optional

/-- The literal that is put together from parts. -/
def literalOf (parts : NumberParts) : Text :=
  numeralText parts.1.1.1 parts.1.1.2 parts.1.2 parts.2

theorem numeral_eq : numeral = numeralParts.convert fun parts => convertNumber (literalOf parts) :=
  rfl

/-- The parts of a literal as the parser has them. -/
def NumberLiteral.parts (l : NumberLiteral) : NumberParts :=
  (((l.sign, l.whole), l.fraction), l.exponent.map Prod.snd)

theorem literalOf_parts (l : NumberLiteral) : literalOf l.parts = l.marked.text := numeralText_eq l

/-- A text does not go on with a literal that it follows: digits follow no part but a single zero,
and no part follows that is missing and may still come. -/
structure NumberLiteral.StopsAt (l : NumberLiteral) (r : Text) : Prop where
  digits : r.Avoids Char.isDigit ∨ l.whole = ['0'] ∧ l.fraction = none ∧ l.exponent = none
  fraction : l.fraction = none → l.exponent = none → fractionDigits.Fails r
  exponent : l.exponent = none → exponentDigits.Fails r

namespace NumberLiteral

namespace StopsAt

variable {l : NumberLiteral} {r : Text}

theorem avoids_isDigit (h : l.StopsAt r) (hpart : l.fraction ≠ none ∨ l.exponent ≠ none) :
    r.Avoids Char.isDigit := by
  rcases h.digits with hr | ⟨-, hfraction, hexponent⟩
  · exact hr
  · rcases hpart with hne | hne
    · exact absurd hfraction hne
    · exact absurd hexponent hne

/-- The digits of the whole number end at the point, at the mark or at the end of the literal. -/
theorem wholeDigits (h : l.StopsAt r) :
    l.whole = ['0'] ∨ (IsDigits l.whole ∧ l.whole.head? ≠ some '0') ∧
      Text.Avoids (fractionText l.fraction ++ (exponentText l.exponent ++ r)) Char.isDigit := by
  rcases l.whole_ok with hzero | hwhole
  · exact Or.inl hzero
  · refine Or.inr ⟨hwhole, ?_⟩
    cases hfraction : l.fraction with
    | some ds => exact Text.avoids_cons.mpr rfl
    | none =>
      refine l.avoids_exponentText_append rfl rfl fun _ => ?_
      rcases h.digits with hr | ⟨hzero, -, -⟩
      · exact hr
      · rw [hzero] at hwhole
        exact absurd rfl hwhole.2

/-- Without a fraction, neither the mark nor what follows the literal begins one. -/
theorem fails_fractionDigits (h : l.StopsAt r) (hfraction : l.fraction = none) :
    fractionDigits.Fails (exponentText l.exponent ++ r) := by
  cases hexponent : l.exponent with
  | none => exact h.fraction hfraction hexponent
  | some e =>
    rw [← hexponent]
    apply Json.fails_fractionDigits
    apply l.avoids_exponentText_append rfl rfl
    intro habsent
    rw [hexponent] at habsent
    cases habsent

end StopsAt

theorem reads_sign (l : NumberLiteral) (r : Text) :
    (char '-').optional.Reads (l.text ++ r) l.sign
      (l.whole ++ (fractionText l.fraction ++ (exponentText l.exponent ++ r))) := by
  rw [reads_minus, sign, text]
  cases l.minus with
  | true => exact Or.inl ⟨rfl, by simp⟩
  | false => exact Or.inr ⟨rfl, by simp, l.isDigits_whole.avoids_char rfl⟩

end NumberLiteral

/-- The parts that are read are those of a literal that the text does not go on with. -/
theorem reads_numeralParts {s r : Text} {parts : NumberParts} :
    numeralParts.Reads s parts r ↔
      ∃ l : NumberLiteral, s = l.text ++ r ∧ parts = l.parts ∧ l.StopsAt r := by
  obtain ⟨⟨⟨sign, whole⟩, fraction⟩, exponent⟩ := parts
  simp only [numeralParts, reads_both, reads_optional_fractionDigits,
    reads_optional_exponentDigits, reads_wholeDigits]
  constructor
  · intro h
    obtain ⟨t, ⟨u, ⟨v, hsign, rfl, hwhole⟩, rfl, hfraction, hpoint⟩, exponent, rfl, rfl, hexponent,
      hmark⟩ := h
    let l : NumberLiteral := ⟨sign.isSome, whole, fraction, exponent, hwhole.imp_right And.left,
      fun ds hds => (hfraction ds hds).1, fun e he => (hexponent e he).1⟩
    have hstops : l.StopsAt r := by
      refine ⟨?_, ?_, hmark⟩
      · -- The last part with digits is the one that they may follow.
        cases exponent with
        | some e => exact Or.inl (hexponent e rfl).2
        | none =>
          cases fraction with
          | some ds => exact Or.inl (hfraction ds rfl).2
          | none => exact hwhole.symm.imp And.right fun hzero => ⟨hzero, rfl, rfl⟩
      · intro hf he
        obtain rfl : fraction = none := hf
        obtain rfl : exponent = none := he
        exact hpoint rfl
    rcases reads_minus.mp hsign with ⟨rfl, rfl⟩ | ⟨rfl, rfl, -⟩
    · exact ⟨l, by simp [l, NumberLiteral.text], rfl, hstops⟩
    · exact ⟨l, by simp [l, NumberLiteral.text], rfl, hstops⟩
  · rintro ⟨l, rfl, hparts, hstops⟩
    simp only [NumberLiteral.parts, Prod.mk.injEq] at hparts
    obtain ⟨⟨⟨rfl, rfl⟩, rfl⟩, rfl⟩ := hparts
    refine ⟨_, ⟨_, ⟨_, l.reads_sign r, rfl, hstops.wholeDigits⟩, rfl, fun ds hds => ?_,
      hstops.fails_fractionDigits⟩, l.exponent, rfl, rfl, fun e he => ?_, hstops.exponent⟩
    · refine ⟨l.fraction_ok ds hds, l.avoids_exponentText_append rfl rfl fun _ => ?_⟩
      exact hstops.avoids_isDigit (Or.inl (Option.ne_none_iff_exists'.mpr ⟨ds, hds⟩))
    · refine ⟨l.exponent_ok e he, hstops.avoids_isDigit (Or.inr ?_)⟩
      exact Option.ne_none_iff_exists'.mpr ⟨e, he⟩

/-- What is read as a number is a literal, and the number the one that it denotes. -/
theorem numeral_sound {s r : Text} {x : Binary64} (h : numeral.Reads s x r) :
    ∃ l : NumberLiteral, s = l.text ++ r ∧ Binary64.ofLiteral? l.text = some x ∧
      x.isFinite = true := by
  rw [numeral_eq, reads_convert] at h
  obtain ⟨parts, hparts, hx⟩ := h
  obtain ⟨l, rfl, rfl, -⟩ := reads_numeralParts.mp hparts
  exact ⟨l, rfl, convertNumber_eq_ok_iff.mp hx⟩

/-- Whether a character goes on with a number that it follows. -/
def continuesNumber (c : Char) : Bool := c.isDigit || c == '.' || c == 'e' || c == 'E'

theorem NumberLiteral.stopsAt_of_avoids (l : NumberLiteral) {r : Text}
    (hr : r.Avoids continuesNumber) : l.StopsAt r where
  digits := Or.inl (hr.mono fun c hc => by simp [continuesNumber, hc])
  fraction _ _ := fails_fractionDigits (hr.mono fun c hc => by simp_all [continuesNumber])
  exponent _ := fails_exponentDigits (hr.mono fun c hc => by
    rcases isExponentMark_iff.mp hc with rfl | rfl <;> rfl)

/-- A literal is read to its end when nothing that follows goes on with it. -/
theorem numeral_complete {l : NumberLiteral} {x : Binary64} {r : Text}
    (hx : Binary64.ofLiteral? l.text = some x) (hfinite : x.isFinite = true)
    (hr : r.Avoids continuesNumber) : numeral.Reads (l.text ++ r) x r := by
  rw [numeral_eq, reads_convert]
  exact ⟨l.parts, reads_numeralParts.mpr ⟨l, rfl, rfl, l.stopsAt_of_avoids hr⟩,
    convertNumber_eq_ok_iff.mpr ⟨hx, hfinite⟩⟩

end Descent.Json
