import Descent.Json.Grammar
import Descent.Proofs.Json.Document
import Descent.Proofs.Parser.Repetition

/-!
# String literals

The parser of string literals reads exactly the strings of the grammar that denote one, and what it
reads is what they denote (`reads_stringLiteral`). It takes one character at a time and looks past
the escape of a code unit for a second one, while a string denotes by its code units alone; the two
agree since no character has a low surrogate as its first code unit.
-/

namespace Descent

/-! ## UTF-16 -/

namespace Utf16

/-- Whether a code unit is the second of a surrogate pair. -/
def IsLow (u : Nat) : Prop := 0xDC00 ≤ u ∧ u < 0xE000

theorem ofChar_ne_nil (c : Char) : ofChar c ≠ [] := by
  rw [ofChar]
  split <;> simp

/-- A character of one code unit is not a surrogate. -/
theorem ofChar_eq_singleton_iff {c : Char} {u : Nat} :
    ofChar c = [u] ↔ c.toNat = u ∧ u < 0x10000 := by
  rw [ofChar]
  split
  · next h =>
    simp only [List.cons.injEq, and_true]
    constructor
    · rintro rfl
      exact ⟨rfl, h⟩
    · exact And.left
  · next h =>
    simp only [List.cons.injEq, reduceCtorEq, and_false, false_iff]
    omega

theorem ofChar_eq_pair_iff {c : Char} {u l : Nat} :
    ofChar c = [u, l] ↔ (0xD800 ≤ u ∧ u < 0xDC00) ∧ IsLow l ∧
      c.toNat = 0x10000 + (u - 0xD800) * 0x400 + (l - 0xDC00) := by
  have hc : c.toNat < 0xD800 ∨ 0xDFFF < c.toNat ∧ c.toNat < 0x110000 := c.valid
  rw [ofChar, IsLow]
  split
  · next h =>
    simp only [List.cons.injEq, reduceCtorEq, and_false, false_iff]
    omega
  · next h =>
    simp only [List.cons.injEq, and_true]
    omega

/-- The code units of a character begin with one that is not the second of a pair. -/
theorem not_isLow_of_ofChar {c : Char} {u : Nat} {us : List Nat} (h : ofChar c = u :: us) :
    ¬ IsLow u := by
  have hc : c.toNat < 0xD800 ∨ 0xDFFF < c.toNat ∧ c.toNat < 0x110000 := c.valid
  rw [ofChar] at h
  rw [IsLow]
  split at h
  · next hs =>
    obtain ⟨rfl, -⟩ := List.cons.inj h
    omega
  · next hs =>
    obtain ⟨rfl, -⟩ := List.cons.inj h
    omega

/-- A character has one code unit or two. -/
theorem exists_ofChar_eq (c : Char) : (∃ u, ofChar c = [u]) ∨ ∃ u l, ofChar c = [u, l] := by
  rw [ofChar]
  split
  · exact Or.inl ⟨_, rfl⟩
  · exact Or.inr ⟨_, _, rfl⟩

theorem ofChar_injective {c d : Char} (h : ofChar c = ofChar d) : c = d := by
  apply Char.toNat_inj.mp
  rcases exists_ofChar_eq d with ⟨u, hd⟩ | ⟨u, l, hd⟩ <;> rw [hd] at h
  · rw [(ofChar_eq_singleton_iff.mp h).1, (ofChar_eq_singleton_iff.mp hd).1]
  · rw [(ofChar_eq_pair_iff.mp h).2.2, (ofChar_eq_pair_iff.mp hd).2.2]

theorem not_isLow_of_encode {t : Text} {u : Nat} {us : List Nat} (h : encode t = u :: us) :
    ¬ IsLow u := by
  cases t with
  | nil => cases h
  | cons c t =>
    obtain ⟨v, vs, hv⟩ := List.exists_cons_of_ne_nil (ofChar_ne_nil c)
    rw [encode_cons, hv] at h
    obtain ⟨rfl, -⟩ := List.cons.inj h
    exact not_isLow_of_ofChar hv

/-- The code units at the beginning of a text tell its first character. -/
theorem encode_eq_ofChar_append {t : Text} {c : Char} {us : List Nat}
    (h : encode t = ofChar c ++ us) : ∃ t', t = c :: t' ∧ encode t' = us := by
  cases t with
  | nil => exact absurd (List.append_eq_nil_iff.mp h.symm).1 (ofChar_ne_nil c)
  | cons d t =>
    rw [encode_cons] at h
    suffices hcd : ofChar d = ofChar c by
      rw [hcd] at h
      exact ⟨t, by rw [ofChar_injective hcd], List.append_cancel_left h⟩
    -- Both begin with the same unit, and that is the first of a pair in both or in neither.
    rcases exists_ofChar_eq c with ⟨u, hc⟩ | ⟨u, l, hc⟩ <;>
      rcases exists_ofChar_eq d with ⟨v, hd⟩ | ⟨v, k, hd⟩ <;> rw [hc, hd] at h ⊢
    · obtain ⟨rfl, -⟩ := List.cons.inj h
      rfl
    · obtain ⟨rfl, -⟩ := List.cons.inj h
      have hpair := (ofChar_eq_pair_iff.mp hd).1
      have hcu := (ofChar_eq_singleton_iff.mp hc).1
      have hvalid : c.toNat < 0xD800 ∨ 0xDFFF < c.toNat ∧ c.toNat < 0x110000 := c.valid
      omega
    · obtain ⟨rfl, -⟩ := List.cons.inj h
      have hpair := (ofChar_eq_pair_iff.mp hc).1
      have hdu := (ofChar_eq_singleton_iff.mp hd).1
      have hvalid : d.toNat < 0xD800 ∨ 0xDFFF < d.toNat ∧ d.toNat < 0x110000 := d.valid
      omega
    · obtain ⟨rfl, hrest⟩ := List.cons.inj h
      obtain ⟨rfl, -⟩ := List.cons.inj hrest
      rfl

end Utf16

namespace Json

open Descent.Parser

/-! ## Digits of base sixteen -/

theorem isHexDigit_of_mem {d : Char × Nat} (h : d ∈ hexDigits) :
    isHexDigit d.1 = true ∧ hexValue d.1 = d.2 ∧ d.2 < 16 := by
  revert d
  decide

theorem mem_hexDigits {c : Char} (h : isHexDigit c = true) : (c, hexValue c) ∈ hexDigits := by
  simp only [isHexDigit, Char.isDigit, Bool.or_eq_true, Bool.and_eq_true, decide_eq_true_eq,
    Char.le_def, UInt32.le_iff_toNat_le, ge_iff_le] at h
  rcases h with (⟨hlo, hhi⟩ | ⟨hlo, hhi⟩) | ⟨hlo, hhi⟩
  · exact Numeral.forall_between (P := fun c => (c, hexValue c) ∈ hexDigits) 48 10 (by decide) hlo
      (Nat.lt_succ_of_le hhi)
  · exact Numeral.forall_between (P := fun c => (c, hexValue c) ∈ hexDigits) 97 6 (by decide) hlo
      (Nat.lt_succ_of_le hhi)
  · exact Numeral.forall_between (P := fun c => (c, hexValue c) ∈ hexDigits) 65 6 (by decide) hlo
      (Nat.lt_succ_of_le hhi)

theorem HexQuad.code_lt (t : HexQuad) : t.code < 0x10000 := by
  obtain ⟨t, hlength, ht⟩ := t
  match t, hlength with
  | [a, b, c, d], _ =>
    simp only [List.forall_mem_cons] at ht
    have ha := (isHexDigit_of_mem ht.1).2.2
    have hb := (isHexDigit_of_mem ht.2.1).2.2
    have hc := (isHexDigit_of_mem ht.2.2.1).2.2
    have hd := (isHexDigit_of_mem ht.2.2.2.1).2.2
    simp only [HexQuad.code, List.foldl_cons, List.foldl_nil]
    omega

/-- The parser and the grammar give digits the same values. -/
theorem hexCode_text (t : HexQuad) : hexCode t.text = t.code := by
  obtain ⟨t, hlength, ht⟩ := t
  match t, hlength with
  | [a, b, c, d], _ =>
    simp only [List.forall_mem_cons] at ht
    simp only [hexCode, HexQuad.text, HexQuad.code, List.map_cons, List.map_nil, List.foldl_cons,
      List.foldl_nil, (isHexDigit_of_mem ht.1).2.1, (isHexDigit_of_mem ht.2.1).2.1,
      (isHexDigit_of_mem ht.2.2.1).2.1, (isHexDigit_of_mem ht.2.2.2.1).2.1]
    omega

/-- Four digits of base sixteen from their text. -/
def HexQuad.ofText (t : Text) (hlength : t.length = 4) (hdigits : ∀ c ∈ t, isHexDigit c = true) :
    HexQuad :=
  ⟨t.map fun c => (c, hexValue c), by simpa using hlength, by
    intro d hd
    obtain ⟨c, hc, rfl⟩ := List.mem_map.mp hd
    exact mem_hexDigits (hdigits c hc)⟩

@[simp] theorem HexQuad.text_ofText (t : Text) (hlength : t.length = 4)
    (hdigits : ∀ c ∈ t, isHexDigit c = true) : (ofText t hlength hdigits).text = t := by
  simp [ofText, text, Function.comp_def]

theorem reads_hexQuadCode {s r : Text} {u : Nat} :
    hexQuadCode.Reads s u r ↔ ∃ t : HexQuad, s = t.text ++ r ∧ u = t.code := by
  rw [hexQuadCode, reads_map]
  simp only [reads_times_satisfy]
  constructor
  · intro h
    obtain ⟨cs, ⟨rfl, hlength, hdigits⟩, rfl⟩ := h
    refine ⟨HexQuad.ofText cs hlength hdigits, by simp, ?_⟩
    rw [← hexCode_text, HexQuad.text_ofText]
  · intro h
    obtain ⟨t, rfl, rfl⟩ := h
    refine ⟨t.text, ⟨rfl, by simp [HexQuad.text, t.2.1], ?_⟩, hexCode_text t⟩
    intro c hc
    obtain ⟨d, hd, rfl⟩ := List.mem_map.mp hc
    exact (isHexDigit_of_mem (t.2.2 d hd)).1

/-! ## Escapes of code units -/

theorem isLowSurrogate_iff {u : Nat} : isLowSurrogate u = true ↔ Utf16.IsLow u := by
  simp [isLowSurrogate, Utf16.IsLow]

theorem ofCode_eq_ok_iff {n : Nat} {c : Char} : decodeUnits.ofCode n = .ok c ↔ c.toNat = n := by
  rw [decodeUnits.ofCode]
  split
  · next hn =>
    rw [Except.ok.injEq]
    constructor
    · rintro rfl
      rw [Char.ofNat, dif_pos hn]
      rfl
    · rintro rfl
      exact Char.ofNat_toNat c
  · next hn =>
    simp only [reduceCtorEq, false_iff]
    rintro rfl
    exact hn c.valid

/-- One or two code units are decoded to the character that is encoded by them. -/
theorem decodeUnits_eq_ok_iff {high : Nat} {low : Option Nat} {c : Char} (hhigh : high < 0x10000)
    (hlow : ∀ l ∈ low, Utf16.IsLow l) :
    decodeUnits high low = .ok c ↔ Utf16.ofChar c = high :: low.toList := by
  cases low with
  | none =>
    rw [decodeUnits, ofCode_eq_ok_iff, Option.toList_none, Utf16.ofChar_eq_singleton_iff]
    simp [hhigh]
  | some l =>
    rw [Option.toList_some, Utf16.ofChar_eq_pair_iff]
    simp only [decodeUnits, isHighSurrogate, Bool.and_eq_true, decide_eq_true_eq]
    split
    · next h => exact ofCode_eq_ok_iff.trans ⟨fun hc => ⟨h, hlow l rfl, hc⟩, fun hc => hc.2.2⟩
    · next h =>
      constructor
      · rintro ⟨⟩
      · exact fun hc => absurd hc.1 h

theorem reads_lowSurrogate {s r : Text} {u : Nat} :
    lowSurrogate.Reads s u r ↔
      ∃ t : HexQuad, s = '\\' :: 'u' :: (t.text ++ r) ∧ u = t.code ∧ Utf16.IsLow u := by
  rw [lowSurrogate, reads_skipThen]
  simp only [reads_literal, reads_filterExpecting, reads_hexQuadCode, isLowSurrogate_iff]
  constructor
  · intro h
    obtain ⟨_, _, ⟨rfl, rfl⟩, ⟨t, rfl, rfl⟩, hlow⟩ := h
    exact ⟨t, rfl, rfl, hlow⟩
  · intro h
    obtain ⟨t, rfl, rfl, hlow⟩ := h
    exact ⟨_, _, ⟨rfl, rfl⟩, ⟨t, rfl, rfl⟩, hlow⟩

/-- An escape is of one code unit that no second one follows, or of two. -/
theorem reads_unicodeEscape {s r : Text} {c : Char} :
    unicodeEscape.Reads s c r ↔
      (∃ t : HexQuad, s = 'u' :: (t.text ++ r) ∧ Utf16.ofChar c = [t.code] ∧
        lowSurrogate.Fails r) ∨
      ∃ t l : HexQuad, s = 'u' :: (t.text ++ '\\' :: 'u' :: (l.text ++ r)) ∧
        Utf16.ofChar c = [t.code, l.code] := by
  rw [unicodeEscape, reads_convert]
  simp only [Prod.exists, reads_both, reads_skipThen, reads_char, reads_hexQuadCode, reads_optional,
    reads_lowSurrogate]
  constructor
  · intro h
    obtain ⟨_, _, ⟨_, ⟨_, _, ⟨rfl, rfl⟩, t, rfl, rfl⟩, hsecond⟩, hc⟩ := h
    rcases hsecond with ⟨_, rfl, l, rfl, rfl, hlow⟩ | ⟨rfl, rfl, hfails⟩
    · rw [decodeUnits_eq_ok_iff t.code_lt (by simpa using hlow)] at hc
      exact Or.inr ⟨t, l, rfl, hc⟩
    · rw [decodeUnits_eq_ok_iff t.code_lt (by simp)] at hc
      exact Or.inl ⟨t, rfl, hc, hfails⟩
  · intro h
    rcases h with ⟨t, rfl, hc, hfails⟩ | ⟨t, l, rfl, hc⟩
    · refine ⟨t.code, none, ⟨r, ⟨'u', _, ⟨rfl, rfl⟩, t, rfl, rfl⟩, Or.inr ⟨rfl, rfl, hfails⟩⟩, ?_⟩
      rwa [decodeUnits_eq_ok_iff t.code_lt (by simp)]
    · have hlow : Utf16.IsLow l.code := (Utf16.ofChar_eq_pair_iff.mp hc).2.1
      refine ⟨t.code, some l.code, ⟨_, ⟨'u', _, ⟨rfl, rfl⟩, t, rfl, rfl⟩,
        Or.inl ⟨l.code, rfl, l, rfl, rfl, hlow⟩⟩, ?_⟩
      rwa [decodeUnits_eq_ok_iff t.code_lt (by simpa using hlow)]

/-! ## Characters of a string -/

/-- One character of a string. -/
def stringChar : Parser Char := choice [satisfy isUnescaped, escape]

theorem isUnescaped_iff {c : Char} :
    isUnescaped c = true ↔ ' ' ≤ c ∧ c ≠ '"' ∧ c ≠ '\\' := by
  simp only [isUnescaped, Bool.and_eq_true, bne_iff_ne, ne_eq, decide_eq_true_eq]
  constructor
  · intro h
    obtain ⟨⟨hquote, hslash⟩, hspace⟩ := h
    exact ⟨hspace, hquote, hslash⟩
  · intro h
    obtain ⟨hspace, hquote, hslash⟩ := h
    exact ⟨⟨hquote, hslash⟩, hspace⟩

/-- The escapes by one character, as the parser has them, and that of a code unit. -/
theorem reads_escape {s r : Text} {c : Char} :
    escape.Reads s c r ↔
      (∃ mark, s = '\\' :: mark :: r ∧ (mark, c) ∈ shortEscapes) ∨
        ∃ t, s = '\\' :: t ∧ unicodeEscape.Reads t c r := by
  rw [escape, reads_skipThen]
  simp only [reads_char, reads_choice_cons, fails_char, fails_map, not_reads_choice_nil, reads_map]
  constructor
  · intro h
    obtain ⟨_, t, ⟨rfl, rfl⟩, h⟩ := h
    rcases h with ⟨rfl, rfl⟩ | ⟨-, ⟨rfl, rfl⟩ | ⟨-, ⟨rfl, rfl⟩ | ⟨-, ⟨_, ⟨rfl, -⟩, rfl⟩ | ⟨-,
      ⟨_, ⟨rfl, -⟩, rfl⟩ | ⟨-, ⟨_, ⟨rfl, -⟩, rfl⟩ | ⟨-, ⟨_, ⟨rfl, -⟩, rfl⟩ | ⟨-,
      ⟨_, ⟨rfl, -⟩, rfl⟩ | ⟨-, h | ⟨-, ⟨⟩⟩⟩⟩⟩⟩⟩⟩⟩⟩
    iterate 8 exact Or.inl ⟨_, rfl, by decide⟩
    exact Or.inr ⟨t, rfl, h⟩
  · intro h
    rcases h with ⟨mark, rfl, hmem⟩ | ⟨t, rfl, h⟩
    · simp only [shortEscapes, List.mem_cons, Prod.mk.injEq, List.not_mem_nil, or_false] at hmem
      refine ⟨_, _, ⟨rfl, rfl⟩, ?_⟩
      rcases hmem with ⟨rfl, rfl⟩ | ⟨rfl, rfl⟩ | ⟨rfl, rfl⟩ | ⟨rfl, rfl⟩ | ⟨rfl, rfl⟩ | ⟨rfl, rfl⟩ |
        ⟨rfl, rfl⟩ | ⟨rfl, rfl⟩ <;> simp
    · obtain ⟨u, rfl⟩ : ∃ u, t = 'u' :: u := by
        rcases reads_unicodeEscape.mp h with ⟨t, rfl, -⟩ | ⟨t, l, rfl, -⟩ <;> exact ⟨_, rfl⟩
      refine ⟨_, _, ⟨rfl, rfl⟩, ?_⟩
      simp [h]

@[simp] theorem piecesText_nil : piecesText [] = [] := rfl

@[simp] theorem piecesText_cons (p : Piece) (ps : List Piece) :
    piecesText (p :: ps) = p.text ++ piecesText ps := rfl

@[simp] theorem piecesUnits_nil : piecesUnits [] = [] := rfl

@[simp] theorem piecesUnits_cons (p : Piece) (ps : List Piece) :
    piecesUnits (p :: ps) = p.units ++ piecesUnits ps := rfl

/-- What is read as one character are the pieces of that character. -/
theorem stringChar_sound {s r : Text} {c : Char} (h : stringChar.Reads s c r) :
    ∃ ps, s = piecesText ps ++ r ∧ piecesUnits ps = Utf16.ofChar c := by
  rw [stringChar, reads_choice_cons, reads_choice_cons] at h
  rcases h with h | ⟨-, h | ⟨-, h⟩⟩
  · obtain ⟨rfl, hc⟩ := reads_satisfy.mp h
    exact ⟨[.plain c (isUnescaped_iff.mp hc)], rfl, by simp [Piece.units]⟩
  · rcases reads_escape.mp h with ⟨mark, rfl, hmem⟩ | ⟨t, rfl, hunit⟩
    · exact ⟨[.short mark c hmem], rfl, by simp [Piece.units]⟩
    · rcases reads_unicodeEscape.mp hunit with ⟨t, rfl, hc, -⟩ | ⟨t, l, rfl, hc⟩
      · exact ⟨[.unit t], by simp [Piece.text], by simp [Piece.units, hc]⟩
      · exact ⟨[.unit t, .unit l], by simp [Piece.text], by simp [Piece.units, hc]⟩
  · exact absurd h not_reads_choice_nil

theorem progresses_stringChar : stringChar.Progresses := by
  intro s c r h
  obtain ⟨ps, rfl, hunits⟩ := stringChar_sound h
  cases ps with
  | nil => exact absurd hunits.symm (Utf16.ofChar_ne_nil c)
  | cons p ps => cases p <;> simp [Piece.text] <;> omega

theorem fails_stringChar_quote (r : Text) : stringChar.Fails ('"' :: r) := by
  rw [stringChar, fails_choice_cons, fails_choice_cons]
  refine ⟨fails_satisfy.mpr (by simp [isUnescaped]), ?_, fails_choice_nil⟩
  rw [escape, fails_skipThen]
  exact Or.inl (fails_char.mpr (by simp))

/-- The look at what follows a code unit fails, unless it is the second of a pair. -/
theorem fails_lowSurrogate {ps : List Piece} {r : Text}
    (h : ∀ u us, piecesUnits ps = u :: us → ¬ Utf16.IsLow u) :
    lowSurrogate.Fails (piecesText ps ++ '"' :: r) := by
  rw [lowSurrogate, fails_skipThen, fails_literal]
  cases ps with
  | nil => simp
  | cons p ps =>
    cases p with
    | plain c hc => simp [Piece.text, Ne.symm hc.2.2]
    | short mark c hmem =>
      have hmark : mark ≠ 'u' := by
        rintro rfl
        simp [shortEscapes] at hmem
      simp [Piece.text, Ne.symm hmark]
    | unit t =>
      -- The escape is read, but its code unit is not the second of a pair.
      refine Or.inr ⟨_, _, reads_literal.mpr ⟨rfl, rfl⟩, ?_⟩
      rw [fails_filterExpecting]
      refine Or.inr ⟨t.code, _, reads_hexQuadCode.mpr ⟨t, List.append_assoc _ _ _, rfl⟩, ?_⟩
      rw [← Bool.not_eq_true, isLowSurrogate_iff]
      exact h t.code _ rfl

theorem reads_stringChar_unicodeEscape {s r : Text} {c : Char} (h : unicodeEscape.Reads s c r) :
    stringChar.Reads ('\\' :: s) c r := by
  rw [stringChar, reads_choice_cons, reads_choice_cons]
  exact Or.inr ⟨fails_satisfy.mpr (by simp [isUnescaped]),
    Or.inl (reads_escape.mpr (Or.inr ⟨s, rfl, h⟩))⟩

/-- The second code unit of a character is written as one. -/
theorem exists_unit_of_isLow {ps : List Piece} {l : Nat} {us : List Nat}
    (h : piecesUnits ps = l :: us) (hlow : Utf16.IsLow l) :
    ∃ t ps', ps = .unit t :: ps' ∧ t.code = l ∧ piecesUnits ps' = us := by
  have not_char {c : Char} {ps : List Piece} :
      Utf16.ofChar c ++ piecesUnits ps ≠ l :: us := by
    obtain ⟨v, vs, hv⟩ := List.exists_cons_of_ne_nil (Utf16.ofChar_ne_nil c)
    rw [hv]
    intro heq
    obtain ⟨rfl, -⟩ := List.cons.inj heq
    exact Utf16.not_isLow_of_ofChar hv hlow
  cases ps with
  | nil => cases h
  | cons p ps =>
    cases p with
    | plain c hc => exact absurd h not_char
    | short mark c hmem => exact absurd h not_char
    | unit t =>
      obtain ⟨ht, hps⟩ := List.cons.inj h
      exact ⟨t, ps, rfl, ht, hps⟩

/-- The pieces of a string are read character by character, up to the quotation mark. -/
theorem chain_stringChar {ps : List Piece} {cs r : Text} (h : piecesUnits ps = Utf16.encode cs) :
    Chain stringChar (piecesText ps ++ '"' :: r) cs ('"' :: r) := by
  match ps with
  | [] =>
    cases cs with
    | nil => exact .nil
    | cons c cs => exact absurd (List.append_eq_nil_iff.mp h.symm).1 (Utf16.ofChar_ne_nil c)
  | .plain c hc :: ps =>
    obtain ⟨cs, rfl, hcs⟩ := Utf16.encode_eq_ofChar_append h.symm
    refine .cons ?_ (chain_stringChar hcs.symm)
    rw [stringChar, reads_choice_cons]
    exact Or.inl (reads_satisfy.mpr ⟨rfl, isUnescaped_iff.mpr hc⟩)
  | .short mark c hmem :: ps =>
    obtain ⟨cs, rfl, hcs⟩ := Utf16.encode_eq_ofChar_append h.symm
    refine .cons ?_ (chain_stringChar hcs.symm)
    rw [stringChar, reads_choice_cons, reads_choice_cons]
    exact Or.inr ⟨fails_satisfy.mpr (by simp [Piece.text, isUnescaped]),
      Or.inl (reads_escape.mpr (Or.inl ⟨mark, rfl, hmem⟩))⟩
  | .unit t :: ps =>
    cases cs with
    | nil => cases h
    | cons c cs =>
      rw [piecesUnits_cons, Utf16.encode_cons, Piece.units] at h
      -- A character of two units takes the next piece as well, which is an escape, too.
      rcases Utf16.exists_ofChar_eq c with ⟨u, hc⟩ | ⟨u, l, hc⟩ <;> rw [hc] at h
      · obtain ⟨rfl, hps⟩ := List.cons.inj h
        refine .cons (reads_stringChar_unicodeEscape ?_) (chain_stringChar hps)
        refine reads_unicodeEscape.mpr (Or.inl ⟨t, ?_, hc, fails_lowSurrogate ?_⟩)
        · exact congrArg ('u' :: ·) (List.append_assoc _ _ _)
        · intro v vs hv
          exact Utf16.not_isLow_of_encode (hps.symm.trans hv)
      · obtain ⟨rfl, hps⟩ := List.cons.inj h
        obtain ⟨t', ps, rfl, rfl, hrest⟩ :=
          exists_unit_of_isLow hps (Utf16.ofChar_eq_pair_iff.mp hc).2.1
        refine .cons (reads_stringChar_unicodeEscape ?_) (chain_stringChar hrest)
        exact reads_unicodeEscape.mpr
          (Or.inr ⟨t, t', by simp [Piece.text, piecesText, List.flatMap_def], hc⟩)
termination_by ps.length

theorem exists_pieces_of_chain {s r : Text} {cs : List Char} (h : Chain stringChar s cs r) :
    ∃ ps, s = piecesText ps ++ r ∧ piecesUnits ps = Utf16.encode cs := by
  induction h with
  | nil => exact ⟨[], rfl, rfl⟩
  | cons hc _ ih =>
    obtain ⟨ps, rfl, hunits⟩ := stringChar_sound hc
    obtain ⟨qs, rfl, hrest⟩ := ih
    exact ⟨ps ++ qs, by simp [piecesText], by simp [piecesUnits, ← hunits, ← hrest]⟩

/-- A string literal is a quoted string, and its value the string that this denotes. -/
theorem reads_stringLiteral {s r : Text} {v : String} :
    stringLiteral.Reads s v r ↔ ∃ ps, s = quoted ps ++ r ∧ DenotesString ps v := by
  change ((bracket (char '"') (many stringChar) (char '"')).map String.ofList).Reads s v r ↔ _
  rw [reads_map]
  simp only [reads_bracket, reads_char, reads_many progresses_stringChar]
  constructor
  · intro h
    obtain ⟨cs, ⟨_, _, u, _, ⟨rfl, rfl⟩, ⟨hchain, -⟩, rfl, rfl⟩, rfl⟩ := h
    obtain ⟨ps, rfl, hunits⟩ := exists_pieces_of_chain hchain
    exact ⟨ps, by simp [quoted], by simpa [DenotesString] using hunits⟩
  · intro h
    obtain ⟨ps, rfl, hunits⟩ := h
    refine ⟨v.toList, ⟨'"', piecesText ps ++ '"' :: r, '"' :: r, '"', ?_, ?_, rfl, rfl⟩, by simp⟩
    · exact ⟨by simp [quoted], rfl⟩
    · exact ⟨chain_stringChar hunits, fails_stringChar_quote r⟩

end Json
end Descent
