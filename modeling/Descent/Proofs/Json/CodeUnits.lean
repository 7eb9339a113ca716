import Descent.Proofs.Json.Language
import Descent.Proofs.Json.Written

/-!
# Strings of escaped code units

A string in which every code unit is escaped is read if and only if its code units are well-formed
UTF-16, and then as the text that they decode to (`parse_escapes`). The parser takes the escapes in
turn and looks one escape ahead, so a unit is paired with the next or with none; that it pairs them
as `Utf16.decode` does comes from what strings denote, and that no other string is written in the
same way from `piecesText_inj`.
-/

namespace Descent

/-! ## UTF-16 -/

namespace Utf16

/-- Whether a code unit is the first of a surrogate pair. -/
def IsHigh (u : Nat) : Prop := 0xD800 ≤ u ∧ u < 0xDC00

instance (u : Nat) : Decidable (IsHigh u) := inferInstanceAs (Decidable (_ ∧ _))

instance (u : Nat) : Decidable (IsLow u) := inferInstanceAs (Decidable (_ ∧ _))

/-- Firsts and seconds of surrogate pairs come in pairs. -/
structure WellFormed (us : List Nat) : Prop where
  /-- A first is followed by a second. -/
  high_low {i u : Nat} : us[i]? = some u → IsHigh u → ∃ v, us[i + 1]? = some v ∧ IsLow v
  /-- A second follows a first. -/
  low_high {i v : Nat} : us[i]? = some v → IsLow v →
    ∃ j u, i = j + 1 ∧ us[j]? = some u ∧ IsHigh u

/-- The code of a character that is encoded by two units. -/
def ofPair (u v : Nat) : Nat := 0x10000 + (u - 0xD800) * 0x400 + (v - 0xDC00)

/-- The text that code units encode, if they encode one. -/
def decode : List Nat → Option Text
  | [] => some []
  | [u] => if IsHigh u ∨ IsLow u then none else some [Char.ofNat u]
  | u :: v :: us =>
    if IsHigh u then
      if IsLow v then (decode us).map (Char.ofNat (ofPair u v) :: ·) else none
    else if IsLow u then none
    else (decode (v :: us)).map (Char.ofNat u :: ·)

theorem IsHigh.not_isLow {u : Nat} (h : IsHigh u) : ¬ IsLow u := by
  intro hlow
  exact absurd h.2 (Nat.not_lt.mpr hlow.1)

/-! ### Well-formed lists of code units -/

/-- Position by position: no second comes first, and a unit is a first if and only if the next is a
second. -/
theorem wellFormed_iff {us : List Nat} :
    WellFormed us ↔ (¬ ∃ v, us[0]? = some v ∧ IsLow v) ∧
      ∀ i, (∃ u, us[i]? = some u ∧ IsHigh u) ↔ ∃ v, us[i + 1]? = some v ∧ IsLow v := by
  constructor
  · intro h
    refine ⟨?_, fun i => ⟨?_, ?_⟩⟩
    · rintro ⟨v, hv, hlow⟩
      obtain ⟨j, -, hj, -⟩ := h.low_high hv hlow
      exact absurd hj.symm (Nat.succ_ne_zero j)
    · rintro ⟨u, hu, hhigh⟩
      exact h.high_low hu hhigh
    · rintro ⟨v, hv, hlow⟩
      obtain ⟨j, u, hj, hu, hhigh⟩ := h.low_high hv hlow
      obtain rfl : i = j := Nat.succ.inj hj
      exact ⟨u, hu, hhigh⟩
  · rintro ⟨hfirst, hpairs⟩
    refine ⟨fun {i u} hu hhigh => (hpairs i).mp ⟨u, hu, hhigh⟩, fun {i v} hv hlow => ?_⟩
    cases i with
    | zero => exact absurd ⟨v, hv, hlow⟩ hfirst
    | succ j =>
      obtain ⟨u, hu, hhigh⟩ := (hpairs j).mpr ⟨v, hv, hlow⟩
      exact ⟨j, u, rfl, hu, hhigh⟩

theorem wellFormed_nil : WellFormed [] := by
  rw [wellFormed_iff]
  simp

/-- A unit that is neither a first nor a second stands for itself. -/
theorem wellFormed_cons_iff {u : Nat} {us : List Nat} (hhigh : ¬ IsHigh u) (hlow : ¬ IsLow u) :
    WellFormed (u :: us) ↔ WellFormed us := by
  rw [wellFormed_iff, wellFormed_iff, ← Nat.and_forall_add_one]
  simp [hhigh, hlow]

theorem wellFormed_pair_iff {u v : Nat} {us : List Nat} (hu : IsHigh u) (hv : IsLow v) :
    WellFormed (u :: v :: us) ↔ WellFormed us := by
  have hhigh : ¬ IsHigh v := fun h => h.not_isLow hv
  rw [wellFormed_iff, wellFormed_iff, ← Nat.and_forall_add_one, ← Nat.and_forall_add_one]
  simp [hu, hu.not_isLow, hv, hhigh]

theorem not_wellFormed_of_isLow {u : Nat} {us : List Nat} (h : IsLow u) :
    ¬ WellFormed (u :: us) := by
  intro hwell
  exact (wellFormed_iff.mp hwell).1 ⟨u, rfl, h⟩

theorem isLow_of_wellFormed {u : Nat} {us : List Nat} (hwell : WellFormed (u :: us))
    (h : IsHigh u) : ∃ v vs, us = v :: vs ∧ IsLow v := by
  obtain ⟨v, hv, hlow⟩ := hwell.high_low (i := 0) rfl h
  cases us with
  | nil => cases hv
  | cons w vs =>
    obtain rfl : w = v := Option.some.inj hv
    exact ⟨w, vs, rfl, hlow⟩

/-! ### Decoding -/

theorem decode_cons {u : Nat} (hhigh : ¬ IsHigh u) (hlow : ¬ IsLow u) (us : List Nat) :
    decode (u :: us) = (decode us).map (Char.ofNat u :: ·) := by
  cases us with
  | nil => simp [decode, hhigh, hlow]
  | cons v us => simp [decode, hhigh, hlow]

theorem decode_pair {u v : Nat} (hu : IsHigh u) (hv : IsLow v) (us : List Nat) :
    decode (u :: v :: us) = (decode us).map (Char.ofNat (ofPair u v) :: ·) := by
  simp [decode, hu, hv]

/-- What is well-formed is what can be decoded. -/
theorem isSome_decode_iff (us : List Nat) : (decode us).isSome ↔ WellFormed us := by
  have hnone {us : List Nat} (h : ¬ WellFormed us) :
      (none : Option Text).isSome ↔ WellFormed us := by
    simpa using h
  fun_induction decode us with
  | case1 => simp [wellFormed_nil]
  | case2 u h =>
    apply hnone
    rcases h with hhigh | hlow
    · intro hwell
      obtain ⟨v, vs, hvs, -⟩ := isLow_of_wellFormed hwell hhigh
      cases hvs
    · exact not_wellFormed_of_isLow hlow
  | case3 u h =>
    obtain ⟨hhigh, hlow⟩ := not_or.mp h
    simp [wellFormed_cons_iff hhigh hlow, wellFormed_nil]
  | case4 u v us hu hv ih =>
    rw [Option.isSome_map, wellFormed_pair_iff hu hv]
    exact ih
  | case5 u v us hu hv =>
    apply hnone
    intro hwell
    obtain ⟨w, ws, hws, hlow⟩ := isLow_of_wellFormed hwell hu
    obtain ⟨rfl, -⟩ := List.cons.inj hws
    exact hv hlow
  | case6 u v us _ hlow =>
    apply hnone
    exact not_wellFormed_of_isLow hlow
  | case7 u v us hhigh hlow ih =>
    rw [Option.isSome_map, wellFormed_cons_iff hhigh hlow]
    exact ih

theorem toNat_ofNat {n : Nat} (h : n.isValidChar) : (Char.ofNat n).toNat = n := by
  rw [Char.ofNat, dif_pos h]
  rfl

theorem ofChar_ofNat {u : Nat} (hu : u < 0x10000) (hhigh : ¬ IsHigh u) (hlow : ¬ IsLow u) :
    ofChar (Char.ofNat u) = [u] := by
  have hvalid : u.isValidChar := by
    unfold IsHigh at hhigh
    unfold IsLow at hlow
    unfold Nat.isValidChar
    omega
  exact ofChar_eq_singleton_iff.mpr ⟨toNat_ofNat hvalid, hu⟩

/-- A pair combines to the code of a character above 16 bits. -/
theorem ofPair_bounds {u v : Nat} (hu : IsHigh u) (hv : IsLow v) :
    0x10000 ≤ ofPair u v ∧ ofPair u v ≤ 0x10FFFF := by
  obtain ⟨hu, hu'⟩ := hu
  obtain ⟨hv, hv'⟩ := hv
  unfold ofPair
  omega

theorem ofChar_ofPair {u v : Nat} (hu : IsHigh u) (hv : IsLow v) :
    ofChar (Char.ofNat (ofPair u v)) = [u, v] := by
  obtain ⟨hlow, hhigh⟩ := ofPair_bounds hu hv
  have hvalid : (ofPair u v).isValidChar := by
    unfold Nat.isValidChar
    omega
  exact ofChar_eq_pair_iff.mpr ⟨hu, hv, toNat_ofNat hvalid⟩

theorem decode_encode (t : Text) : decode (encode t) = some t := by
  induction t with
  | nil => rfl
  | cons c t ih =>
    rw [encode_cons]
    rcases exists_ofChar_eq c with ⟨u, hc⟩ | ⟨u, v, hc⟩ <;> rw [hc]
    · obtain ⟨rfl, hu⟩ := ofChar_eq_singleton_iff.mp hc
      have hvalid : c.toNat < 0xD800 ∨ 0xDFFF < c.toNat ∧ c.toNat < 0x110000 := c.valid
      have hhigh : ¬ IsHigh c.toNat := by
        unfold IsHigh
        omega
      show decode (c.toNat :: encode t) = some (c :: t)
      rw [decode_cons hhigh (not_isLow_of_ofChar hc), ih, Char.ofNat_toNat]
      rfl
    · obtain ⟨hu, hv, hcode⟩ := ofChar_eq_pair_iff.mp hc
      have hpair : ofPair u v = c.toNat := hcode.symm
      show decode (u :: v :: encode t) = some (c :: t)
      rw [decode_pair hu hv, ih, hpair, Char.ofNat_toNat]
      rfl

theorem encode_of_decode {us : List Nat} {t : Text} (hus : ∀ u ∈ us, u < 0x10000)
    (h : decode us = some t) : encode t = us := by
  fun_induction decode us generalizing t with
  | case1 =>
    cases h
    rfl
  | case2 | case5 | case6 => cases h
  | case3 u hsingle =>
    cases h
    obtain ⟨hhigh, hlow⟩ := not_or.mp hsingle
    simp [ofChar_ofNat (hus u (by simp)) hhigh hlow]
  | case4 u v us hu hv ih =>
    obtain ⟨t, ht, rfl⟩ := Option.map_eq_some_iff.mp h
    rw [encode_cons, ofChar_ofPair hu hv, ih (fun w hw => hus w (by simp [hw])) ht]
    rfl
  | case7 u v us hhigh hlow ih =>
    obtain ⟨t, ht, rfl⟩ := Option.map_eq_some_iff.mp h
    rw [encode_cons, ofChar_ofNat (hus u (by simp)) hhigh hlow,
      ih (fun w hw => hus w (List.mem_cons_of_mem u hw)) ht]
    rfl

/-- A text is decoded from its own code units and from no others. -/
theorem decode_eq_some_iff {us : List Nat} {t : Text} (hus : ∀ u ∈ us, u < 0x10000) :
    decode us = some t ↔ encode t = us := by
  constructor
  · exact encode_of_decode hus
  · rintro rfl
    exact decode_encode t

end Utf16

namespace Json

open Descent.Parser

/-! ## Strings are written in one way -/

/-- Digits are told by their characters. -/
theorem HexQuad.text_append_inj {t t' : HexQuad} {r r' : Text} (h : t.text ++ r = t'.text ++ r') :
    t = t' ∧ r = r' := by
  have hdigits (t : HexQuad) : t.1 = t.text.map fun c => (c, hexValue c) := by
    rw [text, List.map_map, List.map_congr_left (g := id), List.map_id]
    intro d hd
    show (d.1, hexValue d.1) = d
    rw [(isHexDigit_of_mem (t.2.2 d hd)).2.1]
  have hlength : t.text.length = t'.text.length := by simp [text, t.2.1, t'.2.1]
  obtain ⟨htext, hr⟩ := List.append_inj h hlength
  exact ⟨Subtype.ext (by rw [hdigits t, htext, ← hdigits t']), hr⟩

/-- No piece begins like another. -/
theorem Piece.text_append_inj {p q : Piece} {r r' : Text} (h : p.text ++ r = q.text ++ r') :
    p = q ∧ r = r' := by
  have hmark {mark c : Char} (hmem : (mark, c) ∈ shortEscapes) : mark ≠ 'u' := by
    rintro rfl
    simp [shortEscapes] at hmem
  cases p with
  | plain c hc =>
    cases q with
    | plain d hd =>
      obtain ⟨rfl, hr⟩ := List.cons.inj h
      exact ⟨rfl, hr⟩
    | short mark d hmem => exact absurd (List.cons.inj h).1 hc.2.2
    | unit t => exact absurd (List.cons.inj h).1 hc.2.2
  | short mark c hmem =>
    cases q with
    | plain d hd => exact absurd (List.cons.inj h).1.symm hd.2.2
    | short mark' d hmem' =>
      obtain ⟨-, h⟩ := List.cons.inj h
      obtain ⟨rfl, hr⟩ := List.cons.inj h
      have hfunctional : ∀ e ∈ shortEscapes, ∀ e' ∈ shortEscapes, e.1 = e'.1 → e = e' := by decide
      obtain ⟨-, rfl⟩ := Prod.mk.inj (hfunctional _ hmem _ hmem' rfl)
      exact ⟨rfl, hr⟩
    | unit t =>
      obtain ⟨-, h⟩ := List.cons.inj h
      exact absurd (List.cons.inj h).1 (hmark hmem)
  | unit t =>
    cases q with
    | plain d hd => exact absurd (List.cons.inj h).1.symm hd.2.2
    | short mark d hmem =>
      obtain ⟨-, h⟩ := List.cons.inj h
      exact absurd (List.cons.inj h).1.symm (hmark hmem)
    | unit t' =>
      obtain ⟨-, h⟩ := List.cons.inj h
      obtain ⟨-, h⟩ := List.cons.inj h
      obtain ⟨rfl, hr⟩ := HexQuad.text_append_inj h
      exact ⟨rfl, hr⟩

theorem Piece.text_append_ne_quote (p : Piece) (r r' : Text) : p.text ++ r ≠ '"' :: r' := by
  cases p with
  | plain c hc =>
    intro h
    exact hc.2.1 (List.cons.inj h).1
  | short mark c hmem => simp [text]
  | unit t => simp [text]

/-- The pieces of a string are told by its text, and so is where it ends. -/
theorem piecesText_inj {ps qs : List Piece} {r r' : Text}
    (h : piecesText ps ++ '"' :: r = piecesText qs ++ '"' :: r') : ps = qs ∧ r = r' := by
  induction ps generalizing qs with
  | nil =>
    cases qs with
    | nil => exact ⟨rfl, (List.cons.inj h).2⟩
    | cons q qs =>
      rw [piecesText_cons, List.append_assoc] at h
      exact absurd h.symm (q.text_append_ne_quote _ _)
  | cons p ps ih =>
    rw [piecesText_cons, List.append_assoc] at h
    cases qs with
    | nil => exact absurd h (p.text_append_ne_quote _ _)
    | cons q qs =>
      rw [piecesText_cons, List.append_assoc] at h
      obtain ⟨rfl, hrest⟩ := Piece.text_append_inj h
      obtain ⟨rfl, hr⟩ := ih hrest
      exact ⟨rfl, hr⟩

/-- Only strings begin with a quotation mark. -/
theorem exists_pieces_of_text {d : Document} {r t : Text} (h : d.text ++ r = '"' :: t) :
    ∃ ps, d = .string ps := by
  cases d with
  | string ps => exact ⟨ps, rfl⟩
  | bool b => cases b <;> cases h
  | number l =>
    have havoids : Text.Avoids (l.text ++ r) (· == '"') := by
      refine l.avoids_text (fun c hc => ?_) r
      rw [beq_eq_false_iff_ne]
      rintro rfl
      cases hc
    have hnumber : l.text ++ r = '"' :: t := h
    rw [hnumber, Text.avoids_cons] at havoids
    cases havoids
  | null | emptyArray | array | emptyObject | object => cases h

/-- A quoted string is read as what its own pieces denote. -/
theorem parse_quoted_iff {ps : List Piece} {v : Json} :
    parse (quoted ps) = .complete v ↔ ∃ w, DenotesString ps w ∧ v = .string w := by
  constructor
  · intro h
    obtain ⟨before, d, after, hspells, -, hd⟩ := parser_sound (parseComplete_eq_complete_iff.mp h)
    have hquote : d.text ++ (after.1 ++ []) = '"' :: (piecesText ps ++ ['"']) := by
      rw [← dropWhile_gap_append before (d.avoids_isBlank _), ← hspells]
      rfl
    obtain ⟨qs, rfl⟩ := exists_pieces_of_text hquote
    have hpieces : piecesText qs ++ '"' :: after.1 = piecesText ps ++ '"' :: [] := by
      simpa [quoted] using hquote
    obtain ⟨rfl, -⟩ := piecesText_inj hpieces
    exact hd
  · rintro ⟨w, hw, rfl⟩
    have hparse := parse_document noGap noGap (d := .string ps) ⟨w, hw, rfl⟩ (Nat.zero_le _)
    simpa [noGap] using hparse

/-! ## Escaped code units -/

/-- A string in which every code unit is escaped. -/
def escapes (ts : List HexQuad) : Text :=
  '"' :: (ts.flatMap (fun t => '\\' :: 'u' :: t.text) ++ ['"'])

theorem quoted_unit (ts : List HexQuad) : quoted (ts.map .unit) = escapes ts := by
  rw [quoted, piecesText, List.flatMap_map]
  rfl

theorem piecesUnits_unit (ts : List HexQuad) :
    piecesUnits (ts.map .unit) = ts.map HexQuad.code := by
  induction ts with
  | nil => rfl
  | cons t ts ih =>
    rw [List.map_cons, piecesUnits_cons, ih]
    rfl

/-- Every code unit can be written with four digits. -/
theorem HexQuad.exists_code {u : Nat} (hu : u < 0x10000) : ∃ t : HexQuad, t.code = u := by
  have hdigit (n : Nat) (hn : n < 16) : ∃ d ∈ hexDigits, d.2 = n := by
    have hall : ∀ n ∈ List.range 16, ∃ d ∈ hexDigits, d.2 = n := by decide
    exact hall n (List.mem_range.mpr hn)
  obtain ⟨a, ha, hacode⟩ := hdigit (u / 0x1000) (by omega)
  obtain ⟨b, hb, hbcode⟩ := hdigit (u / 0x100 % 16) (by omega)
  obtain ⟨c, hc, hccode⟩ := hdigit (u / 16 % 16) (by omega)
  obtain ⟨d, hd, hdcode⟩ := hdigit (u % 16) (by omega)
  refine ⟨⟨[a, b, c, d], rfl, by simp [ha, hb, hc, hd]⟩, ?_⟩
  simp only [code, List.foldl_cons, List.foldl_nil, hacode, hbcode, hccode, hdcode]
  omega

theorem exists_hexQuads {us : List Nat} (hus : ∀ u ∈ us, u < 0x10000) :
    ∃ ts : List HexQuad, ts.map HexQuad.code = us := by
  induction us with
  | nil => exact ⟨[], rfl⟩
  | cons u us ih =>
    obtain ⟨hu, hrest⟩ := List.forall_mem_cons.mp hus
    obtain ⟨t, rfl⟩ := HexQuad.exists_code hu
    obtain ⟨ts, rfl⟩ := ih hrest
    exact ⟨t :: ts, rfl⟩

/-- Two units that the parser takes for a pair combine to the code of a character, with nothing
below zero on the way. -/
theorem decodeUnits_pair {s r : Text} {high low : Nat} (hhigh : isHighSurrogate high = true)
    (hlow : lowSurrogate.Reads s low r) :
    0xD800 ≤ high ∧ 0xDC00 ≤ low ∧ 0x10000 ≤ pairCode high low ∧ pairCode high low ≤ 0x10FFFF ∧
      decodeUnits high (some low) = .ok (Char.ofNat (pairCode high low)) := by
  obtain ⟨-, -, -, hlow⟩ := reads_lowSurrogate.mp hlow
  have hhigh : Utf16.IsHigh high := by
    simpa [isHighSurrogate, Utf16.IsHigh] using hhigh
  obtain ⟨hle, hge⟩ := Utf16.ofPair_bounds hhigh hlow
  refine ⟨hhigh.1, hlow.1, hle, hge, ?_⟩
  have hsmall : high < 0x10000 := Nat.lt_trans hhigh.2 (by decide)
  apply (decodeUnits_eq_ok_iff hsmall (by simpa using hlow)).mpr
  exact Utf16.ofChar_ofPair hhigh hlow

theorem parse_escapes_iff {ts : List HexQuad} {v : Json} :
    parse (escapes ts) = .complete v ↔
      ∃ t, Utf16.decode (ts.map HexQuad.code) = some t ∧ v = .string (String.ofList t) := by
  have hsmall : ∀ u ∈ ts.map HexQuad.code, u < 0x10000 := by
    intro u hu
    obtain ⟨t, -, rfl⟩ := List.mem_map.mp hu
    exact t.code_lt
  rw [← quoted_unit, parse_quoted_iff]
  simp only [DenotesString, piecesUnits_unit, Utf16.decode_eq_some_iff hsmall]
  constructor
  · rintro ⟨w, hw, rfl⟩
    exact ⟨w.toList, hw.symm, by rw [String.ofList_toList]⟩
  · rintro ⟨t, ht, rfl⟩
    exact ⟨String.ofList t, by rw [String.toList_ofList, ht], rfl⟩

theorem exists_parse_escapes_iff {ts : List HexQuad} :
    (∃ v, parse (escapes ts) = .complete v) ↔ Utf16.WellFormed (ts.map HexQuad.code) := by
  rw [← Utf16.isSome_decode_iff, Option.isSome_iff_exists]
  constructor
  · rintro ⟨v, hv⟩
    obtain ⟨t, ht, -⟩ := parse_escapes_iff.mp hv
    exact ⟨t, ht⟩
  · rintro ⟨t, ht⟩
    exact ⟨_, parse_escapes_iff.mpr ⟨t, ht, rfl⟩⟩

/-- A string of escaped code units is read if and only if they are well-formed, and then as the text
that they decode to. Any code units can be escaped, and no pair that the parser combines is more
than it can hold or no character. -/
theorem parse_escapes :
    (∀ us : List Nat, (∀ u ∈ us, u < 0x10000) → ∃ ts : List HexQuad, ts.map HexQuad.code = us) ∧
    (∀ ts : List HexQuad,
      ((∃ v, parse (escapes ts) = .complete v) ↔ Utf16.WellFormed (ts.map HexQuad.code)) ∧
      ∀ v, parse (escapes ts) = .complete v ↔
        ∃ t, Utf16.decode (ts.map HexQuad.code) = some t ∧ v = .string (String.ofList t)) ∧
    ∀ (s r : Text) (high low : Nat), isHighSurrogate high = true → lowSurrogate.Reads s low r →
      0xD800 ≤ high ∧ 0xDC00 ≤ low ∧ 0x10000 ≤ pairCode high low ∧ pairCode high low ≤ 0x10FFFF ∧
        decodeUnits high (some low) = .ok (Char.ofNat (pairCode high low)) := by
  refine ⟨fun us hus => exists_hexQuads hus, fun ts => ⟨exists_parse_escapes_iff, fun v => ?_⟩,
    fun s r high low hhigh hlow => decodeUnits_pair hhigh hlow⟩
  exact parse_escapes_iff

/-- A pair of escapes in both cases of letters. -/
theorem parse_escapes_pair :
    let s := ['"', '\\', 'u', 'd', '8', '3', 'D', '\\', 'u', 'D', 'e', '0', '0', '"']
    Utf16.WellFormed [0xD83D, 0xDE00] ∧ parse s = .complete (.string "😀") ∧
      (∀ u ∈ [0xD83D, 0xDE00], u < 0x10000) ∧
      (∃ ts : List HexQuad, ts.map HexQuad.code = [0xD83D, 0xDE00]) ∧
      isHighSurrogate 0xD83D = true ∧
      lowSurrogate.Reads ['\\', 'u', 'D', 'e', '0', '0', '"'] 0xDE00 ['"'] ∧
      pairCode 0xD83D 0xDE00 ≤ 0x10FFFF ∧ decodeUnits 0xD83D (some 0xDE00) = .ok '😀' := by
  intro s
  have hsmall : ∀ u ∈ [0xD83D, 0xDE00], u < 0x10000 := by decide
  have hlow : lowSurrogate.Reads ['\\', 'u', 'D', 'e', '0', '0', '"'] 0xDE00 ['"'] := rfl
  obtain ⟨hwritten, hparse, hpair⟩ := parse_escapes
  let high : HexQuad := ⟨[('d', 13), ('8', 8), ('3', 3), ('D', 13)], by decide⟩
  let low : HexQuad := ⟨[('D', 13), ('e', 14), ('0', 0), ('0', 0)], by decide⟩
  obtain ⟨hwell, hvalue⟩ := hparse [high, low]
  have hread : parse s = .complete (.string "😀") :=
    (hvalue _).mpr ⟨['😀'], by decide, rfl⟩
  obtain ⟨-, -, -, hle, hdecode⟩ := hpair _ _ 0xD83D 0xDE00 rfl hlow
  exact ⟨hwell.mp ⟨_, hread⟩, hread, hsmall, hwritten _ hsmall, rfl, hlow, hle, hdecode⟩

end Json
end Descent
