import Descent.Json.Printer
import Descent.Proofs.Binary64.Shortest
import Descent.Proofs.Json.Numbers
import Descent.Proofs.Json.Shape
import Descent.Proofs.Json.Strings

/-!
# Written values

What is written for a value is the text of a document that denotes the value and is as deep as the
value is, as long as all its numbers are finite and its objects have each key once
(`exists_document`).
-/

namespace Descent.Json

open Numeral (IsDigits IsCanonical)

/-! ## Numbers -/

theorem isCanonical_append_zeros {n : Nat} (hn : n ≠ 0) (k : Nat) :
    IsCanonical (Numeral.ofNat n ++ List.replicate k '0') := by
  have hdigits := Numeral.isDigits_ofNat n
  refine Or.inr ⟨⟨by simp [hdigits.1], ?_⟩, ?_⟩
  · intro c hc
    rcases List.mem_append.mp hc with hc | hc
    · exact hdigits.2 c hc
    · rw [List.eq_of_mem_replicate hc]
      rfl
  · rw [List.head?_append_of_ne_nil _ hdigits.1]
    exact Numeral.head?_ofNat_ne_zero (Nat.pos_of_ne_zero hn)

/-- The digits of a number, with zeros before them as far as places after the point need them. -/
def padded (n places : Nat) : Text :=
  List.replicate (places + 1 - (Numeral.ofNat n).length) '0' ++ Numeral.ofNat n

/-- The number of those digits that stand before the point. -/
def wholeLength (n places : Nat) : Nat := (padded n places).length - places

theorem positional_of_neg {d : Binary64.Digits} {places : Nat} (h : d.2 = -(places : Int))
    (hplaces : 0 < places) :
    Binary64.positional d = (padded d.1 places).take (wholeLength d.1 places) ++
      '.' :: (padded d.1 places).drop (wholeLength d.1 places) := by
  have hneg : ¬ 0 ≤ d.2 := by omega
  unfold Binary64.positional
  dsimp only
  rw [if_neg hneg, h, neg_neg, Int.toNat_natCast]
  rfl

theorem length_padded (n places : Nat) :
    (padded n places).length = max (places + 1) (Numeral.ofNat n).length := by
  rw [padded, List.length_append, List.length_replicate]
  omega

theorem isDigit_of_mem_padded {n places : Nat} {c : Char} (h : c ∈ padded n places) :
    c.isDigit = true := by
  rcases List.mem_append.mp h with hc | hc
  · rw [List.eq_of_mem_replicate hc]
    rfl
  · exact (Numeral.isDigits_ofNat n).2 c hc

theorem nat_padded (n places : Nat) : Numeral.nat (padded n places) = n := by
  rw [padded, Numeral.nat_append, Numeral.nat_replicate_zero, Numeral.nat_ofNat, Nat.mul_zero,
    Nat.zero_add]

theorem isCanonical_take_padded {n : Nat} (hn : n ≠ 0) (places : Nat) :
    IsCanonical ((padded n places).take (wholeLength n places)) := by
  have hlength := length_padded n places
  rcases Nat.lt_or_ge places (Numeral.ofNat n).length with h | h
  · -- There are digits to spare, and none is added.
    have hpadded : padded n places = Numeral.ofNat n := by
      rw [padded, show places + 1 - (Numeral.ofNat n).length = 0 by omega, List.replicate_zero,
        List.nil_append]
    have hpos : 0 < wholeLength n places := by
      rw [wholeLength]
      omega
    have hne : (padded n places).take (wholeLength n places) ≠ [] := by
      rw [← List.length_pos_iff, List.length_take]
      omega
    refine Or.inr ⟨⟨hne, fun c hc => isDigit_of_mem_padded (List.mem_of_mem_take hc)⟩, ?_⟩
    rw [List.head?_take, if_neg hpos.ne', hpadded]
    exact Numeral.head?_ofNat_ne_zero (Nat.pos_of_ne_zero hn)
  · -- All digits stand after the point, and a zero is put before it.
    refine Or.inl ?_
    have hwhole : wholeLength n places = 1 := by
      rw [wholeLength]
      omega
    rw [hwhole, padded, show places + 1 - (Numeral.ofNat n).length =
      (places - (Numeral.ofNat n).length) + 1 by omega, List.replicate_succ]
    rfl

theorem isDigits_drop_padded (n : Nat) {places : Nat} (hplaces : 0 < places) :
    IsDigits ((padded n places).drop (wholeLength n places)) ∧
      ((padded n places).drop (wholeLength n places)).length = places := by
  have hlength := length_padded n places
  have hdrop : ((padded n places).drop (wholeLength n places)).length = places := by
    rw [List.length_drop, wholeLength]
    omega
  refine ⟨⟨?_, fun c hc => isDigit_of_mem_padded (List.mem_of_mem_drop hc)⟩, hdrop⟩
  rw [← List.length_pos_iff]
  omega

/-- A decimal in positional notation is a literal that denotes the same double. -/
theorem exists_literal_positional {d : Binary64.Digits} (hd : d.1 = 0 → d.2 = 0)
    (hfinite : Binary64.decimalMagnitude d.1 d.2 < Binary64.infiniteMagnitude) (minus : Bool) :
    ∃ l : NumberLiteral, l.text = (if minus then ['-'] else []) ++ Binary64.positional d ∧
      Binary64.ofDecimal l.decimal =
        Binary64.ofMagnitude minus (Binary64.decimalMagnitude d.1 d.2) := by
  -- With a negative exponent there are places after the point, otherwise zeros at the end.
  rcases lt_or_ge d.2 0 with h | h
  · obtain ⟨places, hplaces⟩ := Int.eq_ofNat_of_zero_le (show 0 ≤ -d.2 by omega)
    have hscale : d.2 = -(places : Int) := by omega
    have hpos : 0 < places := by omega
    have hn : d.1 ≠ 0 := fun hzero => by
      have := hd hzero
      omega
    obtain ⟨hdigits, hlength⟩ := isDigits_drop_padded d.1 hpos
    refine ⟨⟨minus, (padded d.1 places).take (wholeLength d.1 places),
      some ((padded d.1 places).drop (wholeLength d.1 places)), none,
      isCanonical_take_padded hn places, by simpa using hdigits, by simp⟩, ?_, ?_⟩
    · simp [NumberLiteral.text, NumberLiteral.fractionText, NumberLiteral.exponentText,
        positional_of_neg hscale hpos]
    · simp only [NumberLiteral.decimal, NumberLiteral.places, Option.getD_some, hlength,
        List.take_append_drop, nat_padded, NumberLiteral.exponentValue, Binary64.ofDecimal]
      rw [Int.zero_sub, hscale]
  · obtain ⟨k, hk⟩ := Int.eq_ofNat_of_zero_le h
    have hwhole : IsCanonical (Numeral.ofNat d.1 ++ List.replicate k '0') := by
      by_cases hn : d.1 = 0
      · have hzero := hd hn
        obtain rfl : k = 0 := by omega
        rw [hn]
        exact Or.inl rfl
      · exact isCanonical_append_zeros hn k
    refine ⟨⟨minus, Numeral.ofNat d.1 ++ List.replicate k '0', none, none, hwhole, by simp,
      by simp⟩, ?_, ?_⟩
    · simp [NumberLiteral.text, NumberLiteral.fractionText, NumberLiteral.exponentText,
        Binary64.positional, hk]
    · rw [hk] at hfinite
      simp only [NumberLiteral.decimal, NumberLiteral.places, Option.getD_none, List.append_nil,
        NumberLiteral.exponentValue, Binary64.ofDecimal, Numeral.nat_append,
        Numeral.nat_replicate_zero, Numeral.nat_ofNat, List.length_replicate]
      rw [hk, ← Binary64.decimalMagnitude_mul_pow hfinite, Nat.mul_comm]
      rfl

theorem exists_literal_toText {x : Binary64} (hx : x.isFinite = true) :
    ∃ l : NumberLiteral, l.text = x.toText ∧ Binary64.ofLiteral? l.text = some x := by
  have hfinite : x.magnitude < Binary64.infiniteMagnitude := of_decide_eq_true hx
  have hback := Binary64.decimalMagnitude_shortestDigits hfinite
  have hzero : (Binary64.shortestDigits x.magnitude).1 = 0 →
      (Binary64.shortestDigits x.magnitude).2 = 0 := by
    intro h
    rw [h, Binary64.decimalMagnitude_zero] at hback
    rw [← hback]
    rfl
  obtain ⟨l, htext, hl⟩ := exists_literal_positional hzero (by rwa [hback]) x.isNegative
  refine ⟨l, ?_, ?_⟩
  · have hnan : x.isNaN = false := decide_eq_false (by omega)
    rw [htext, Binary64.toText, hnan, if_neg Bool.false_ne_true, if_pos hx]
  · rw [ofLiteral?_text, hl, hback, Binary64.ofMagnitude_magnitude]

/-! ## Strings -/

/-- The codes below 32 are written with four digits each. -/
theorem hexQuad_of_lt : ∀ n < 32, (hexQuad n).length = 4 ∧
    (hexQuad n).all isHexDigit = true ∧ hexCode (hexQuad n) = n := by
  decide

theorem exists_piece (c : Char) :
    ∃ p : Piece, p.text = writeChar c ∧ p.units = Utf16.ofChar c := by
  unfold writeChar
  split
  · exact ⟨.short '"' '"' (by decide), rfl, rfl⟩
  · exact ⟨.short '\\' '\\' (by decide), rfl, rfl⟩
  · exact ⟨.short 'n' '\n' (by decide), rfl, rfl⟩
  · exact ⟨.short 'r' '\r' (by decide), rfl, rfl⟩
  · exact ⟨.short 't' '\t' (by decide), rfl, rfl⟩
  · next hquote hslash _ _ _ =>
    split
    · next hcontrol =>
      obtain ⟨hlength, hdigits, hcode⟩ := hexQuad_of_lt c.toNat hcontrol
      have hhex := List.all_eq_true.mp hdigits
      refine ⟨.unit (HexQuad.ofText (hexQuad c.toNat) hlength hhex), ?_, ?_⟩
      · rw [Piece.text, HexQuad.text_ofText]
      · rw [Piece.units, ← hexCode_text, HexQuad.text_ofText, hcode]
        exact (Utf16.ofChar_eq_singleton_iff.mpr ⟨rfl, by omega⟩).symm
    · next hplain =>
      have hspace : ' ' ≤ c := Char.le_def.mpr (UInt32.le_iff_toNat_le.mpr (Nat.not_lt.mp hplain))
      exact ⟨.plain c ⟨hspace, hquote, hslash⟩, rfl, rfl⟩

theorem exists_pieces (s : String) :
    ∃ ps : List Piece, quoted ps = writeString s ∧ DenotesString ps s := by
  have hpieces : ∀ t : Text, ∃ ps, piecesText ps = t.flatMap writeChar ∧
      piecesUnits ps = Utf16.encode t := by
    intro t
    induction t with
    | nil => exact ⟨[], rfl, rfl⟩
    | cons c t ih =>
      obtain ⟨p, htext, hunits⟩ := exists_piece c
      obtain ⟨ps, htexts, hrest⟩ := ih
      exact ⟨p :: ps, by rw [piecesText_cons, htext, htexts, List.flatMap_cons],
        by rw [piecesUnits_cons, hunits, hrest, Utf16.encode_cons]⟩
  obtain ⟨ps, htext, hunits⟩ := hpieces s.toList
  exact ⟨ps, by rw [quoted, htext, writeString], hunits⟩

/-! ## Values -/

theorem blank_of_mem_nil : ∀ c ∈ ([] : Text), c = ' ' ∨ c = '\t' ∨ c = '\n' ∨ c = '\r' :=
  List.forall_mem_nil _

/-- No blanks. -/
def noGap : Gap := ⟨[], blank_of_mem_nil⟩

mutual

/-- What is written for a value is a document that denotes the value and is as deep. -/
theorem exists_document {v : Json} (hkeys : v.All HasDistinctKeys) (hfinite : v.All IsFinite) :
    ∃ d : Document, d.text = v.write ∧ d.depth = v.depth ∧ d.Denotes v := by
  match v with
  | .null => exact ⟨.null, rfl, rfl, rfl⟩
  | .bool b => exact ⟨.bool b, by cases b <;> rfl, rfl, rfl⟩
  | .number x =>
    obtain ⟨l, htext, hl⟩ := exists_literal_toText hfinite
    exact ⟨.number l, htext, rfl, x, hl, hfinite, rfl⟩
  | .string s =>
    obtain ⟨ps, htext, hs⟩ := exists_pieces s
    exact ⟨.string ps, htext, rfl, s, hs, rfl⟩
  | .array [] => exact ⟨.emptyArray noGap, rfl, rfl, rfl⟩
  | .array (v :: vs) =>
    obtain ⟨es, htext, hdepth, hes⟩ := exists_elements_written (by simp) hkeys.2 hfinite.2
    exact ⟨.array es, by rw [Document.text, htext, write], by rw [Document.depth, hdepth, depth],
      _, hes, rfl⟩
  | .object [] => exact ⟨.emptyObject noGap, rfl, rfl, rfl⟩
  | .object (m :: ms) =>
    obtain ⟨members, htext, hdepth, hmembers⟩ :=
      exists_members_written (by simp) hkeys.2 hfinite.2
    exact ⟨.object members, by rw [Document.text, htext, write],
      by rw [Document.depth, hdepth, depth], _, hmembers, by rw [keepLast_of_nodup hkeys.1]⟩

theorem exists_elements_written {vs : List Json} (hne : vs ≠ [])
    (hkeys : AllItems HasDistinctKeys vs) (hfinite : AllItems IsFinite vs) :
    ∃ es : Elements, es.text = writeItems vs ∧ es.depth = depthItems vs ∧ es.Denotes vs := by
  match vs with
  | [] => exact absurd rfl hne
  | [v] =>
    obtain ⟨d, htext, hdepth, hd⟩ := exists_document hkeys.1 hfinite.1
    exact ⟨.last noGap d noGap, by simp [noGap, htext, writeItems],
      by simp [hdepth, depthItems], v, hd, rfl⟩
  | v :: w :: ws =>
    obtain ⟨d, htext, hdepth, hd⟩ := exists_document hkeys.1 hfinite.1
    obtain ⟨es, htexts, hdepths, hes⟩ := exists_elements_written (by simp) hkeys.2 hfinite.2
    exact ⟨.more noGap d noGap es, by simp [noGap, htext, htexts, writeItems],
      by rw [Elements.depth, hdepth, hdepths]; rfl, v, _, hd, hes, rfl⟩

theorem exists_members_written {ms : List (String × Json)} (hne : ms ≠ [])
    (hkeys : AllMembers HasDistinctKeys ms) (hfinite : AllMembers IsFinite ms) :
    ∃ members : Members, members.text = writeMembers ms ∧ members.depth = depthMembers ms ∧
      members.Denotes ms := by
  match ms with
  | [] => exact absurd rfl hne
  | [(k, v)] =>
    obtain ⟨ps, hkey, hk⟩ := exists_pieces k
    obtain ⟨d, htext, hdepth, hd⟩ := exists_document hkeys.1 hfinite.1
    exact ⟨.last noGap ps noGap noGap d noGap, by simp [noGap, hkey, htext, writeMembers],
      by simp [hdepth, depthMembers], k, v, hk, hd, rfl⟩
  | (k, v) :: n :: ns =>
    obtain ⟨ps, hkey, hk⟩ := exists_pieces k
    obtain ⟨d, htext, hdepth, hd⟩ := exists_document hkeys.1 hfinite.1
    obtain ⟨members, htexts, hdepths, hmembers⟩ :=
      exists_members_written (by simp) hkeys.2 hfinite.2
    exact ⟨.more noGap ps noGap noGap d noGap members,
      by simp [noGap, hkey, htext, htexts, writeMembers],
      by rw [Members.depth, hdepth, hdepths]; rfl, k, v, _, hk, hd, hmembers, rfl⟩

end

end Descent.Json
