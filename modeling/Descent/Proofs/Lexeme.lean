import Descent.Lexeme
import Descent.Proofs.Numeral
import Descent.Proofs.Parser.Repetition

/-!
# What lexemes read

A run of digits is read to its last, so a numeral is read whole only where no digit follows it.
-/

namespace Descent

open Numeral (IsDigits)

/-- Digits begin with no other character. -/
theorem Numeral.IsDigits.avoids {ds r : Text} (h : IsDigits ds) {p : Char → Bool}
    (hp : ∀ c, c.isDigit = true → p c = false) : Text.Avoids (ds ++ r) p := by
  cases ds with
  | nil => exact absurd rfl h.1
  | cons d ds => exact Text.avoids_cons.mpr (hp d (h.2 d List.mem_cons_self))

theorem Numeral.IsDigits.avoids_char {ds r : Text} (h : IsDigits ds) {c : Char}
    (hc : c.isDigit = false) : Text.Avoids (ds ++ r) (· == c) := by
  refine h.avoids fun d hd => beq_eq_false_iff_ne.mpr ?_
  rintro rfl
  rw [hc] at hd
  cases hd

namespace Lexeme

open Descent.Parser

variable {s r ds : Text} {c : Char}

theorem recognizes_digit : digit.Recognizes Char.isDigit := recognizes_satisfy _

theorem reads_digits : digits.Reads s ds r ↔ s = ds ++ r ∧ IsDigits ds ∧ r.Avoids Char.isDigit := by
  rw [digits, recognizes_digit.reads_many1, IsDigits, and_assoc]

theorem isNonzeroDigit_iff : ('1' ≤ c && c ≤ '9') = true ↔ c.isDigit = true ∧ c ≠ '0' := by
  have hzero : c ≠ '0' ↔ c.toNat ≠ 48 := not_congr Char.toNat_inj.symm
  simp only [Char.isDigit, Bool.and_eq_true, decide_eq_true_eq, hzero, Char.le_def,
    UInt32.le_iff_toNat_le, ge_iff_le]
  show 49 ≤ c.toNat ∧ c.toNat ≤ 57 ↔ (48 ≤ c.toNat ∧ c.toNat ≤ 57) ∧ c.toNat ≠ 48
  omega

/-- Digits that do not begin with a zero are one that is none and any others. -/
theorem isDigits_cons_iff :
    IsDigits (c :: ds) ∧ (c :: ds).head? ≠ some '0' ↔
      ('1' ≤ c && c ≤ '9') = true ∧ ∀ d ∈ ds, d.isDigit = true := by
  rw [isNonzeroDigit_iff, IsDigits, List.forall_mem_cons, List.head?_cons]
  simp only [ne_eq, reduceCtorEq, not_false_eq_true, true_and, Option.some.injEq]
  constructor
  · intro h
    obtain ⟨⟨hc, hds⟩, hzero⟩ := h
    exact ⟨⟨hc, hzero⟩, hds⟩
  · intro h
    obtain ⟨⟨hc, hzero⟩, hds⟩ := h
    exact ⟨⟨hc, hds⟩, hzero⟩

/-- The digits of a positive number, which do not begin with a zero. -/
theorem reads_positive :
    ((satisfy fun c => '1' ≤ c && c ≤ '9').both (many digit)).Reads s (c, ds) r ↔
      s = c :: (ds ++ r) ∧ (IsDigits (c :: ds) ∧ (c :: ds).head? ≠ some '0') ∧
        r.Avoids Char.isDigit := by
  rw [reads_both, digit, isDigits_cons_iff]
  simp only [reads_satisfy, reads_many_satisfy]
  constructor
  · intro h
    obtain ⟨t, ⟨rfl, hc⟩, rfl, hds, hr⟩ := h
    exact ⟨rfl, ⟨hc, hds⟩, hr⟩
  · intro h
    obtain ⟨rfl, ⟨hc, hds⟩, hr⟩ := h
    exact ⟨_, ⟨rfl, hc⟩, rfl, hds, hr⟩

theorem fails_zero (h : c ≠ '0') : (literal "0").Fails (c :: s) := by
  rw [fails_literal]
  simp [List.cons_prefix_cons, Ne.symm h]

/-- Digits convert to the number of 64 bits that they denote, if there is one. -/
theorem convertNumeral_eq_ok_iff {n : UInt64} (hds : IsDigits ds) :
    (convertNumeral (.unsigned 64) ds).map (fun n => UInt64.ofNat n.toNat) = .ok n ↔
      Numeral.nat ds = n.toNat := by
  rw [convertNumeral, Numeral.read_unsigned hds]
  by_cases h : Numeral.nat ds < 2 ^ 64
  · rw [if_pos h]
    show Except.ok (UInt64.ofNat (Numeral.nat ds)) = Except.ok n ↔ _
    rw [Except.ok.injEq, ← UInt64.toNat_inj, UInt64.toNat_ofNat_of_lt' h]
  · rw [if_neg h]
    constructor
    · intro hok
      cases hok
    · intro hn
      exact absurd (hn ▸ n.toNat_lt) h

end Lexeme
end Descent
