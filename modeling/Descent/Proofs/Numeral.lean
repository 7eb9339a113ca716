import Descent.Numeral
import Descent.Text.Snippet
import Mathlib.Algebra.Group.Nat.Defs
import Mathlib.Data.List.Basic
import Mathlib.Data.List.Induction

/-!
# Decimal numerals

The numeral of a natural number is a run of digits that does not begin with a zero, or is one, and
every such run is the numeral of the number that it denotes (`isCanonical_iff`).
-/

namespace Descent.Numeral

/-- A run of decimal digits that is not empty. -/
def IsDigits (t : Text) : Prop := t ≠ [] ∧ ∀ c ∈ t, c.isDigit = true

/-- A zero, or digits that do not begin with one. -/
def IsCanonical (t : Text) : Prop := t = ['0'] ∨ IsDigits t ∧ t.head? ≠ some '0'

/-- The characters of an interval of codes, one by one. -/
theorem forall_between {P : Char → Prop} (first count : Nat)
    (h : ∀ i < count, P (Char.ofNat (first + i))) {c : Char} (hlo : first ≤ c.toNat)
    (hhi : c.toNat < first + count) : P c := by
  have hc := h (c.toNat - first) (by omega)
  rwa [Nat.add_sub_cancel' hlo, Char.ofNat_toNat] at hc

/-- The ten digits, one by one. -/
theorem forall_isDigit {P : Char → Prop} (h : ∀ i < 10, P (Char.ofNat (48 + i))) {c : Char}
    (hc : c.isDigit = true) : P c := by
  have hcode : 48 ≤ c.toNat ∧ c.toNat ≤ 57 := by
    simpa [Char.isDigit, UInt32.le_iff_toNat_le] using hc
  exact forall_between 48 10 h hcode.1 (Nat.lt_succ_of_le hcode.2)

theorem IsCanonical.isDigits {t : Text} (h : IsCanonical t) : IsDigits t := by
  rcases h with rfl | h
  · exact ⟨by simp, by simp⟩
  · exact h.1

/-! ## Values of digits -/

theorem natFrom_nil (v : Nat) : natFrom v [] = v := (rfl)

theorem natFrom_cons (v : Nat) (c : Char) (t : Text) :
    natFrom v (c :: t) = natFrom (10 * v + digitValue c) t := (rfl)

theorem natFrom_eq_ofDigitChars (v : Nat) (t : Text) : natFrom v t = Nat.ofDigitChars 10 t v := by
  induction t generalizing v with
  | nil => rw [Nat.ofDigitChars_nil, natFrom_nil]
  | cons c t ih => rw [natFrom_cons, ih, Nat.ofDigitChars_cons, digitValue]

theorem nat_append (t u : Text) : nat (t ++ u) = 10 ^ u.length * nat t + nat u := by
  rw [nat, nat, nat, natFrom_eq_ofDigitChars, natFrom_eq_ofDigitChars, natFrom_eq_ofDigitChars,
    Nat.ofDigitChars_append, Nat.ofDigitChars_eq_ofDigitChars_zero]

@[simp] theorem nat_ofNat (n : Nat) : nat (ofNat n) = n := by
  rw [nat, natFrom_eq_ofDigitChars, ofNat, Nat.ofDigitChars_ten_toDigits]

@[simp] theorem nat_replicate_zero (n : Nat) : nat (List.replicate n '0') = 0 := by
  rw [nat, natFrom_eq_ofDigitChars, Nat.ofDigitChars_replicate_zero, Nat.mul_zero]

/-! ## Numerals of numbers -/

/-- An integer is shown by its numeral. -/
theorem toList_toString (n : UInt64) : (toString n).toList = ofNat n.toNat :=
  String.toList_ofList

theorem isDigits_ofNat (n : Nat) : IsDigits (ofNat n) :=
  ⟨Nat.toDigits_ne_nil, fun _ => Nat.isDigit_of_mem_toDigits (by decide) (by decide)⟩

theorem ofNat_of_lt {n : Nat} (h : n < 10) : ofNat n = [n.digitChar] :=
  Nat.toDigits_of_lt_base h

theorem ofNat_of_le {n : Nat} (h : 10 ≤ n) :
    ofNat n = ofNat (n / 10) ++ [(n % 10).digitChar] :=
  Nat.toDigits_of_base_le (by decide) h

/-- The digits of a positive number do not begin with a zero. -/
theorem head?_ofNat_ne_zero {n : Nat} (h : 0 < n) : (ofNat n).head? ≠ some '0' := by
  induction n using Nat.strongRecOn with
  | ind n ih =>
    rcases Nat.lt_or_ge n 10 with hn | hn
    · rw [ofNat_of_lt hn, List.head?_cons]
      intro hzero
      have := Nat.digitChar_eq_zero.mp (Option.some.inj hzero)
      omega
    · rw [ofNat_of_le hn, List.head?_append_of_ne_nil _ (isDigits_ofNat _).1]
      exact ih (n / 10) (by omega) (by omega)

theorem isCanonical_ofNat (n : Nat) : IsCanonical (ofNat n) := by
  cases n with
  | zero => exact Or.inl rfl
  | succ n => exact Or.inr ⟨isDigits_ofNat _, head?_ofNat_ne_zero (Nat.succ_pos n)⟩

theorem digitChar_digitValue {c : Char} (h : c.isDigit = true) :
    digitValue c < 10 ∧ (digitValue c).digitChar = c :=
  forall_isDigit (P := fun c => digitValue c < 10 ∧ (digitValue c).digitChar = c) (by decide) h

/-- Digits that do not begin with a zero are those of the number they denote. -/
theorem ofNat_nat_of_head? {t : Text} (ht : ∀ c ∈ t, c.isDigit = true) (hne : t ≠ [])
    (hhead : t.head? ≠ some '0') : 0 < nat t ∧ ofNat (nat t) = t := by
  -- The last digit is the one that `ofNat` takes off.
  induction t using List.reverseRecOn with
  | nil => exact absurd rfl hne
  | append_singleton t c ih =>
    obtain ⟨hlt, hchar⟩ := digitChar_digitValue (ht c (by simp))
    have hnat : nat (t ++ [c]) = 10 * nat t + digitValue c := by
      rw [nat_append, List.length_singleton, Nat.pow_one, nat, nat, natFrom_cons, natFrom_nil,
        Nat.mul_zero, Nat.zero_add]
    rw [hnat]
    by_cases hnil : t = []
    · subst hnil
      have hpos : digitValue c ≠ 0 := by
        intro hzero
        rw [hzero] at hchar
        exact hhead (by rw [List.nil_append, List.head?_cons, ← hchar]; rfl)
      rw [nat, natFrom_nil, Nat.mul_zero, Nat.zero_add, ofNat_of_lt hlt, hchar, List.nil_append]
      exact ⟨Nat.pos_of_ne_zero hpos, rfl⟩
    · rw [List.head?_append_of_ne_nil _ hnil] at hhead
      obtain ⟨hpos, heq⟩ := ih (fun d hd => ht d (by simp [hd])) hnil hhead
      refine ⟨by omega, ?_⟩
      rw [ofNat_of_le (by omega), show (10 * nat t + digitValue c) / 10 = nat t by omega,
        show (10 * nat t + digitValue c) % 10 = digitValue c by omega, heq, hchar]

theorem ofNat_nat {t : Text} (h : IsCanonical t) : ofNat (nat t) = t := by
  rcases h with rfl | ⟨ht, hhead⟩
  · rfl
  · exact (ofNat_nat_of_head? ht.2 ht.1 hhead).2

/-- The numerals of numbers are the runs of digits without leading zeros. -/
theorem isCanonical_iff {t : Text} : IsCanonical t ↔ ∃ n, t = ofNat n := by
  constructor
  · intro h
    exact ⟨nat t, (ofNat_nat h).symm⟩
  · intro h
    obtain ⟨n, rfl⟩ := h
    exact isCanonical_ofNat n

/-! ## Reading numerals -/

theorem le_natFrom (v : Nat) (t : Text) : v ≤ natFrom v t := by
  induction t generalizing v with
  | nil => exact Nat.le_refl v
  | cons c t ih =>
    have h := ih (10 * v + digitValue c)
    rw [natFrom_cons]
    omega

/-- More digits make a number larger, so a limit that is exceeded on the way is exceeded at the
end. -/
theorem readMagnitude_eq {limit v : Nat} {overflow : NumeralError} {t : Text}
    (ht : ∀ c ∈ t, c.isDigit = true) (hv : v ≤ limit) :
    readMagnitude limit overflow v t =
      if limit < natFrom v t then .error overflow else .ok (natFrom v t) := by
  induction t generalizing v with
  | nil => rw [readMagnitude, natFrom_nil, if_neg (Nat.not_lt.mpr hv)]
  | cons c t ih =>
    obtain ⟨hc, ht⟩ := List.forall_mem_cons.mp ht
    rw [readMagnitude, if_pos hc, natFrom_cons]
    by_cases h : limit < 10 * v + digitValue c
    · have hle := le_natFrom (10 * v + digitValue c) t
      rw [if_pos h, if_pos (Nat.lt_of_lt_of_le h hle)]
    · rw [if_neg h, ih ht (Nat.not_lt.mp h)]

/-- An integer that is in the range, or on which side of the range it is. -/
def confine (range : IntRange) (n : Int) : Except NumeralError Int :=
  if n < range.least then .error .tooSmall
  else if range.greatest < n then .error .tooLarge
  else .ok n

theorem confine_natCast {range : IntRange} (hleast : range.least ≤ 0) (n : Nat) :
    confine range n = if range.greatest < n then .error .tooLarge else .ok (n : Int) := by
  rw [confine, if_neg (by omega)]

theorem confine_neg {range : IntRange} (hgreatest : 0 ≤ range.greatest) (n : Nat) :
    confine range (-n) = if -n < range.least then .error .tooSmall else .ok (-n : Int) := by
  rw [confine, if_neg (show ¬ range.greatest < -n by omega)]

/-- A run of digits is read as the number that it denotes, if the range has it. -/
theorem read_digits {range : IntRange} (hleast : range.least ≤ 0) (hgreatest : 0 ≤ range.greatest)
    {t : Text} (ht : IsDigits t) : read range t = confine range (nat t) := by
  obtain ⟨c, t, rfl⟩ := List.exists_cons_of_ne_nil ht.1
  have hc := ht.2 c List.mem_cons_self
  have hread : read range (c :: t) =
      (readMagnitude range.greatest.toNat .tooLarge 0 (c :: t)).map Int.ofNat := by
    unfold read
    split
    · next h => cases h
    · next h =>
      obtain ⟨rfl, -⟩ := List.cons.inj h
      cases hc
    · next h =>
      obtain ⟨rfl, -⟩ := List.cons.inj h
      cases hc
    · rfl
  rw [hread, readMagnitude_eq ht.2 (Nat.zero_le _), ← nat, confine_natCast hleast]
  by_cases h : range.greatest < nat (c :: t)
  · rw [if_pos h, if_pos (by omega)]
    rfl
  · rw [if_neg h, if_neg (by omega)]
    rfl

/-- After a minus sign, it is read as the negative of that number. -/
theorem read_negative {range : IntRange} (hleast : range.least < 0)
    (hgreatest : 0 ≤ range.greatest) {t : Text} (ht : IsDigits t) :
    read range ('-' :: t) = confine range (-nat t) := by
  have hread : read range ('-' :: t) =
      (readMagnitude (-range.least).toNat .tooSmall 0 t).map fun n => -Int.ofNat n := by
    rw [read, if_pos hleast, readNegative]
    exact ht.1
  rw [hread, readMagnitude_eq ht.2 (Nat.zero_le _), ← nat, confine_neg hgreatest]
  by_cases h : (-nat t : Int) < range.least
  · rw [if_pos h, if_pos (by omega)]
    rfl
  · rw [if_neg h, if_neg (by omega)]
    rfl

/-- A run of digits is read as the number that it denotes, if the bits are enough for it. -/
theorem read_unsigned {bits : Nat} {t : Text} (ht : IsDigits t) :
    read (.unsigned bits) t =
      if nat t < 2 ^ bits then .ok (Int.ofNat (nat t)) else .error .tooLarge := by
  have hpos : 0 < 2 ^ bits := Nat.two_pow_pos bits
  have hleast : (IntRange.unsigned bits).least ≤ 0 := Int.le_refl 0
  have hgreatest : (IntRange.unsigned bits).greatest = (2 ^ bits : Nat) - 1 := rfl
  rw [read_digits hleast (by omega) ht, confine_natCast hleast, hgreatest]
  by_cases h : nat t < 2 ^ bits
  · rw [if_pos h, if_neg (by omega)]
    rfl
  · rw [if_neg h, if_pos (by omega)]

end Descent.Numeral
