import Descent.Proofs.Lexeme

/-!
# Integers at their limits

An integer is read to the last of its digits, whatever number they denote, and only then compared
with its range. So a run ends in one of three ways (`AtLimits`): the digits are missing, or they
denote a number of the range, or one outside it, and then the failure quotes the whole numeral with
its sign. In particular the decimal text of an integer of 64 bits is read as that integer
(`integer_limits`).
-/

namespace Descent.Lexeme

open Descent.Parser
open Numeral (IsDigits confine)

variable {α β : Type} {s t r : Text}

/-! ## Digits at the start of a text -/

/-- The digits at the start of a text, up to the first character that is none. -/
def leadingDigits (t : Text) : Text := t.takeWhile Char.isDigit

/-- The number that the digits at the start of a text denote. -/
def leadingNumber (t : Text) : Int := Numeral.nat (leadingDigits t)

theorem isDigits_leadingDigits (h : leadingDigits t ≠ []) : IsDigits (leadingDigits t) :=
  ⟨h, List.all_eq_true.mp List.all_takeWhile⟩

/-- All digits at the start of a text are read. -/
theorem reads_leadingDigits (h : leadingDigits t ≠ []) :
    digits.Reads t (leadingDigits t) (t.dropWhile Char.isDigit) :=
  reads_digits.mpr ⟨List.takeWhile_append_dropWhile.symm, isDigits_leadingDigits h,
    Text.avoids_dropWhile t _⟩

theorem avoids_of_leadingDigits (h : leadingDigits t = []) : t.Avoids Char.isDigit := by
  have hdrop := Text.avoids_dropWhile t Char.isDigit
  rwa [← List.nil_append (t.dropWhile _), ← h, leadingDigits, List.takeWhile_append_dropWhile]
    at hdrop

theorem outcome_digit (h : t.Avoids Char.isDigit) :
    (digit t).outcome = .failure (if t = [] then Cause.emptyInput else Cause.unexpected t) := by
  cases t with
  | nil => rfl
  | cons c t =>
    rw [if_neg (List.cons_ne_nil c t), digit, satisfy, item, Reply.next_success,
      if_neg (by rw [Text.avoids_cons.mp h]; decide)]
    rfl

/-! ## Numerals of a range -/

/-- The ends of a run that reads an integer of a range from `s`, where `sign` is its sign and its
digits are looked for at the start of `t`. -/
structure AtLimits (p : Parser α) (value : α → Int) (range : IntRange) (sign : Int) (s t : Text) :
    Prop where
  missing : leadingDigits t = [] → ∃ f, (digit t).outcome = .failure f ∧
    (p s).outcome = .failure f ∧
    f.message = if t = [] then "Empty input" else "Invalid input: " ++ t.snippet
  within : leadingDigits t ≠ [] → range.least ≤ sign * leadingNumber t →
    sign * leadingNumber t ≤ range.greatest →
    ∃ a, value a = sign * leadingNumber t ∧ p.Reads s a (t.dropWhile Char.isDigit)
  above : leadingDigits t ≠ [] → range.greatest < sign * leadingNumber t →
    ∃ f, (p s).outcome = .failure f ∧
      f.message = "number too large to fit in target type. Invalid input: " ++ s.snippet
  below : leadingDigits t ≠ [] → sign * leadingNumber t < range.least →
    ∃ f, (p s).outcome = .failure f ∧
      f.message = "number too small to fit in target type. Invalid input: " ++ s.snippet

/-- A parser that reads digits, and converts them with their sign to an integer of a range, ends as
it should. -/
theorem atLimits_convert {q : Parser β} (signed : Text → β) {f : β → Except String α}
    {ofInt : Int → α} {value : α → Int} {range : IntRange} {sign : Int}
    (hrange : range.least ≤ range.greatest)
    (hmissing : ∀ g, (digits t).outcome = .failure g → (q s).outcome = .failure g)
    (hreads : ∀ ds r, digits.Reads t ds r → q.Reads s (signed ds) r)
    (hconvert : ∀ ds, IsDigits ds → f (signed ds) =
      ((confine range (sign * Numeral.nat ds)).mapError NumeralError.message).map ofInt)
    (hvalue : ∀ n, range.least ≤ n → n ≤ range.greatest → value (ofInt n) = n) :
    AtLimits (q.convert f) value range sign s t := by
  have hread (h : leadingDigits t ≠ []) := hreads _ _ (reads_leadingDigits h)
  have hconvert (h : leadingDigits t ≠ []) := hconvert _ (isDigits_leadingDigits h)
  refine ⟨?missing, ?within, ?above, ?below⟩
  case missing =>
    intro h
    have hdigit := outcome_digit (avoids_of_leadingDigits h)
    have hdigits : (digits t).outcome = _ := outcome_many1_of_failure hdigit
    refine ⟨_, hdigit, outcome_convert_of_failure (hmissing _ hdigits), ?_⟩
    split <;> rfl
  case within =>
    intro h hleast hgreatest
    have hf : f (signed (leadingDigits t)) = .ok (ofInt (sign * leadingNumber t)) := by
      rw [hconvert h, ← leadingNumber, confine, if_neg (Int.not_lt.mpr hleast),
        if_neg (Int.not_lt.mpr hgreatest)]
      rfl
    exact ⟨_, hvalue _ hleast hgreatest, reads_convert.mpr ⟨_, hread h, hf⟩⟩
  case above =>
    intro h hgreatest
    have hf : f (signed (leadingDigits t)) = .error (NumeralError.message .tooLarge) := by
      rw [hconvert h, ← leadingNumber, confine, if_neg (by omega), if_pos hgreatest]
      rfl
    exact ⟨_, (hread h).outcome_convert hf, rfl⟩
  case below =>
    intro h hleast
    have hf : f (signed (leadingDigits t)) = .error (NumeralError.message .tooSmall) := by
      rw [hconvert h, ← leadingNumber, confine, if_pos hleast]
      rfl
    exact ⟨_, (hread h).outcome_convert hf, rfl⟩

/-- The decimal text of a number of the range is read as that number, up to the end of its
digits. -/
theorem AtLimits.reads_ofNat {p : Parser α} {value : α → Int} {range : IntRange} {sign : Int}
    {m : Nat} (h : AtLimits p value range sign s (Numeral.ofNat m ++ r))
    (hvalue : Function.Injective value) (hr : r.Avoids Char.isDigit) {a : α}
    (ha : value a = sign * m) (hleast : range.least ≤ value a)
    (hgreatest : value a ≤ range.greatest) : p.Reads s a r := by
  have hm := Numeral.isDigits_ofNat m
  have hdigits : leadingDigits (Numeral.ofNat m ++ r) = Numeral.ofNat m :=
    Text.takeWhile_append_of_avoids hm.2 hr
  have hnumber : sign * leadingNumber (Numeral.ofNat m ++ r) = value a := by
    rw [leadingNumber, hdigits, Numeral.nat_ofNat, ha]
  have hne : leadingDigits (Numeral.ofNat m ++ r) ≠ [] := by
    rw [hdigits]
    exact hm.1
  obtain ⟨b, hb, hreads⟩ := h.within hne (hnumber ▸ hleast) (hnumber ▸ hgreatest)
  rw [Text.dropWhile_append_of_avoids hm.2 hr] at hreads
  exact hvalue (hb.trans hnumber) ▸ hreads

/-! ## Integers of 64 bits -/

/-- The integers of 64 bits without a sign. -/
def unsignedRange : IntRange := ⟨0, 18446744073709551615⟩

/-- The integers of 64 bits with a sign: one more of them is negative. -/
def signedRange : IntRange := ⟨-9223372036854775808, 9223372036854775807⟩

theorem unsigned_eq : IntRange.unsigned 64 = unsignedRange := rfl

theorem signed_eq : IntRange.signed 64 = signedRange := rfl

theorem toNat_ofNat_toNat {n : Int} (hleast : 0 ≤ n) (hgreatest : n ≤ 18446744073709551615) :
    ((UInt64.ofNat n.toNat).toNat : Int) = n := by
  rw [UInt64.toNat_ofNat_of_lt' (show n.toNat < 18446744073709551616 by omega),
    Int.toNat_of_nonneg hleast]

theorem toInt_ofInt {n : Int} (hleast : -9223372036854775808 ≤ n)
    (hgreatest : n ≤ 9223372036854775807) : (Int64.ofInt n).toInt = n :=
  Int64.toInt_ofInt_of_le (by omega) (by omega)

theorem atLimits_natural (s : Text) :
    AtLimits natural (fun n => n.toNat) unsignedRange 1 s s := by
  refine atLimits_convert id (by decide) (fun _ hg => hg) (fun _ _ h => h) ?_
    fun _ => toNat_ofNat_toNat
  intro ds hds
  rw [convertNumeral, unsigned_eq, id, Numeral.read_digits (by decide) (by decide) hds,
    Int.one_mul]

/-- What a minus sign or none makes of the digits after it decides how an integer is read. -/
theorem atLimits_signed {mark : Option Char} {sign : Int}
    (hmark : (char '-').optional.Reads s mark t)
    (hread : ∀ ds, IsDigits ds →
      Numeral.read signedRange (mark.toList ++ ds) = confine signedRange (sign * Numeral.nat ds)) :
    AtLimits integer Int64.toInt signedRange sign s t := by
  refine atLimits_convert (fun ds => (mark, ds)) (by decide)
    (fun _ hg => hmark.outcome_both hg) (fun _ _ h => reads_both.mpr ⟨t, hmark, h⟩) ?_
    fun _ => toInt_ofInt
  intro ds hds
  show (convertNumeral (.signed 64) (mark.toList ++ ds)).map Int64.ofInt = _
  rw [convertNumeral, signed_eq, hread ds hds]

theorem atLimits_integer (h : s.head? ≠ some '-') :
    AtLimits integer Int64.toInt signedRange 1 s s := by
  have hmark : (char '-').Fails s := by
    refine fails_char.mpr fun c hc => beq_eq_false_iff_ne.mpr ?_
    rintro rfl
    exact h hc
  refine atLimits_signed (reads_optional.mpr (Or.inr ⟨rfl, rfl, hmark⟩)) fun ds hds => ?_
  rw [Int.one_mul]
  exact Numeral.read_digits (by decide) (by decide) hds

theorem atLimits_integer_neg (t : Text) :
    AtLimits integer Int64.toInt signedRange (-1) ('-' :: t) t := by
  have hmark : (char '-').Reads ('-' :: t) '-' t := reads_char.mpr ⟨rfl, rfl⟩
  refine atLimits_signed (reads_optional.mpr (Or.inl ⟨'-', rfl, hmark⟩)) fun ds hds => ?_
  rw [Int.neg_one_mul]
  exact Numeral.read_negative (by decide) (by decide) hds

theorem reads_toString_natural (n : UInt64) (hr : r.Avoids Char.isDigit) :
    natural.Reads ((toString n).toList ++ r) n r := by
  have hn := n.toNat_lt
  have hinj : Function.Injective fun n : UInt64 => (n.toNat : Int) :=
    fun _ _ h => UInt64.toNat_inj.mp (Int.ofNat.inj h)
  rw [Numeral.toList_toString]
  exact (atLimits_natural _).reads_ofNat hinj hr (Int.one_mul _).symm
    (show (0 : Int) ≤ n.toNat by omega) (show (n.toNat : Int) ≤ 18446744073709551615 by omega)

theorem reads_toString_integer (n : Int64) (hr : r.Avoids Char.isDigit) :
    integer.Reads ((toString n).toList ++ r) n r := by
  have hleast : signedRange.least ≤ n.toInt := n.le_toInt
  have hgreatest : n.toInt ≤ signedRange.greatest := Int.le_of_lt_add_one n.toInt_lt
  have hinj : Function.Injective Int64.toInt := fun _ _ => Int64.toInt_inj.mp
  have htext : toString n = n.toInt.repr := rfl
  rw [htext]
  rcases hn : n.toInt with m | m
  · have hm : (Int.repr (Int.ofNat m)).toList = Numeral.ofNat m := String.toList_ofList
    rw [hm]
    refine (atLimits_integer fun hhead => ?_).reads_ofNat hinj hr (hn.trans (Int.one_mul _).symm)
      hleast hgreatest
    have havoids := (Numeral.isDigits_ofNat m).avoids_char (r := r) (c := '-') (by decide)
    exact absurd (havoids '-' hhead) (by decide)
  · have hm : (Int.repr (Int.negSucc m)).toList = '-' :: Numeral.ofNat (m + 1) := by
      show ("-" ++ (m + 1).repr).toList = _
      rw [String.toList_append]
      exact congrArg _ String.toList_ofList
    rw [hm]
    exact (atLimits_integer_neg _).reads_ofNat hinj hr (hn.trans (by omega)) hleast hgreatest

/-- Integers of 64 bits are read with all their digits, if they are in range, and the decimal text
of each is read as that integer where no digit comes after it. -/
theorem integer_limits (s : Text) :
    AtLimits natural (fun n => n.toNat) unsignedRange 1 s s ∧
    (s.head? ≠ some '-' → AtLimits integer Int64.toInt signedRange 1 s s) ∧
    (∀ t, s = '-' :: t → AtLimits integer Int64.toInt signedRange (-1) s t) ∧
    (s.Avoids Char.isDigit →
      (∀ n : UInt64, natural.Reads ((toString n).toList ++ s) n s) ∧
      ∀ n : Int64, integer.Reads ((toString n).toList ++ s) n s) := by
  refine ⟨atLimits_natural s, atLimits_integer, ?_, ?_⟩
  · intro t ht
    subst ht
    exact atLimits_integer_neg t
  · intro hs
    exact ⟨fun n => reads_toString_natural n hs, fun n => reads_toString_integer n hs⟩

/-- The least integer has no positive counterpart, and the one below it and the one above the
greatest are out of range. -/
theorem integer_limits_least :
    integer.Reads "-9223372036854775808x".toList (-9223372036854775808) ['x'] ∧
      (∃ f, (integer "-9223372036854775809".toList).outcome = .failure f ∧
        f.message = "number too small to fit in target type. Invalid input: -922337203...") ∧
      ∃ f, (integer "9223372036854775808".toList).outcome = .failure f ∧
        f.message = "number too large to fit in target type. Invalid input: 9223372036..." := by
  have hleast := ((integer_limits ['x']).2.2.2 (by decide)).2 (-9223372036854775808)
  have hbelow := (integer_limits "-9223372036854775809".toList).2.2.1 _ rfl
  have habove := (integer_limits "9223372036854775808".toList).2.1 (by decide)
  exact ⟨hleast, hbelow.below (by decide) (by decide), habove.above (by decide) (by decide)⟩

end Descent.Lexeme
