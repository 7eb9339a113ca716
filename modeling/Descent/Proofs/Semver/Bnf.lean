import Descent.Proofs.Numeral
import Descent.Semver.Basic

/-!
# The syntax of versions

The syntax of semantic versions, production by production, and which versions are in keeping with
it. The numbers of a version are bounded, since they are read as numbers of 64 bits; nothing else
is.
-/

namespace Descent.Version

open Numeral (IsDigits IsCanonical)

/-! ## Characters -/

/-- A letter or a hyphen. -/
def isNonDigit (c : Char) : Bool := c.isAlpha || c == '-'

/-- A letter, a digit or a hyphen. -/
def isIdentifierChar (c : Char) : Bool := c.isDigit || isNonDigit c

theorem isNonDigit_eq_false_of_isDigit {c : Char} (h : c.isDigit = true) : isNonDigit c = false :=
  Numeral.forall_isDigit (P := fun c => isNonDigit c = false) (by decide) h

/-- Among the characters of identifiers, all that are no digits are letters and hyphens. -/
theorem isNonDigit_iff {c : Char} (h : isIdentifierChar c = true) :
    isNonDigit c = true ↔ c.isDigit = false := by
  cases hc : c.isDigit with
  | false =>
    rw [isIdentifierChar, hc, Bool.false_or] at h
    simp [h]
  | true => simp [isNonDigit_eq_false_of_isDigit hc]

/-! ## Productions -/

namespace Bnf

/-- One character of a class or more. -/
inductive Run (p : Char → Bool) : Text → Prop where
  | one {c : Char} : p c = true → Run p [c]
  | more {c : Char} {t : Text} : p c = true → Run p t → Run p (c :: t)

abbrev Digits : Text → Prop := Run Char.isDigit

abbrev IdentifierChars : Text → Prop := Run isIdentifierChar

/-- A numeric identifier: a zero, or digits of which the first is positive. -/
inductive Numeric : Text → Prop where
  | zero : Numeric ['0']
  | positive {c : Char} : c.isDigit = true → c ≠ '0' → Numeric [c]
  | digits {c : Char} {t : Text} : c.isDigit = true → c ≠ '0' → Digits t → Numeric (c :: t)

/-- An alphanumeric identifier: something that is no digit, with or without characters before it
and after it. -/
inductive Alphanumeric : Text → Prop where
  | alone {c : Char} : isNonDigit c = true → Alphanumeric [c]
  | before {c : Char} {t : Text} : isNonDigit c = true → IdentifierChars t → Alphanumeric (c :: t)
  | after {c : Char} {t : Text} : IdentifierChars t → isNonDigit c = true → Alphanumeric (t ++ [c])
  | between {c : Char} {t u : Text} : IdentifierChars t → isNonDigit c = true →
      IdentifierChars u → Alphanumeric (t ++ c :: u)

/-- An identifier in a pre-release. -/
inductive PreReleaseIdentifier : Text → Prop where
  | alphanumeric {t : Text} : Alphanumeric t → PreReleaseIdentifier t
  | numeric {t : Text} : Numeric t → PreReleaseIdentifier t

/-- An identifier in a build. -/
inductive BuildIdentifier : Text → Prop where
  | alphanumeric {t : Text} : Alphanumeric t → BuildIdentifier t
  | digits {t : Text} : Digits t → BuildIdentifier t

/-- Identifiers with dots between them. -/
inductive Dotted (p : Text → Prop) : Text → Prop where
  | one {t : Text} : p t → Dotted p t
  | more {t u : Text} : p t → Dotted p u → Dotted p (t ++ '.' :: u)

/-- The three numbers, each of at most 64 bits. -/
inductive Core : Text → Prop where
  | mk {major minor patch : Text} : Numeric major → Numeric minor → Numeric patch →
      Numeral.nat major < 2 ^ 64 → Numeral.nat minor < 2 ^ 64 → Numeral.nat patch < 2 ^ 64 →
      Core (major ++ '.' :: (minor ++ '.' :: patch))

inductive Semver : Text → Prop where
  | core {c : Text} : Core c → Semver c
  | preRelease {c p : Text} : Core c → Dotted PreReleaseIdentifier p → Semver (c ++ '-' :: p)
  | build {c b : Text} : Core c → Dotted BuildIdentifier b → Semver (c ++ '+' :: b)
  | both {c p b : Text} : Core c → Dotted PreReleaseIdentifier p → Dotted BuildIdentifier b →
      Semver (c ++ '-' :: (p ++ '+' :: b))

theorem run_iff {p : Char → Bool} {t : Text} : Run p t ↔ t ≠ [] ∧ ∀ c ∈ t, p c = true := by
  constructor
  · intro h
    induction h with
    | one hc => exact ⟨by simp, by simpa using hc⟩
    | more hc _ ih => exact ⟨by simp, List.forall_mem_cons.mpr ⟨hc, ih.2⟩⟩
  · intro h
    obtain ⟨hne, hall⟩ := h
    induction t with
    | nil => exact absurd rfl hne
    | cons c t ih =>
      obtain ⟨hc, ht⟩ := List.forall_mem_cons.mp hall
      cases t with
      | nil => exact .one hc
      | cons d t => exact .more hc (ih (by simp) ht)

/-- Numeric identifiers are the numerals of numbers. -/
theorem numeric_iff {t : Text} : Numeric t ↔ IsCanonical t := by
  constructor
  · intro h
    cases h with
    | zero => exact Or.inl rfl
    | positive hc hzero => exact Or.inr ⟨⟨by simp, by simpa using hc⟩, by simpa using hzero⟩
    | digits hc hzero ht =>
      refine Or.inr ⟨⟨by simp, ?_⟩, by simpa using hzero⟩
      exact List.forall_mem_cons.mpr ⟨hc, (run_iff.mp ht).2⟩
  · rintro (rfl | ⟨⟨hne, hall⟩, hzero⟩)
    · exact .zero
    · cases t with
      | nil => exact absurd rfl hne
      | cons c t =>
        obtain ⟨hc, ht⟩ := List.forall_mem_cons.mp hall
        have hc' : c ≠ '0' := fun h => hzero (by rw [h]; rfl)
        cases t with
        | nil => exact .positive hc hc'
        | cons d t => exact .digits hc hc' (run_iff.mpr ⟨by simp, ht⟩)

/-- Alphanumeric identifiers have letters, digits and hyphens, and not digits alone. -/
theorem alphanumeric_iff {t : Text} :
    Alphanumeric t ↔ (∀ c ∈ t, isIdentifierChar c = true) ∧ ∃ c ∈ t, isNonDigit c = true := by
  have hchar : ∀ c, isNonDigit c = true → isIdentifierChar c = true := by
    intro c hc
    rw [isIdentifierChar, hc, Bool.or_true]
  constructor
  · intro h
    cases h with
    | alone hc => exact ⟨by simpa using hchar _ hc, _, List.mem_singleton_self _, hc⟩
    | before hc ht =>
      exact ⟨List.forall_mem_cons.mpr ⟨hchar _ hc, (run_iff.mp ht).2⟩, _, List.mem_cons_self, hc⟩
    | after ht hc =>
      refine ⟨List.forall_mem_append.mpr ⟨(run_iff.mp ht).2, by simpa using hchar _ hc⟩, _, ?_, hc⟩
      exact List.mem_append_right _ (List.mem_singleton_self _)
    | between ht hc hu =>
      refine ⟨List.forall_mem_append.mpr ⟨(run_iff.mp ht).2, ?_⟩, _, ?_, hc⟩
      · exact List.forall_mem_cons.mpr ⟨hchar _ hc, (run_iff.mp hu).2⟩
      · exact List.mem_append_right _ List.mem_cons_self
  · intro h
    obtain ⟨hall, c, hmem, hc⟩ := h
    obtain ⟨t, u, rfl⟩ := List.append_of_mem hmem
    obtain ⟨ht, hu⟩ := List.forall_mem_append.mp hall
    have hu := (List.forall_mem_cons.mp hu).2
    cases t with
    | nil => cases u with
      | nil => exact .alone hc
      | cons d u => exact .before hc (run_iff.mpr ⟨by simp, hu⟩)
    | cons d t => cases u with
      | nil => exact .after (run_iff.mpr ⟨by simp, ht⟩) hc
      | cons e u => exact .between (run_iff.mpr ⟨by simp, ht⟩) hc (run_iff.mpr ⟨by simp, hu⟩)

/-- A build takes any characters of identifiers, and at least one. -/
theorem buildIdentifier_iff {t : Text} :
    BuildIdentifier t ↔ t ≠ [] ∧ ∀ c ∈ t, isIdentifierChar c = true := by
  constructor
  · intro h
    cases h with
    | alphanumeric h =>
      obtain ⟨hall, c, hc, -⟩ := alphanumeric_iff.mp h
      exact ⟨List.ne_nil_of_mem hc, hall⟩
    | digits h =>
      obtain ⟨hne, hall⟩ := run_iff.mp h
      exact ⟨hne, fun c hc => by rw [isIdentifierChar, hall c hc, Bool.true_or]⟩
  · rintro ⟨hne, hall⟩
    by_cases h : ∃ c ∈ t, isNonDigit c = true
    · exact .alphanumeric (alphanumeric_iff.mpr ⟨hall, h⟩)
    · refine .digits (run_iff.mpr ⟨hne, fun c hc => ?_⟩)
      have hc' : isNonDigit c ≠ true := fun hnon => h ⟨c, hc, hnon⟩
      simpa [isNonDigit_iff (hall c hc)] using hc'

/-- Pre-releases take identifiers with a letter or hyphen, and the digits of a number. -/
theorem preReleaseIdentifier_iff {t : Text} :
    PreReleaseIdentifier t ↔ Alphanumeric t ∨ IsCanonical t := by
  rw [← numeric_iff]
  constructor
  · intro h
    cases h with
    | alphanumeric h => exact Or.inl h
    | numeric h => exact Or.inr h
  · intro h
    exact h.elim .alphanumeric .numeric

/-- A build takes the identifiers of pre-releases, and others. -/
theorem PreReleaseIdentifier.build {t : Text} (h : PreReleaseIdentifier t) :
    BuildIdentifier t := by
  rcases preReleaseIdentifier_iff.mp h with h | h
  · exact .alphanumeric h
  · exact .digits (run_iff.mpr h.isDigits)

end Bnf

/-! ## Versions in keeping with the syntax -/

/-- A zero, digits without a leading zero, or letters, digits and hyphens that are not digits
alone. -/
def IsPreReleaseIdentifier (t : Text) : Prop :=
  t = ['0'] ∨ (IsDigits t ∧ t.head? ≠ some '0') ∨
    t ≠ [] ∧ (∀ c ∈ t, isIdentifierChar c = true) ∧ ∃ c ∈ t, c.isDigit = false

/-- Letters, digits and hyphens. -/
def IsBuildIdentifier (t : Text) : Prop := t ≠ [] ∧ ∀ c ∈ t, isIdentifierChar c = true

/-- All identifiers of the version are in keeping with the syntax. -/
structure Valid (v : Version) : Prop where
  preRelease : ∀ w ∈ v.preRelease, IsPreReleaseIdentifier w.toList
  build : ∀ w ∈ v.build, IsBuildIdentifier w.toList

theorem isPreReleaseIdentifier_iff {t : Text} :
    IsPreReleaseIdentifier t ↔ Bnf.PreReleaseIdentifier t := by
  have halphanumeric :
      (t ≠ [] ∧ (∀ c ∈ t, isIdentifierChar c = true) ∧ ∃ c ∈ t, c.isDigit = false) ↔
        Bnf.Alphanumeric t := by
    rw [Bnf.alphanumeric_iff]
    constructor
    · intro h
      obtain ⟨-, hall, c, hc, hdigit⟩ := h
      exact ⟨hall, c, hc, (isNonDigit_iff (hall c hc)).mpr hdigit⟩
    · intro h
      obtain ⟨hall, c, hc, hnon⟩ := h
      exact ⟨List.ne_nil_of_mem hc, hall, c, hc, (isNonDigit_iff (hall c hc)).mp hnon⟩
  rw [IsPreReleaseIdentifier, halphanumeric, ← or_assoc, Bnf.preReleaseIdentifier_iff, IsCanonical,
    or_comm]

end Descent.Version
