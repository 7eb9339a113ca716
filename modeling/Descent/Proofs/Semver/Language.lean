import Descent.Proofs.Semver.Identifier

/-!
# The language of the version parser

A text is read as a version exactly if it is what is written for that version and the identifiers
of the version are in keeping with the syntax (`language_exact`). The texts that are read are those
that the productions derive, and each of them is the text of one version only.
-/

namespace Descent.Version

open Descent.Parser
open Numeral (IsCanonical)

variable {s t r : Text} {v : Version}

/-! ## Numbers -/

/-- The numbers of a version, with dots between them. -/
def writeCore (major minor patch : UInt64) : Text :=
  Numeral.ofNat major.toNat ++
    '.' :: (Numeral.ofNat minor.toNat ++ '.' :: Numeral.ofNat patch.toNat)

theorem write_eq (v : Version) :
    v.write = writeCore v.major v.minor v.patch ++
      (writeIdentifiers '-' v.preRelease ++ writeIdentifiers '+' v.build) := by
  simp [write, writeCore]

/-- A zero is read whatever follows it, since no digit may follow it in a number anyway. -/
theorem reads_coreNumber {n : UInt64} :
    coreNumber.Reads s n r ↔
      s = Numeral.ofNat n.toNat ++ r ∧ (n = 0 ∨ r.Avoids Char.isDigit) := by
  rw [coreNumber, reads_convert]
  constructor
  · intro h
    obtain ⟨w, hw, hn⟩ := h
    obtain ⟨rfl, hkind⟩ := reads_numericIdentifier.mp hw
    have hcanonical : IsCanonical w.toList := hkind.imp_right And.left
    have hnat := (Lexeme.convertNumeral_eq_ok_iff hcanonical.isDigits).mp hn
    refine ⟨by rw [← hnat, Numeral.ofNat_nat hcanonical], hkind.imp ?_ And.right⟩
    intro hzero
    rw [hzero] at hnat
    exact UInt64.toNat_inj.mp hnat.symm
  · rintro ⟨rfl, hr⟩
    have hdigits := Numeral.isDigits_ofNat n.toNat
    refine ⟨String.ofList (Numeral.ofNat n.toNat), ?_, ?_⟩
    · rw [reads_numericIdentifier, String.toList_ofList]
      refine ⟨rfl, ?_⟩
      by_cases hzero : n = 0
      · rw [hzero]
        exact Or.inl rfl
      · have hpos : 0 < n.toNat :=
          Nat.pos_of_ne_zero fun h => hzero (UInt64.toNat_inj.mp h)
        exact Or.inr ⟨⟨hdigits, Numeral.head?_ofNat_ne_zero hpos⟩, hr.resolve_left hzero⟩
    · rw [String.toList_ofList, Lexeme.convertNumeral_eq_ok_iff hdigits, Numeral.nat_ofNat]

theorem reads_core {major minor patch : UInt64} :
    core.Reads s (major, minor, patch) r ↔
      s = writeCore major minor patch ++ r ∧ (patch = 0 ∨ r.Avoids Char.isDigit) := by
  have hdot : ∀ u : Text, Text.Avoids ('.' :: u) Char.isDigit := fun u => Text.avoids_cons.mpr rfl
  rw [core, reads_map]
  simp only [Prod.exists, Prod.mk.injEq, reads_both, reads_thenSkip, reads_char]
  constructor
  · rintro ⟨_, _, _, ⟨_, ⟨_, _, ⟨_, ⟨_, _, hmajor, rfl, -⟩, hminor⟩, rfl, -⟩, hpatch⟩,
      rfl, rfl, rfl⟩
    obtain ⟨rfl, hr⟩ := reads_coreNumber.mp hpatch
    obtain ⟨rfl, -⟩ := reads_coreNumber.mp hminor
    obtain ⟨rfl, -⟩ := reads_coreNumber.mp hmajor
    exact ⟨by simp [writeCore], hr⟩
  · intro h
    obtain ⟨rfl, hr⟩ := h
    let t := Numeral.ofNat patch.toNat ++ r
    let u := Numeral.ofNat minor.toNat ++ '.' :: t
    have hpatch : coreNumber.Reads t patch r := reads_coreNumber.mpr ⟨rfl, hr⟩
    have hminor : coreNumber.Reads u minor ('.' :: t) :=
      reads_coreNumber.mpr ⟨rfl, Or.inr (hdot t)⟩
    have hmajor : coreNumber.Reads (writeCore major minor patch ++ r) major ('.' :: u) :=
      reads_coreNumber.mpr ⟨by simp [writeCore, u, t], Or.inr (hdot u)⟩
    exact ⟨major, minor, patch, ⟨t, ⟨'.' :: t, '.', ⟨u, ⟨'.' :: u, '.', hmajor, rfl, rfl⟩, hminor⟩,
      rfl, rfl⟩, hpatch⟩, rfl, rfl, rfl⟩

/-! ## Versions -/

theorem valid_iff :
    v.Valid ↔ (∀ w ∈ v.preRelease, Bnf.PreReleaseIdentifier w.toList) ∧
      ∀ w ∈ v.build, Bnf.BuildIdentifier w.toList := by
  simp only [← isPreReleaseIdentifier_iff, Bnf.buildIdentifier_iff]
  constructor
  · intro h
    exact ⟨h.preRelease, h.build⟩
  · intro h
    exact ⟨h.1, h.2⟩

/-- The parser of the identifiers of a pre-release, after their mark. -/
def preReleasePart : Parser (Option (List String)) :=
  marked '-' (alphanumericIdentifier.orElse numericIdentifier)

/-- The parser of the identifiers of a build, after their mark. -/
def buildPart : Parser (Option (List String)) :=
  marked '+' (alphanumericIdentifier.orElse (Lexeme.digits.map String.ofList))

theorem reads_parser_iff :
    parser.Reads s v r ↔ ∃ t u p b, core.Reads s (v.major, v.minor, v.patch) t ∧
      preReleasePart.Reads t p u ∧ buildPart.Reads u b r ∧
      v.preRelease = p.getD [] ∧ v.build = b.getD [] := by
  show (((core.both preReleasePart).both buildPart).map _).Reads s v r ↔ _
  rw [reads_map]
  simp only [Prod.exists, reads_both]
  constructor
  · intro h
    obtain ⟨major, minor, patch, p, b, ⟨u, ⟨t, hcore, hp⟩, hb⟩, rfl⟩ := h
    exact ⟨t, u, p, b, hcore, hp, hb, rfl, rfl⟩
  · intro h
    obtain ⟨t, u, p, b, hcore, hp, hb, hpre, hbuild⟩ := h
    refine ⟨v.major, v.minor, v.patch, p, b, ⟨u, ⟨t, hcore, hp⟩, hb⟩, ?_⟩
    rw [← hpre, ← hbuild]

/-- What is read is the text of a valid version. -/
theorem parser_sound (h : parser.Reads s v r) : v.Valid ∧ s = v.write ++ r := by
  obtain ⟨t, u, p, b, hcore, hp, hb, hpre, hbuild⟩ := reads_parser_iff.mp h
  obtain ⟨rfl, -⟩ := reads_core.mp hcore
  obtain ⟨rfl, hpreKind⟩ := marked_sound readsIdentifiers_preRelease hp
  obtain ⟨rfl, hbuildKind⟩ := marked_sound readsIdentifiers_build hb
  rw [← hpre] at hpreKind ⊢
  rw [← hbuild] at hbuildKind ⊢
  refine ⟨valid_iff.mpr ⟨hpreKind, hbuildKind⟩, ?_⟩
  rw [write_eq]
  simp

theorem avoids_writeIdentifiers {mark : Char} {ws : List String} {p : Char → Bool}
    (hmark : p mark = false) (hr : r.Avoids p) : Text.Avoids (writeIdentifiers mark ws ++ r) p := by
  cases ws with
  | nil => exact hr
  | cons w ws => exact Text.avoids_cons.mpr hmark

/-- The text of a valid version is read to its end, unless what follows goes on with it. -/
theorem parser_complete (hv : v.Valid) (hr : r.Avoids isIdentifierChar)
    (hdot : r.Avoids (· == '.')) (hplus : r.Avoids (· == '+')) :
    parser.Reads (v.write ++ r) v r := by
  obtain ⟨hpreKind, hbuildKind⟩ := valid_iff.mp hv
  have hdigit : r.Avoids Char.isDigit := avoids_isDigit hr
  have hhyphen : r.Avoids (· == '-') := (avoids_isNonDigit hr).mono fun c hc => by
    rw [isNonDigit, hc, Bool.or_true]
  -- The build ends where the text after the version begins, the pre-release where the build does.
  obtain ⟨b, hb, hbuild⟩ := marked_complete readsIdentifiers_build hbuildKind hr hdot hplus
  have htail : Text.Avoids (writeIdentifiers '+' v.build ++ r) isIdentifierChar :=
    avoids_writeIdentifiers rfl hr
  obtain ⟨p, hp, hpre⟩ := marked_complete readsIdentifiers_preRelease hpreKind htail
    (avoids_writeIdentifiers rfl hdot) (avoids_writeIdentifiers rfl hhyphen)
  refine reads_parser_iff.mpr ⟨_, _, p, b, reads_core.mpr ⟨?_, Or.inr ?_⟩, hpre, hbuild, hp.symm,
    hb.symm⟩
  · rw [write_eq]
    simp
  · exact avoids_writeIdentifiers rfl (avoids_writeIdentifiers rfl hdigit)

/-- Whole texts are read as what is written for a valid version. -/
theorem parse_complete_iff : parse s = .complete v ↔ v.Valid ∧ s = v.write := by
  rw [parse, parseComplete_eq_complete_iff]
  constructor
  · intro h
    obtain ⟨hv, hs⟩ := parser_sound h
    exact ⟨hv, by rw [hs, List.append_nil]⟩
  · rintro ⟨hv, rfl⟩
    have h := parser_complete (r := []) hv Text.avoids_nil Text.avoids_nil Text.avoids_nil
    rwa [List.append_nil] at h

/-! ## Productions -/

/-- A numeral of at most 64 bits is that of a number of the version. -/
theorem numeric_iff_exists :
    (Bnf.Numeric t ∧ Numeral.nat t < 2 ^ 64) ↔ ∃ n : UInt64, t = Numeral.ofNat n.toNat := by
  rw [Bnf.numeric_iff, Numeral.isCanonical_iff]
  constructor
  · intro h
    obtain ⟨⟨n, rfl⟩, hlt⟩ := h
    rw [Numeral.nat_ofNat] at hlt
    exact ⟨UInt64.ofNat n, by rw [UInt64.toNat_ofNat_of_lt' hlt]⟩
  · intro h
    obtain ⟨n, rfl⟩ := h
    refine ⟨⟨n.toNat, rfl⟩, ?_⟩
    rw [Numeral.nat_ofNat]
    exact n.toNat_lt

theorem core_iff : Bnf.Core t ↔ ∃ major minor patch, t = writeCore major minor patch := by
  constructor
  · intro h
    obtain ⟨hmajor, hminor, hpatch, hlt, hlt', hlt''⟩ := h
    obtain ⟨major, rfl⟩ := numeric_iff_exists.mp ⟨hmajor, hlt⟩
    obtain ⟨minor, rfl⟩ := numeric_iff_exists.mp ⟨hminor, hlt'⟩
    obtain ⟨patch, rfl⟩ := numeric_iff_exists.mp ⟨hpatch, hlt''⟩
    exact ⟨major, minor, patch, rfl⟩
  · intro h
    obtain ⟨major, minor, patch, rfl⟩ := h
    obtain ⟨hmajor, hlt⟩ := numeric_iff_exists.mpr ⟨major, rfl⟩
    obtain ⟨hminor, hlt'⟩ := numeric_iff_exists.mpr ⟨minor, rfl⟩
    obtain ⟨hpatch, hlt''⟩ := numeric_iff_exists.mpr ⟨patch, rfl⟩
    exact .mk hmajor hminor hpatch hlt hlt' hlt''

theorem dotted_iff {kind : Text → Prop} :
    Bnf.Dotted kind t ↔ ∃ ws, ws ≠ [] ∧ (∀ w ∈ ws, kind w.toList) ∧ t = dotted ws := by
  constructor
  · intro h
    induction h with
    | @one t ht => exact ⟨[String.ofList t], by simp, by simpa using ht, by simp [dotted_one]⟩
    | @more t u ht _ ih =>
      obtain ⟨ws, hne, hall, rfl⟩ := ih
      refine ⟨String.ofList t :: ws, by simp, ?_, ?_⟩
      · exact List.forall_mem_cons.mpr ⟨by simpa using ht, hall⟩
      · simp [dotted_cons hne]
  · intro h
    obtain ⟨ws, hne, hall, rfl⟩ := h
    induction ws with
    | nil => exact absurd rfl hne
    | cons w ws ih =>
      obtain ⟨hw, hws⟩ := List.forall_mem_cons.mp hall
      by_cases hnil : ws = []
      · subst hnil
        rw [dotted_one]
        exact .one hw
      · rw [dotted_cons hnil]
        exact .more hw (ih hnil hws)

theorem writeIdentifiers_nil (mark : Char) : writeIdentifiers mark [] = [] := rfl

theorem writeIdentifiers_of_ne_nil {mark : Char} {ws : List String} (h : ws ≠ []) :
    writeIdentifiers mark ws = mark :: dotted ws := by
  cases ws with
  | nil => exact absurd rfl h
  | cons w ws => rfl

/-- The productions derive the texts of the valid versions. -/
theorem semver_iff : Bnf.Semver s ↔ ∃ v : Version, v.Valid ∧ s = v.write := by
  simp only [valid_iff, write_eq]
  constructor
  · intro h
    cases h with
    | core hc =>
      obtain ⟨major, minor, patch, rfl⟩ := core_iff.mp hc
      exact ⟨⟨major, minor, patch, [], []⟩, by simp, by simp [writeIdentifiers_nil]⟩
    | preRelease hc hp =>
      obtain ⟨major, minor, patch, rfl⟩ := core_iff.mp hc
      obtain ⟨ps, hne, hps, rfl⟩ := dotted_iff.mp hp
      refine ⟨⟨major, minor, patch, ps, []⟩, ⟨hps, by simp⟩, ?_⟩
      simp [writeIdentifiers_of_ne_nil hne, writeIdentifiers_nil]
    | build hc hb =>
      obtain ⟨major, minor, patch, rfl⟩ := core_iff.mp hc
      obtain ⟨bs, hne, hbs, rfl⟩ := dotted_iff.mp hb
      refine ⟨⟨major, minor, patch, [], bs⟩, ⟨by simp, hbs⟩, ?_⟩
      simp [writeIdentifiers_of_ne_nil hne, writeIdentifiers_nil]
    | both hc hp hb =>
      obtain ⟨major, minor, patch, rfl⟩ := core_iff.mp hc
      obtain ⟨ps, hps, hpsKind, rfl⟩ := dotted_iff.mp hp
      obtain ⟨bs, hbs, hbsKind, rfl⟩ := dotted_iff.mp hb
      refine ⟨⟨major, minor, patch, ps, bs⟩, ⟨hpsKind, hbsKind⟩, ?_⟩
      simp [writeIdentifiers_of_ne_nil hps, writeIdentifiers_of_ne_nil hbs]
  · -- One production for each way in which the lists of identifiers are empty or not.
    intro h
    obtain ⟨⟨major, minor, patch, ps, bs⟩, ⟨hps, hbs⟩, rfl⟩ := h
    have hcore : Bnf.Core (writeCore major minor patch) := core_iff.mpr ⟨major, minor, patch, rfl⟩
    by_cases hp : ps = [] <;> by_cases hb : bs = []
    · subst hp hb
      simpa [writeIdentifiers_nil] using Bnf.Semver.core hcore
    · subst hp
      simpa [writeIdentifiers_nil, writeIdentifiers_of_ne_nil hb] using
        Bnf.Semver.build hcore (dotted_iff.mpr ⟨bs, hb, hbs, rfl⟩)
    · subst hb
      simpa [writeIdentifiers_nil, writeIdentifiers_of_ne_nil hp] using
        Bnf.Semver.preRelease hcore (dotted_iff.mpr ⟨ps, hp, hps, rfl⟩)
    · simpa [writeIdentifiers_of_ne_nil hp, writeIdentifiers_of_ne_nil hb] using
        Bnf.Semver.both hcore (dotted_iff.mpr ⟨ps, hp, hps, rfl⟩)
          (dotted_iff.mpr ⟨bs, hb, hbs, rfl⟩)

/-- A text is read as a version exactly if the version is valid and the text is what is written for
it. So the texts that are read are those of the syntax, and a version is read back from its text
exactly if it is valid. -/
theorem language_exact :
    (∀ (s : Text) (v : Version), parse s = .complete v ↔ v.Valid ∧ s = v.write) ∧
      (∀ s : Text, (∃ v, parse s = .complete v) ↔ Bnf.Semver s) ∧
      ∀ v : Version, parse v.write = .complete v ↔ v.Valid := by
  refine ⟨fun s v => parse_complete_iff, ?_, ?_⟩
  · intro s
    simp only [parse_complete_iff, semver_iff]
  · intro v
    rw [parse_complete_iff]
    exact and_iff_left rfl

end Descent.Version
