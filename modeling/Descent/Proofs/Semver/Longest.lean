import Descent.Proofs.Parser.Loops
import Descent.Proofs.Semver.Language

/-!
# The longest version

The grammar commits to what it reads. Each number and each identifier is read as far as it goes, and
a separator that no identifier follows is left behind. To see that no version at the beginning of
the text is longer, take any text of a version with more text behind it, part by part. Where a part
ends, either all that comes after it is left, or less is left, and then the text goes on with a
character that the part may have (`Reaches`). The parts that come next in the version begin with a
mark, which is no such character, so only the text behind the version can be cut into.

Leading zeros are the narrow case. A zero is an identifier of a pre-release by itself, even where
digits follow it, unless a letter or a hyphen comes somewhere after them.
-/

namespace Descent.Version

open Descent.Parser
open Numeral (IsDigits IsCanonical)

variable {s t r : Text} {goesOn : Char → Bool}

/-! ## Reaching the end of a part -/

/-- What is left of a part with the text `t` behind it: all of `t`, or no more than that, if `t`
begins with a character that goes on with the part. -/
def Reaches (goesOn : Char → Bool) (t r : Text) : Prop :=
  r = t ∨ r.length ≤ t.length ∧ ¬ t.Avoids goesOn

namespace Reaches

theorem length_le (h : Reaches goesOn t r) : r.length ≤ t.length := by
  rcases h with rfl | ⟨hle, -⟩
  · exact Nat.le_refl _
  · exact hle

theorem mono {more : Char → Bool} (h : Reaches goesOn t r)
    (hmore : ∀ c, goesOn c = true → more c = true) : Reaches more t r :=
  h.imp_right fun hr => ⟨hr.1, fun ht => hr.2 (ht.mono hmore)⟩

end Reaches

/-! ## Identifiers -/

/-- A character of an identifier, or a dot before the next one. -/
def continues (c : Char) : Bool := isIdentifierChar c || c == '.'

theorem continues_of_isIdentifierChar {c : Char} (hc : isIdentifierChar c = true) :
    continues c = true := by
  rw [continues, hc, Bool.true_or]

theorem append_takeWhile_dropWhile (w t : Text) (p : Char → Bool) :
    w ++ t = w ++ t.takeWhile p ++ t.dropWhile p := by
  rw [List.append_assoc, List.takeWhile_append_dropWhile]

/-- A parser of identifiers that reads one wherever one begins the text, and leaves no more than
what follows it. -/
structure ReadsLongest (p : Parser String) (kind : Text → Prop) : Prop
    extends ReadsIdentifiers p kind where
  longest : ∀ {w : String} {t : Text}, kind w.toList →
    ∃ x r, p.Reads (w.toList ++ t) x r ∧ r.length ≤ t.length

/-- Characters of identifiers make one with all that follow them. Only if all of these are digits
too, they are left to the alternative. -/
theorem exists_reads_orElse {q : Parser String} {w : Text}
    (hw : ∀ c ∈ w, isIdentifierChar c = true)
    (hq : (∀ c ∈ w ++ t.takeWhile isIdentifierChar, c.isDigit = true) →
      ∃ x r, q.Reads (w ++ t) x r ∧ r.length ≤ t.length) :
    ∃ x r, (alphanumericIdentifier.orElse q).Reads (w ++ t) x r ∧ r.length ≤ t.length := by
  have hall : ∀ c ∈ w ++ t.takeWhile isIdentifierChar, isIdentifierChar c = true :=
    List.forall_mem_append.mpr ⟨hw, List.all_eq_true.mp List.all_takeWhile⟩
  have hsplit := append_takeWhile_dropWhile w t isIdentifierChar
  have hstop := Text.avoids_dropWhile t isIdentifierChar
  by_cases hnon : ∃ c ∈ w ++ t.takeWhile isIdentifierChar, isNonDigit c = true
  · have hread : alphanumericIdentifier.Reads (w ++ t)
        (String.ofList (w ++ t.takeWhile isIdentifierChar)) (t.dropWhile isIdentifierChar) := by
      rw [reads_alphanumericIdentifier, String.toList_ofList]
      exact ⟨hsplit, Bnf.alphanumeric_iff.mpr ⟨hall, hnon⟩, hstop⟩
    exact ⟨_, _, reads_orElse.mpr (Or.inl hread), (List.dropWhile_suffix _).length_le⟩
  · have hdigits : ∀ c ∈ w ++ t.takeWhile isIdentifierChar, c.isDigit = true := by
      intro c hc
      by_contra hdigit
      exact hnon ⟨c, hc, (isNonDigit_iff (hall c hc)).mpr (by simpa using hdigit)⟩
    have hfails : alphanumericIdentifier.Fails (w ++ t) := by
      rw [hsplit]
      exact fails_alphanumericIdentifier hdigits hstop
    obtain ⟨x, r, hread, hle⟩ := hq hdigits
    exact ⟨x, r, reads_orElse.mpr (Or.inr ⟨hfails, hread⟩), hle⟩

theorem readsLongest_preRelease :
    ReadsLongest (alphanumericIdentifier.orElse numericIdentifier) Bnf.PreReleaseIdentifier := by
  refine ⟨readsIdentifiers_preRelease, fun {w t} hw => ?_⟩
  obtain ⟨hne, hall⟩ := Bnf.buildIdentifier_iff.mp hw.build
  refine exists_reads_orElse hall fun hdigits => ?_
  have hnumeric : IsCanonical w.toList := by
    refine (Bnf.preReleaseIdentifier_iff.mp hw).resolve_left fun hw => ?_
    obtain ⟨c, hc, hnon⟩ := (Bnf.alphanumeric_iff.mp hw).2
    rw [isNonDigit_eq_false_of_isDigit (hdigits c (List.mem_append_left _ hc))] at hnon
    cases hnon
  -- A zero is read by itself, and other digits to the last that follows.
  rcases hnumeric with hzero | ⟨-, hhead⟩
  · exact ⟨w, t, reads_numericIdentifier.mpr ⟨rfl, Or.inl hzero⟩, Nat.le_refl _⟩
  · have hread : numericIdentifier.Reads (w.toList ++ t)
        (String.ofList (w.toList ++ t.takeWhile isIdentifierChar))
        (t.dropWhile isIdentifierChar) := by
      have hstop := avoids_isDigit (Text.avoids_dropWhile t isIdentifierChar)
      rw [reads_numericIdentifier, String.toList_ofList, List.head?_append_of_ne_nil _ hne]
      exact ⟨append_takeWhile_dropWhile _ _ _, Or.inr ⟨⟨⟨by simp [hne], hdigits⟩, hhead⟩, hstop⟩⟩
    exact ⟨_, _, hread, (List.dropWhile_suffix _).length_le⟩

theorem readsLongest_build :
    ReadsLongest (alphanumericIdentifier.orElse (Lexeme.digits.map String.ofList))
      Bnf.BuildIdentifier := by
  refine ⟨readsIdentifiers_build, fun {w t} hw => ?_⟩
  obtain ⟨hne, hall⟩ := Bnf.buildIdentifier_iff.mp hw
  refine exists_reads_orElse hall fun hdigits => ?_
  have hread : Lexeme.digits.Reads (w.toList ++ t) (w.toList ++ t.takeWhile isIdentifierChar)
      (t.dropWhile isIdentifierChar) := by
    have hstop := avoids_isDigit (Text.avoids_dropWhile t isIdentifierChar)
    exact Lexeme.reads_digits.mpr
      ⟨append_takeWhile_dropWhile _ _ _, ⟨by simp [hne], hdigits⟩, hstop⟩
  exact ⟨_, _, reads_map.mpr ⟨_, hread, rfl⟩, (List.dropWhile_suffix _).length_le⟩

variable {p : Parser String} {kind : Text → Prop} {w x : String} {ws vs : List String}

/-- An identifier is left behind at its end, or further on if more of its characters follow. -/
theorem ReadsLongest.reaches (hp : ReadsLongest p kind) (hw : kind w.toList)
    (h : p.Reads (w.toList ++ t) x r) : Reaches isIdentifierChar t r := by
  by_cases ht : t.Avoids isIdentifierChar
  · exact Or.inl (h.unique (hp.complete hw ht)).2
  · obtain ⟨x', r', hread, hle⟩ := hp.longest (t := t) hw
    obtain ⟨-, rfl⟩ := h.unique hread
    exact Or.inr ⟨hle, ht⟩

/-! ## Lists of identifiers -/

theorem ReadsLongest.not_fails_dotted (hp : ReadsLongest p kind) (hne : ws ≠ [])
    (hkind : ∀ w ∈ ws, kind w.toList) : ¬ p.Fails (dotted ws ++ t) := by
  obtain ⟨w, ws, rfl⟩ := List.exists_cons_of_ne_nil hne
  obtain ⟨hw, -⟩ := List.forall_mem_cons.mp hkind
  intro hfails
  by_cases hnil : ws = []
  · subst hnil
    obtain ⟨x, r, hread, -⟩ := hp.longest (t := t) hw
    rw [dotted_one] at hfails
    exact hfails.not_reads hread
  · obtain ⟨x, r, hread, -⟩ := hp.longest (t := '.' :: (dotted ws ++ t)) hw
    rw [dotted_cons hnil, List.append_assoc, List.cons_append] at hfails
    exact hfails.not_reads hread

/-- A list that begins with the given identifiers has them all. Each of them that a dot follows is
read to the dot, so a list that stops sooner would stop where another identifier can be read. -/
theorem ReadsLongest.reaches_separated (hp : ReadsLongest p kind) (hne : ws ≠ [])
    (hkind : ∀ w ∈ ws, kind w.toList) (h : Separated p (char '.') (dotted ws ++ t) vs r)
    (hend : ((char '.').skipThen p).Fails r) : Reaches continues t r := by
  induction ws generalizing vs with
  | nil => exact absurd rfl hne
  | cons w ws ih =>
    obtain ⟨hw, hws⟩ := List.forall_mem_cons.mp hkind
    by_cases hnil : ws = []
    · subst hnil
      rw [dotted_one] at h
      cases h with
      | last hx => exact (hp.reaches hw hx).mono fun c => continues_of_isIdentifierChar
      | @more _ u v _ _ _ as hx hdot hrest =>
        have hreaches : Reaches isIdentifierChar t u := hp.reaches hw hx
        obtain ⟨rfl, -⟩ := reads_char.mp hdot
        obtain ⟨-, rfl, -⟩ := separated_sound hp.toReadsIdentifiers hrest
        have hle := hreaches.length_le
        rw [List.length_cons, List.length_append] at hle
        refine Or.inr ⟨by omega, ?_⟩
        rcases hreaches with rfl | ⟨-, hgo⟩
        · simp [continues]
        · exact fun ht => hgo (ht.mono fun c => continues_of_isIdentifierChar)
    · have hread : p.Reads (w.toList ++ '.' :: (dotted ws ++ t)) w ('.' :: (dotted ws ++ t)) :=
        hp.complete hw (Text.avoids_cons.mpr rfl)
      rw [dotted_cons hnil, List.append_assoc, List.cons_append] at h
      cases h with
      | last hx =>
        obtain ⟨-, rfl⟩ := hread.unique hx
        rw [fails_skipThen] at hend
        rcases hend with hend | ⟨c, u, hdot, hfails⟩
        · cases fails_char.mp hend '.' rfl
        · obtain ⟨hcons, -⟩ := reads_char.mp hdot
          obtain ⟨-, rfl⟩ := List.cons.inj hcons
          exact absurd hfails (hp.not_fails_dotted hnil hws)
      | more hx hdot hrest =>
        obtain ⟨-, rfl⟩ := hread.unique hx
        obtain ⟨hcons, -⟩ := reads_char.mp hdot
        obtain ⟨-, rfl⟩ := List.cons.inj hcons
        exact ih hnil hws hrest

theorem marked_length_le (hp : ReadsIdentifiers p kind) {mark : Char} {o : Option (List String)}
    (h : (marked mark p).Reads s o r) : r.length ≤ s.length := by
  obtain ⟨rfl, -⟩ := marked_sound hp h
  simp

/-- A part after its mark is left behind at its end, or further on if the text goes on with it or
with a part of its kind that has been left out. -/
theorem ReadsLongest.reaches_marked (hp : ReadsLongest p kind) {mark : Char}
    (hkind : ∀ w ∈ ws, kind w.toList) {o : Option (List String)}
    (h : (marked mark p).Reads (writeIdentifiers mark ws ++ t) o r) :
    Reaches (fun c => continues c || c == mark) t r := by
  by_cases hne : ws = []
  · subst hne
    have hle := marked_length_le hp.toReadsIdentifiers h
    rcases reads_optional.mp h with ⟨vs, -, hread⟩ | ⟨-, rfl, -⟩
    · obtain ⟨c, u, hmark, -⟩ := reads_skipThen.mp hread
      obtain ⟨ht, -⟩ := reads_char.mp hmark
      rw [writeIdentifiers_nil, List.nil_append] at ht hle
      exact Or.inr ⟨hle, by simp [ht]⟩
    · exact Or.inl rfl
  · rw [writeIdentifiers_of_ne_nil hne, List.cons_append] at h
    have hmark : (char mark).Reads (mark :: (dotted ws ++ t)) mark (dotted ws ++ t) :=
      reads_char.mpr ⟨rfl, rfl⟩
    rcases reads_optional.mp h with ⟨vs, -, hread⟩ | ⟨-, -, hfails⟩
    · obtain ⟨c, u, hchar, hlist⟩ := reads_skipThen.mp hread
      obtain ⟨-, rfl⟩ := hmark.unique hchar
      obtain ⟨hseparated, hend⟩ := sepBy1_sound hlist
      exact (hp.reaches_separated hne hkind hseparated hend).mono fun c hc => by
        rw [hc, Bool.true_or]
    · -- The list does not fail, since its first identifier can be read.
      rw [Fails, hmark.outcome_skipThen] at hfails
      obtain ⟨f, hf⟩ := hfails
      exact absurd ⟨f, sepBy1_fails.mp hf⟩ (hp.not_fails_dotted hne hkind)

/-! ## Numbers -/

/-- A number before a dot is told by its digits. -/
theorem ofNat_append_dot_inj {m n : UInt64} {t u : Text}
    (h : Numeral.ofNat m.toNat ++ '.' :: t = Numeral.ofNat n.toNat ++ '.' :: u) :
    m = n ∧ t = u := by
  have htake (k : UInt64) (t : Text) :
      (Numeral.ofNat k.toNat ++ '.' :: t).takeWhile Char.isDigit = Numeral.ofNat k.toNat :=
    Text.takeWhile_append_of_avoids (Numeral.isDigits_ofNat k.toNat).2 (Text.avoids_cons.mpr rfl)
  have hnumerals : Numeral.ofNat m.toNat = Numeral.ofNat n.toNat := by
    rw [← htake m t, h, htake]
  have hnat := congrArg Numeral.nat hnumerals
  rw [Numeral.nat_ofNat, Numeral.nat_ofNat] at hnat
  rw [hnumerals] at h
  exact ⟨UInt64.toNat_inj.mp hnat, (List.cons.inj (List.append_cancel_left h)).2⟩

theorem head?_ofNat_ne_zero {n : UInt64} (h : n ≠ 0) :
    (Numeral.ofNat n.toNat).head? ≠ some '0' :=
  Numeral.head?_ofNat_ne_zero (Nat.pos_of_ne_zero fun hn => h (UInt64.toNat_inj.mp hn))

/-- The last number is left behind at its end, or further on if more digits follow. -/
theorem core_reaches {major minor patch : UInt64} {n : UInt64 × UInt64 × UInt64}
    (h : core.Reads (writeCore major minor patch ++ t) n r) : Reaches Char.isDigit t r := by
  obtain ⟨major', minor', patch'⟩ := n
  obtain ⟨heq, hstop⟩ := reads_core.mp h
  simp only [writeCore, List.append_assoc, List.cons_append] at heq
  obtain ⟨-, heq⟩ := ofNat_append_dot_inj heq
  obtain ⟨-, heq⟩ := ofNat_append_dot_inj heq
  have hdigits := Numeral.isDigits_ofNat patch.toNat
  rcases hstop with rfl | hr
  · -- A zero has been read, and no other number begins with one.
    have hhead := congrArg List.head? heq
    rw [List.head?_append_of_ne_nil _ hdigits.1] at hhead
    have hpatch : patch = 0 := by
      by_contra hne
      exact head?_ofNat_ne_zero hne hhead
    rw [hpatch] at heq
    exact Or.inl (List.append_cancel_left heq).symm
  · have hdrop : t.dropWhile Char.isDigit = r := by
      rw [← List.dropWhile_append_of_pos hdigits.2, heq]
      exact Text.dropWhile_append_of_avoids (Numeral.isDigits_ofNat patch'.toNat).2 hr
    by_cases ht : t.Avoids Char.isDigit
    · left
      rw [← hdrop]
      exact Text.dropWhile_append_of_avoids (s := []) (by simp) ht
    · rw [← hdrop]
      exact Or.inr ⟨(List.dropWhile_suffix _).length_le, ht⟩

/-- Where a number begins, one is read, unless the digits there are too many for it. -/
theorem exists_reads_coreNumber (n : UInt64)
    (h : Numeral.nat ((Numeral.ofNat n.toNat ++ t).takeWhile Char.isDigit) < 2 ^ 64) :
    ∃ m r, coreNumber.Reads (Numeral.ofNat n.toNat ++ t) m r := by
  by_cases hzero : n = 0
  · exact ⟨n, t, reads_coreNumber.mpr ⟨rfl, Or.inl hzero⟩⟩
  · have hdigits := Numeral.isDigits_ofNat n.toNat
    let ds := Numeral.ofNat n.toNat ++ t.takeWhile Char.isDigit
    have hds : IsCanonical ds := by
      refine Or.inr ⟨⟨by simp [ds, hdigits.1], ?_⟩, ?_⟩
      · exact List.forall_mem_append.mpr ⟨hdigits.2, List.all_eq_true.mp List.all_takeWhile⟩
      · rw [List.head?_append_of_ne_nil _ hdigits.1]
        exact head?_ofNat_ne_zero hzero
    rw [List.takeWhile_append_of_pos hdigits.2] at h
    refine ⟨UInt64.ofNat (Numeral.nat ds), t.dropWhile Char.isDigit, reads_coreNumber.mpr
      ⟨?_, Or.inr (Text.avoids_dropWhile t Char.isDigit)⟩⟩
    rw [UInt64.toNat_ofNat_of_lt' h, Numeral.ofNat_nat hds]
    exact append_takeWhile_dropWhile _ _ _

/-! ## Versions -/

theorem writeIdentifiers_eq_nil {mark : Char} (hmark : goesOn mark = false)
    (h : ¬ Text.Avoids (writeIdentifiers mark ws ++ t) goesOn) : ws = [] := by
  cases ws with
  | nil => rfl
  | cons w ws => exact absurd (Text.avoids_cons.mpr hmark) h

/-- With the text of a version at the beginning, no more is left than what comes after it. -/
theorem length_le_of_reads_write {v w : Version} (hw : w.Valid)
    (h : parser.Reads (w.write ++ t) v r) : r.length ≤ t.length := by
  obtain ⟨hpreKind, hbuildKind⟩ := valid_iff.mp hw
  obtain ⟨u, u', p, b, hcore, hpre, hbuild, -, -⟩ := reads_parser_iff.mp h
  rw [write_eq, List.append_assoc, List.append_assoc] at hcore
  rcases core_reaches hcore with rfl | ⟨hle, hgo⟩
  · rcases readsLongest_preRelease.reaches_marked hpreKind hpre with rfl | ⟨hle, hgo⟩
    · exact (readsLongest_build.reaches_marked hbuildKind hbuild).length_le
    · -- Only where there is no build can the pre-release go on with what comes next.
      rw [writeIdentifiers_eq_nil (by rfl) hgo, writeIdentifiers_nil, List.nil_append] at hle
      exact Nat.le_trans (marked_length_le readsIdentifiers_build hbuild) hle
  · rw [writeIdentifiers_eq_nil (by rfl) hgo, writeIdentifiers_nil, List.nil_append] at hle hgo
    rw [writeIdentifiers_eq_nil (by rfl) hgo, writeIdentifiers_nil, List.nil_append] at hle
    exact Nat.le_trans (marked_length_le readsIdentifiers_build hbuild)
      (Nat.le_trans (marked_length_le readsIdentifiers_preRelease hpre) hle)

theorem fails_parser_iff : parser.Fails s ↔ core.Fails s := by
  show (((core.both preReleasePart).both buildPart).map _).Fails s ↔ _
  rw [fails_map, fails_both, fails_both]
  constructor
  · intro h
    rcases h with (h | ⟨_, _, -, h⟩) | ⟨_, _, -, h⟩
    · exact h
    · exact absurd h not_fails_optional
    · exact absurd h not_fails_optional
  · exact fun h => Or.inl (Or.inl h)

/-- A digit after two numbers makes a version with them, whatever follows it. -/
theorem exists_parse_of_digit (major minor : UInt64) {c : Char} (hc : c.isDigit = true) :
    ∃ v, parse (Numeral.ofNat major.toNat ++ '.' :: (Numeral.ofNat minor.toNat ++ '.' :: [c])) =
      .complete v := by
  have hcanonical : IsCanonical [c] := by
    by_cases hzero : c = '0'
    · exact Or.inl (by rw [hzero])
    · exact Or.inr ⟨⟨by simp, by simpa using hc⟩, by simpa using hzero⟩
  have hlt : Numeral.nat [c] < 2 ^ 64 := by
    have hvalue : Numeral.nat [c] = Numeral.digitValue c := by
      rw [Numeral.nat, Numeral.natFrom_cons, Numeral.natFrom_nil, Nat.mul_zero, Nat.zero_add]
    rw [hvalue]
    exact Nat.lt_trans (Numeral.digitChar_digitValue hc).1 (by decide)
  refine ⟨⟨major, minor, UInt64.ofNat (Numeral.nat [c]), [], []⟩, parse_complete_iff.mpr ⟨?_, ?_⟩⟩
  · exact valid_iff.mpr ⟨by simp, by simp⟩
  · simp only [write_eq, writeCore, writeIdentifiers_nil, List.append_nil]
    rw [UInt64.toNat_ofNat_of_lt' hlt, Numeral.ofNat_nat hcanonical]

/-- Where a version begins the text and yet none is read, digits follow the last of its numbers, and
make it too large. -/
theorem large_of_fails {v : Version} (h : parser.Fails (v.write ++ t)) :
    ∃ u, v.write ++ t =
        Numeral.ofNat v.major.toNat ++ '.' :: (Numeral.ofNat v.minor.toNat ++ '.' :: u) ∧
      2 ^ 64 ≤ Numeral.nat (u.takeWhile Char.isDigit) := by
  let u := Numeral.ofNat v.patch.toNat ++
    (writeIdentifiers '-' v.preRelease ++ (writeIdentifiers '+' v.build ++ t))
  have hwrite : v.write ++ t =
      Numeral.ofNat v.major.toNat ++ '.' :: (Numeral.ofNat v.minor.toNat ++ '.' :: u) := by
    simp [write_eq, writeCore, u]
  refine ⟨u, hwrite, ?_⟩
  by_contra hlarge
  obtain ⟨n, r, hn⟩ := exists_reads_coreNumber v.patch (Nat.lt_of_not_le hlarge)
  obtain ⟨hu, hr⟩ := reads_coreNumber.mp hn
  have hcore : core.Reads (v.write ++ t) (v.major, v.minor, n) r := by
    refine reads_core.mpr ⟨?_, hr⟩
    rw [hwrite, show u = _ from hu]
    simp [writeCore]
  exact (fails_parser_iff.mp h).not_reads hcore

/-- One digit of a last number that is too large makes a version with the first two. -/
theorem exists_prefix_of_large (major minor : UInt64)
    (h : 2 ^ 64 ≤ Numeral.nat (t.takeWhile Char.isDigit)) :
    ∃ d v, d <+: Numeral.ofNat major.toNat ++ '.' :: (Numeral.ofNat minor.toNat ++ '.' :: t) ∧
      parse d = .complete v := by
  cases t with
  | nil => exact absurd h (by decide)
  | cons c t =>
    have hc : c.isDigit = true := by
      by_contra hc
      rw [List.takeWhile_cons_of_neg hc] at h
      exact absurd h (by decide)
    obtain ⟨v, hv⟩ := exists_parse_of_digit major minor hc
    exact ⟨_, v, ⟨t, by simp⟩, hv⟩

/-- What is read is the text of a valid version, and no longer one begins the text. Where nothing is
read no version begins the text, but for one reason: the digits of the last number are read to their
end, and are too many for 64 bits, while fewer of them make a number. Before the other two numbers
end there is no version yet. -/
theorem parser_longest (s : Text) :
    (∀ v r, parser.Reads s v r →
      v.Valid ∧ s = v.write ++ r ∧
        ∀ d w, d <+: s → parse d = .complete w → d.length ≤ v.write.length) ∧
    (parser.Fails s →
      ((∃ d w, d <+: s ∧ parse d = .complete w) ↔
        ∃ (major minor : UInt64) (t : Text),
          s = Numeral.ofNat major.toNat ++ '.' :: (Numeral.ofNat minor.toNat ++ '.' :: t) ∧
            2 ^ 64 ≤ Numeral.nat (t.takeWhile Char.isDigit))) := by
  constructor
  · intro v r h
    obtain ⟨hv, rfl⟩ := parser_sound h
    refine ⟨hv, rfl, ?_⟩
    rintro d w ⟨t, ht⟩ hd
    obtain ⟨hw, rfl⟩ := parse_complete_iff.mp hd
    rw [← ht] at h
    have hle := length_le_of_reads_write hw h
    have hlength := congrArg List.length ht
    rw [List.length_append, List.length_append] at hlength
    omega
  · intro hfails
    constructor
    · rintro ⟨d, w, ⟨t, rfl⟩, hd⟩
      obtain ⟨-, rfl⟩ := parse_complete_iff.mp hd
      obtain ⟨u, hu, hlarge⟩ := large_of_fails hfails
      exact ⟨w.major, w.minor, u, hu, hlarge⟩
    · rintro ⟨major, minor, t, rfl, hlarge⟩
      exact exists_prefix_of_large major minor hlarge

/-- A zero in front of a digit is an identifier of a pre-release, and the digit is left. -/
theorem parser_longest_leading_zero :
    let s := ['1', '.', '0', '.', '0', '-', '0', '1', '+', 'b']
    let v : Version := ⟨1, 0, 0, ["0"], []⟩
    let large := ['1', '.', '0', '.', '1', '8', '4', '4', '6', '7', '4', '4', '0', '7', '3', '7',
      '0', '9', '5', '5', '1', '6', '1', '6']
    parser.Reads s v ['1', '+', 'b'] ∧
      (v.Valid ∧ s = v.write ++ ['1', '+', 'b'] ∧
        ∀ d w, d <+: s → parse d = .complete w → d.length ≤ v.write.length) ∧
      parser.Fails large ∧ ∃ d w, d <+: large ∧ parse d = .complete w := by
  intro s v large
  have hread : parser.Reads s v ['1', '+', 'b'] := by rfl
  have hfails : parser.Fails large := ⟨_, rfl⟩
  have hlarge : 2 ^ 64 ≤ Numeral.nat ((large.drop 4).takeWhile Char.isDigit) := by decide
  exact ⟨hread, (parser_longest s).1 v _ hread, hfails,
    ((parser_longest large).2 hfails).mpr ⟨1, 0, large.drop 4, rfl, hlarge⟩⟩

end Descent.Version
