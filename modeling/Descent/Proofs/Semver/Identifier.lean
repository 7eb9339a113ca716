import Descent.Proofs.Lexeme
import Descent.Proofs.Semver.Bnf
import Descent.Semver.Grammar

/-!
# Identifiers of versions

The two kinds of identifiers, and lists of them with dots between. The grammar tries an identifier
with a letter or hyphen before one of digits alone, so that where identifiers end, the longest run
of their characters is read and nothing of it is left.
-/

namespace Descent.Version

open Descent.Parser
open Numeral (IsDigits)

variable {s r : Text} {w : String}

/-! ## Characters -/

theorem avoids_isDigit (hr : r.Avoids isIdentifierChar) : r.Avoids Char.isDigit :=
  hr.mono fun c hc => by rw [isIdentifierChar, hc, Bool.true_or]

theorem avoids_isNonDigit (hr : r.Avoids isIdentifierChar) : r.Avoids isNonDigit :=
  hr.mono fun c hc => by rw [isIdentifierChar, hc, Bool.or_true]

theorem recognizes_nonDigit : nonDigit.Recognizes isNonDigit :=
  (recognizes_satisfy Char.isAlpha).orElse (recognizes_char '-')

theorem recognizes_identifierChar : identifierChar.Recognizes isIdentifierChar :=
  Lexeme.recognizes_digit.orElse recognizes_nonDigit

/-! ## Identifiers -/

theorem reads_numericIdentifier :
    numericIdentifier.Reads s w r ↔ s = w.toList ++ r ∧
      (w.toList = ['0'] ∨ (IsDigits w.toList ∧ w.toList.head? ≠ some '0') ∧
        r.Avoids Char.isDigit) := by
  rw [numericIdentifier, positiveDigit, reads_orElse, reads_map]
  simp only [reads_literal, Prod.exists, Lexeme.reads_positive]
  constructor
  · intro h
    rcases h with ⟨rfl, rfl⟩ | ⟨-, c, ds, ⟨rfl, hds, hr⟩, rfl⟩
    · exact ⟨rfl, Or.inl rfl⟩
    · rw [String.toList_ofList]
      exact ⟨rfl, Or.inr ⟨hds, hr⟩⟩
  · rintro ⟨rfl, hzero | ⟨hds, hr⟩⟩
    · exact Or.inl ⟨by rw [hzero]; rfl, String.toList_inj.mp hzero⟩
    · cases hw : w.toList with
      | nil => exact absurd hw hds.1.1
      | cons c ds =>
        rw [hw] at hds
        have hc : c ≠ '0' := fun h => hds.2 (by rw [List.head?_cons, h])
        refine Or.inr ⟨Lexeme.fails_zero hc, c, ds, ⟨rfl, hds, hr⟩, ?_⟩
        rw [← hw, String.ofList_toList]

theorem reads_alphanumericIdentifier :
    alphanumericIdentifier.Reads s w r ↔
      s = w.toList ++ r ∧ Bnf.Alphanumeric w.toList ∧ r.Avoids isIdentifierChar := by
  rw [alphanumericIdentifier, reads_map, Bnf.alphanumeric_iff]
  simp only [Prod.exists, reads_both, Lexeme.recognizes_digit.reads_many,
    recognizes_nonDigit.reads, recognizes_identifierChar.reads_many]
  constructor
  · intro h
    obtain ⟨leading, c, rest, ⟨_, ⟨_, ⟨rfl, hleading, -⟩, rfl, hc⟩, rfl, hrest, hr⟩, rfl⟩ := h
    rw [String.toList_ofList]
    have hdigits : ∀ d ∈ leading, isIdentifierChar d = true := fun d hd => by
      rw [isIdentifierChar, hleading d hd, Bool.true_or]
    have hchar : isIdentifierChar c = true := by rw [isIdentifierChar, hc, Bool.or_true]
    refine ⟨by simp, ⟨?_, c, by simp, hc⟩, hr⟩
    exact List.forall_mem_append.mpr ⟨hdigits, List.forall_mem_cons.mpr ⟨hchar, hrest⟩⟩
  · intro h
    obtain ⟨rfl, ⟨hall, d, hd, hnon⟩, hr⟩ := h
    -- The digits at the beginning end at the first character that is none.
    have hsplit := List.takeWhile_append_dropWhile (p := Char.isDigit) (l := w.toList)
    have hstop := Text.avoids_dropWhile w.toList Char.isDigit
    have hleading : ∀ c ∈ w.toList.takeWhile Char.isDigit, c.isDigit = true :=
      List.all_eq_true.mp List.all_takeWhile
    cases hrest : w.toList.dropWhile Char.isDigit with
    | nil =>
      rw [hrest, List.append_nil] at hsplit
      rw [← hsplit] at hd
      rw [isNonDigit_eq_false_of_isDigit (hleading d hd)] at hnon
      cases hnon
    | cons c rest =>
      rw [hrest] at hsplit hstop
      have hmem : ∀ x ∈ c :: rest, isIdentifierChar x = true := fun x hx =>
        hall x (by rw [← hsplit]; exact List.mem_append_right _ hx)
      obtain ⟨hchar, hchars⟩ := List.forall_mem_cons.mp hmem
      refine ⟨_, c, rest, ⟨rest ++ r, ⟨c :: (rest ++ r), ⟨?_, hleading, hstop⟩, rfl,
        (isNonDigit_iff hchar).mpr (Text.avoids_cons.mp hstop)⟩, rfl, hchars, hr⟩, ?_⟩
      · have happend := congrArg (· ++ r) hsplit.symm
        simpa using happend
      · rw [hsplit, String.ofList_toList]

/-- Digits alone are left to the alternative. -/
theorem fails_alphanumericIdentifier {ds : Text} (hds : ∀ c ∈ ds, c.isDigit = true)
    (hr : r.Avoids isIdentifierChar) : alphanumericIdentifier.Fails (ds ++ r) := by
  have hread : (many Lexeme.digit).Reads (ds ++ r) ds r :=
    Lexeme.recognizes_digit.reads_many.mpr ⟨rfl, hds, avoids_isDigit hr⟩
  have hfails : nonDigit.Fails r := recognizes_nonDigit.fails.mpr (avoids_isNonDigit hr)
  rw [alphanumericIdentifier, fails_map, fails_both, fails_both]
  exact Or.inl (Or.inr ⟨ds, r, hread, hfails⟩)

/-- What a parser of identifiers reads is one of a kind, and it reads each of that kind where it
ends. -/
structure ReadsIdentifiers (p : Parser String) (kind : Text → Prop) : Prop where
  sound : ∀ {s w r}, p.Reads s w r → s = w.toList ++ r ∧ kind w.toList
  complete : ∀ {w : String} {r}, kind w.toList → r.Avoids isIdentifierChar →
    p.Reads (w.toList ++ r) w r

/-- Identifiers with a letter or hyphen are tried first, and an alternative on digits alone. -/
theorem readsIdentifiers_orElse {q : Parser String} {digits kind : Text → Prop}
    (hkind : ∀ {t}, kind t ↔ Bnf.Alphanumeric t ∨ digits t)
    (hdigits : ∀ {t}, digits t → IsDigits t)
    (sound : ∀ {s w r}, q.Reads s w r → s = w.toList ++ r ∧ digits w.toList)
    (complete : ∀ {w : String} {r}, digits w.toList → r.Avoids Char.isDigit →
      q.Reads (w.toList ++ r) w r) :
    ReadsIdentifiers (alphanumericIdentifier.orElse q) kind := by
  constructor
  · intro s w r h
    rcases reads_orElse.mp h with h | ⟨-, h⟩
    · obtain ⟨hs, hw, -⟩ := reads_alphanumericIdentifier.mp h
      exact ⟨hs, hkind.mpr (Or.inl hw)⟩
    · obtain ⟨hs, hw⟩ := sound h
      exact ⟨hs, hkind.mpr (Or.inr hw)⟩
  · intro w r hw hr
    rw [reads_orElse]
    rcases hkind.mp hw with h | h
    · exact Or.inl (reads_alphanumericIdentifier.mpr ⟨rfl, h, hr⟩)
    · exact Or.inr ⟨fails_alphanumericIdentifier (hdigits h).2 hr, complete h (avoids_isDigit hr)⟩

theorem readsIdentifiers_preRelease :
    ReadsIdentifiers (alphanumericIdentifier.orElse numericIdentifier)
      Bnf.PreReleaseIdentifier := by
  refine readsIdentifiers_orElse Bnf.preReleaseIdentifier_iff Numeral.IsCanonical.isDigits ?_ ?_
  · intro s w r h
    obtain ⟨hs, hw⟩ := reads_numericIdentifier.mp h
    exact ⟨hs, hw.imp_right And.left⟩
  · intro w r hw hr
    exact reads_numericIdentifier.mpr ⟨rfl, hw.imp_right (⟨·, hr⟩)⟩

theorem readsIdentifiers_build :
    ReadsIdentifiers (alphanumericIdentifier.orElse (Lexeme.digits.map String.ofList))
      Bnf.BuildIdentifier := by
  have hkind : ∀ {t}, Bnf.BuildIdentifier t ↔ Bnf.Alphanumeric t ∨ IsDigits t := by
    intro t
    rw [IsDigits, ← Bnf.run_iff]
    refine ⟨fun h => ?_, fun h => h.elim .alphanumeric .digits⟩
    cases h with
    | alphanumeric h => exact Or.inl h
    | digits h => exact Or.inr h
  refine readsIdentifiers_orElse hkind id ?_ ?_
  · intro s w r h
    obtain ⟨ds, hds, rfl⟩ := reads_map.mp h
    obtain ⟨hs, hdigits, -⟩ := Lexeme.reads_digits.mp hds
    rw [String.toList_ofList]
    exact ⟨hs, hdigits⟩
  · intro w r hw hr
    exact reads_map.mpr ⟨w.toList, Lexeme.reads_digits.mpr ⟨rfl, hw, hr⟩, String.ofList_toList⟩

/-! ## Lists of identifiers -/

/-- Identifiers with dots between them. -/
def dotted (ws : List String) : Text := ['.'].intercalate (ws.map String.toList)

theorem dotted_one (w : String) : dotted [w] = w.toList := by
  simp [dotted, List.intercalate]

theorem dotted_cons {ws : List String} (h : ws ≠ []) (w : String) :
    dotted (w :: ws) = w.toList ++ '.' :: dotted ws := by
  obtain ⟨x, ws, rfl⟩ := List.exists_cons_of_ne_nil h
  simp [dotted, List.intercalate]

variable {p : Parser String} {kind : Text → Prop} {ws : List String}

theorem separated_sound (hp : ReadsIdentifiers p kind) (h : Separated p (char '.') s ws r) :
    ws ≠ [] ∧ s = dotted ws ++ r ∧ ∀ w ∈ ws, kind w.toList := by
  induction h with
  | last hw =>
    obtain ⟨rfl, hkind⟩ := hp.sound hw
    exact ⟨by simp, by rw [dotted_one], by simpa using hkind⟩
  | more hw hdot _ ih =>
    obtain ⟨rfl, hkind⟩ := hp.sound hw
    obtain ⟨rfl, -⟩ := reads_char.mp hdot
    obtain ⟨hne, rfl, hkinds⟩ := ih
    refine ⟨by simp, ?_, List.forall_mem_cons.mpr ⟨hkind, hkinds⟩⟩
    simp [dotted_cons hne]

theorem separated_complete (hp : ReadsIdentifiers p kind) (hne : ws ≠ [])
    (hkind : ∀ w ∈ ws, kind w.toList) (hr : r.Avoids isIdentifierChar) :
    Separated p (char '.') (dotted ws ++ r) ws r := by
  induction ws with
  | nil => exact absurd rfl hne
  | cons w ws ih =>
    obtain ⟨hw, hws⟩ := List.forall_mem_cons.mp hkind
    by_cases hnil : ws = []
    · subst hnil
      rw [dotted_one]
      exact .last (hp.complete hw hr)
    · have hread : p.Reads (w.toList ++ '.' :: (dotted ws ++ r)) w ('.' :: (dotted ws ++ r)) :=
        hp.complete hw (Text.avoids_cons.mpr rfl)
      rw [dotted_cons hnil, List.append_assoc, List.cons_append]
      exact .more hread (reads_char.mpr ⟨rfl, rfl⟩) (ih hnil hws)

theorem progresses_dot (hp : ReadsIdentifiers p kind) :
    ((char '.').skipThen p).Progresses := by
  refine Progresses.skipThen (recognizes_char '.').progresses ?_
  intro s w r h
  obtain ⟨rfl, -⟩ := hp.sound h
  rw [List.length_append]
  omega

/-- The part of a version after a mark, if there is one. -/
def marked (mark : Char) (p : Parser String) : Parser (Option (List String)) :=
  ((char mark).skipThen (p.sepBy1 (char '.'))).optional

theorem marked_sound (hp : ReadsIdentifiers p kind) {mark : Char} {o : Option (List String)}
    (h : (marked mark p).Reads s o r) :
    s = writeIdentifiers mark (o.getD []) ++ r ∧ ∀ w ∈ o.getD [], kind w.toList := by
  rcases reads_optional.mp h with ⟨ws, rfl, hsome⟩ | ⟨rfl, rfl, -⟩
  · obtain ⟨c, t, hmark, hws⟩ := reads_skipThen.mp hsome
    obtain ⟨rfl, -⟩ := reads_char.mp hmark
    obtain ⟨hne, rfl, hkind⟩ := separated_sound hp (sepBy1_sound hws).1
    obtain ⟨w, ws, rfl⟩ := List.exists_cons_of_ne_nil hne
    exact ⟨rfl, hkind⟩
  · exact ⟨rfl, by simp⟩

theorem marked_complete (hp : ReadsIdentifiers p kind) {mark : Char}
    (hkind : ∀ w ∈ ws, kind w.toList) (hr : r.Avoids isIdentifierChar) (hdot : r.Avoids (· == '.'))
    (hmark : r.Avoids (· == mark)) :
    ∃ o, o.getD [] = ws ∧ (marked mark p).Reads (writeIdentifiers mark ws ++ r) o r := by
  cases ws with
  | nil =>
    refine ⟨none, rfl, reads_optional.mpr (Or.inr ⟨rfl, rfl, ?_⟩)⟩
    rw [fails_skipThen]
    exact Or.inl (fails_char.mpr hmark)
  | cons w ws =>
    have hseparated : Separated p (char '.') (dotted (w :: ws) ++ r) (w :: ws) r :=
      separated_complete hp (by simp) hkind hr
    have hend : ((char '.').skipThen p).Fails r := by
      rw [fails_skipThen]
      exact Or.inl (fails_char.mpr hdot)
    have hlist : (p.sepBy1 (char '.')).Reads (dotted (w :: ws) ++ r) (w :: ws) r :=
      (reads_sepBy1 (progresses_dot hp)).mpr ⟨hseparated, hend⟩
    refine ⟨some (w :: ws), rfl, reads_optional.mpr (Or.inl ⟨_, rfl, ?_⟩)⟩
    exact reads_skipThen.mpr ⟨mark, dotted (w :: ws) ++ r, reads_char.mpr ⟨rfl, rfl⟩, hlist⟩

end Descent.Version
