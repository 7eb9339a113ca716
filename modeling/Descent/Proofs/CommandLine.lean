import Descent.CommandLine
import Descent.Proofs.Semver.Language
import Descent.Proofs.Termination
import Mathlib.Data.List.Forall2

/-!
# Reports on versions

What the command line prints for a list of version strings is put together argument by argument
(`report_eq`): a version adds one line, and anything else adds nothing and leaves a mark that no
later argument takes away. So the lines are those of the versions among the arguments, in order, and
the exit code says whether all arguments are versions (`report_versions`).

A line loses nothing. The identifiers of a version have no characters that would be escaped, so all
parts stand in the line as they were written, and put together again they are the argument.
-/

namespace Descent

/-! ## Exit codes -/

namespace Report

theorem exitCode_eq_zero_iff {r : Report} : r.exitCode = 0 ↔ r.succeeded = true := by
  cases h : r.succeeded <;> simp [exitCode, h]

theorem exitCode_eq_one_iff {r : Report} : r.exitCode = 1 ↔ r.succeeded = false := by
  cases h : r.succeeded <;> simp [exitCode, h]

end Report

namespace Version

open Descent.Parser

variable {a : String} {s : Text} {v : Version}

/-! ## Versions and other texts -/

/-- The parser fails on the text, or does not read it to its end. -/
def IsRejected (s : Text) : Prop :=
  (∃ f, parse s = .rejected f) ∨ ∃ offset remaining, parse s = .incomplete offset remaining

theorem semver_iff_parse : Bnf.Semver s ↔ ∃ v, parse s = .complete v := by
  simp only [semver_iff, parse_complete_iff]

theorem parse_ne_diverges (s : Text) : parse s ≠ .diverges := by
  rcases ends_iff.mp (parser_ends s) with ⟨v, r, h⟩ | ⟨f, h⟩
  · have hsuccess : (parser s).outcome = .success v r := h
    cases r <;> simp [parse, parseComplete, complete, hsuccess]
  · simp [parse, parseComplete, complete, h]

/-- Each text is a version or is rejected. -/
theorem isRejected_iff : IsRejected s ↔ ¬ Bnf.Semver s := by
  rw [semver_iff_parse, IsRejected]
  cases h : parse s with
  | complete v => simp
  | rejected f => simp
  | incomplete offset remaining => simp
  | diverges => exact absurd h (parse_ne_diverges s)

instance (s : Text) : Decidable (Bnf.Semver s) :=
  decidable_of_iff ((parse s).value?.isSome = true) (by
    rw [semver_iff_parse]
    cases parse s <;> simp [Completion.value?])

/-! ## Parts of a version -/

/-- A mark and identifiers with dots between them, if there are any. -/
def markedText (mark : String) (identifiers : List String) : String :=
  if identifiers = [] then "" else mark ++ ".".intercalate identifiers

/-- The parts of a version put together: the numbers with dots between them, and then the
identifiers. -/
def joinedText (v : Version) : String :=
  toString v.major ++ "." ++ toString v.minor ++ "." ++ toString v.patch ++
    markedText "-" v.preRelease ++ markedText "+" v.build

theorem toList_markedText (mark : Char) (ws : List String) :
    (markedText (String.singleton mark) ws).toList = writeIdentifiers mark ws := by
  cases ws with
  | nil => rfl
  | cons w ws => simp [markedText, writeIdentifiers]

theorem joinedText_eq (v : Version) : v.joinedText = String.ofList v.write := by
  have hpre : (markedText "-" v.preRelease).toList = writeIdentifiers '-' v.preRelease :=
    toList_markedText '-' v.preRelease
  have hbuild : (markedText "+" v.build).toList = writeIdentifiers '+' v.build :=
    toList_markedText '+' v.build
  rw [← String.toList_inj, String.toList_ofList]
  simp [joinedText, write, Numeral.toList_toString, hpre, hbuild]

/-! ## Lines -/

/-- Identifiers in quotation marks, in a list. -/
def quotedList (identifiers : List String) : String :=
  "[" ++ ", ".intercalate (identifiers.map fun w => "\"" ++ w ++ "\"") ++ "]"

/-- The line of an argument with the parts of a version, each as it is written. -/
def shownLine (argument : String) (v : Version) : String :=
  argument ++ ": major " ++ toString v.major ++ " minor " ++ toString v.minor ++ " patch " ++
    toString v.patch ++ " pre-release " ++ quotedList v.preRelease ++ " build " ++
    quotedList v.build ++ "\n"

/-- The line shows the argument and the parts of the version that it is, from which it can be put
together again. -/
def Shows (argument line : String) : Prop :=
  ∃ v : Version, parse argument.toList = .complete v ∧ line = shownLine argument v ∧
    v.joinedText = argument

/-- The letters, one by one. -/
theorem forall_isAlpha {P : Char → Prop} (hupper : ∀ i < 26, P (Char.ofNat (65 + i)))
    (hlower : ∀ i < 26, P (Char.ofNat (97 + i))) {c : Char} (hc : c.isAlpha = true) : P c := by
  rcases Bool.or_eq_true_iff.mp hc with h | h
  · have hcode : 65 ≤ c.toNat ∧ c.toNat ≤ 90 := of_decide_eq_true h
    exact Numeral.forall_between 65 26 hupper hcode.1 (Nat.lt_succ_of_le hcode.2)
  · obtain ⟨hlo, hhi⟩ := Bool.and_eq_true_iff.mp h
    have hcode : 97 ≤ c.toNat ∧ c.toNat ≤ 122 := ⟨of_decide_eq_true hlo, of_decide_eq_true hhi⟩
    exact Numeral.forall_between 97 26 hlower hcode.1 (Nat.lt_succ_of_le hcode.2)

/-- Characters of identifiers are not escaped. -/
theorem escape_of_isIdentifierChar {c : Char} (h : isIdentifierChar c = true) :
    Text.escape '"' c = [c] := by
  rcases Bool.or_eq_true_iff.mp h with hdigit | hother
  · exact Numeral.forall_isDigit (P := fun c => Text.escape '"' c = [c]) (by decide) hdigit
  rcases Bool.or_eq_true_iff.mp hother with hletter | hhyphen
  · exact forall_isAlpha (P := fun c => Text.escape '"' c = [c]) (by decide) (by decide) hletter
  · obtain rfl := beq_iff_eq.mp hhyphen
    rfl

theorem inspect_identifier {w : String} (h : ∀ c ∈ w.toList, isIdentifierChar c = true) :
    inspect w = "\"" ++ w ++ "\"" := by
  have hescape : w.toList.flatMap (Text.escape '"') = w.toList := by
    rw [List.flatMap_congr fun c hc => escape_of_isIdentifierChar (h c hc),
      List.flatMap_singleton']
  show Text.quote '"' w.toList = _
  rw [Text.quote, hescape, ← String.toList_inj]
  simp

theorem inspect_identifiers {ws : List String}
    (h : ∀ w ∈ ws, ∀ c ∈ w.toList, isIdentifierChar c = true) : inspect ws = quotedList ws := by
  show Text.bracketed (ws.map inspect) = _
  rw [List.map_congr_left fun w hw => inspect_identifier (h w hw)]
  rfl

theorem reportLine_eq (argument : String) (hv : v.Valid) :
    reportLine argument v = shownLine argument v := by
  have hchars : ∀ w ∈ v.preRelease, ∀ c ∈ w.toList, isIdentifierChar c = true := by
    intro w hw
    have hbuild := ((valid_iff.mp hv).1 w hw).build
    exact (Bnf.buildIdentifier_iff.mp hbuild).2
  rw [reportLine, inspect_identifiers hchars, inspect_identifiers fun w hw => (hv.build w hw).2]
  rfl

/-! ## Reports -/

/-- The report on a version is its line. -/
theorem reportOne_of_semver (h : Bnf.Semver a.toList) :
    (reportOne a).succeeded = true ∧ Shows a (reportOne a).output := by
  obtain ⟨v, hv⟩ := semver_iff_parse.mp h
  obtain ⟨hvalid, htext⟩ := parse_complete_iff.mp hv
  have hreport : reportOne a = ⟨true, shownLine a v⟩ := by
    -- The equations of `reportOne` are not used, since finding them runs the parser.
    unfold reportOne
    rw [hv, ← reportLine_eq a hvalid]
  rw [hreport]
  exact ⟨rfl, v, hv, rfl, by rw [joinedText_eq, ← htext, String.ofList_toList]⟩

/-- Nothing is printed for any other text. -/
theorem reportOne_of_not_semver (h : ¬ Bnf.Semver a.toList) : reportOne a = ⟨false, ""⟩ := by
  rcases isRejected_iff.mpr h with ⟨f, hf⟩ | ⟨offset, remaining, hr⟩
  · unfold reportOne
    rw [hf]
  · unfold reportOne
    rw [hr]

theorem succeeded_reportOne : (reportOne a).succeeded = true ↔ Bnf.Semver a.toList := by
  by_cases h : Bnf.Semver a.toList
  · simp [h, (reportOne_of_semver h).1]
  · simp [h, reportOne_of_not_semver h]

/-- The reports after a report are added to it one after another: what is printed comes after what
was printed, and a report that did not succeed is not forgotten. -/
theorem foldl_reportBoth (reports : List Report) (r : Report) :
    reports.foldl reportBoth r =
      ⟨r.succeeded && reports.all Report.succeeded,
        r.output ++ String.join (reports.map Report.output)⟩ := by
  induction reports generalizing r with
  | nil => simp
  | cons report reports ih =>
    rw [List.foldl_cons, ih, reportBoth]
    simp [Bool.and_assoc, String.append_assoc]

theorem report_eq {arguments : List String} (h : arguments ≠ []) :
    report arguments = ⟨arguments.all fun a => (reportOne a).succeeded,
      String.join (arguments.map fun a => (reportOne a).output)⟩ := by
  have hempty : arguments.isEmpty = false := by simpa using h
  rw [report, hempty, if_neg Bool.false_ne_true, foldl_reportBoth]
  simp [Function.comp_def]

/-- What is printed are the lines of the versions, in the order of the arguments. -/
theorem exists_lines (arguments : List String) :
    ∃ lines, List.Forall₂ Shows (arguments.filter fun a => Bnf.Semver a.toList) lines ∧
      String.join (arguments.map fun a => (reportOne a).output) = String.join lines := by
  induction arguments with
  | nil => exact ⟨[], .nil, rfl⟩
  | cons a arguments ih =>
    obtain ⟨lines, hlines, hjoin⟩ := ih
    rw [List.map_cons, String.join_cons, hjoin]
    by_cases h : Bnf.Semver a.toList
    · refine ⟨(reportOne a).output :: lines, ?_, String.join_cons.symm⟩
      rw [List.filter_cons_of_pos (by simpa using h)]
      exact .cons (reportOne_of_semver h).2 hlines
    · refine ⟨lines, ?_, ?_⟩
      · rwa [List.filter_cons_of_neg (by simpa using h)]
      · rw [reportOne_of_not_semver h, String.empty_append]

theorem succeeded_report {arguments : List String} (h : arguments ≠ []) :
    (report arguments).succeeded = true ↔ ∀ a ∈ arguments, Bnf.Semver a.toList := by
  rw [report_eq h, List.all_eq_true]
  simp only [succeeded_reportOne]

/-- Where there are arguments, one line is printed for each that is a version, in their order, and
it shows the parts that the argument is put together from. The exit code is one if any argument is
rejected, wherever it stands, and zero otherwise. -/
theorem report_versions {arguments : List String} (h : arguments ≠ []) :
    (∃ lines, List.Forall₂ Shows (arguments.filter fun a => Bnf.Semver a.toList) lines ∧
      (report arguments).output = String.join lines) ∧
    ((report arguments).exitCode = 1 ↔ ∃ a ∈ arguments, IsRejected a.toList) ∧
    ((report arguments).exitCode = 0 ↔ ∀ a ∈ arguments, Bnf.Semver a.toList) := by
  refine ⟨?_, ?_, ?_⟩
  · rw [report_eq h]
    exact exists_lines arguments
  · rw [Report.exitCode_eq_one_iff, ← Bool.not_eq_true, succeeded_report h]
    simp only [isRejected_iff, not_forall, exists_prop]
  · rw [Report.exitCode_eq_zero_iff, succeeded_report h]

/-- A text with a leading zero stands between two versions. -/
theorem report_versions_between :
    let arguments := ["1.0.0-rc.1+5", "01.0.0", "2.10.0"]
    arguments ≠ [] ∧
    (∃ lines, List.Forall₂ Shows ["1.0.0-rc.1+5", "2.10.0"] lines ∧
      (report arguments).output = String.join lines) ∧
    (report arguments).exitCode = 1 := by
  intro arguments
  have hne : arguments ≠ [] := List.cons_ne_nil _ _
  have hfilter : (arguments.filter fun a => Bnf.Semver a.toList) = ["1.0.0-rc.1+5", "2.10.0"] := by
    decide
  have hrejected : IsRejected "01.0.0".toList := isRejected_iff.mpr (by decide)
  obtain ⟨hlines, hexit, -⟩ := report_versions hne
  rw [hfilter] at hlines
  exact ⟨hne, hlines, hexit.mpr ⟨"01.0.0", by simp [arguments], hrejected⟩⟩

example : (report ["01.0.0", "1.0.0-rc.1+5"]).output =
    "1.0.0-rc.1+5: major 1 minor 0 patch 0 pre-release [\"rc\", \"1\"] build [\"5\"]\n" := by
  decide

end Version
end Descent
