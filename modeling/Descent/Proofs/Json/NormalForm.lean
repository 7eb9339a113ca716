import Descent.CommandLine
import Descent.Proofs.Json.RoundTrip

/-!
# Normal forms

A value that was read is in normal form: its numbers are finite, it nests at most 128 deep, and no
object in it has a key twice. So what is written for it is read as that same value. Equality of
values is not equality of numbers here: the doubles have the same bits, and a zero keeps its sign.
The report of a JSON text is what is written for its value, and to report it once more changes
nothing (`parse_normal`).
-/

namespace Descent.Json

open Descent.Parser

variable {s : Text} {v : Json}

theorem hasDistinctKeys_of_parse (h : parse s = .complete v) : v.All HasDistinctKeys := by
  obtain ⟨before, d, after, rfl, -, hd⟩ := parser_sound (parseComplete_eq_complete_iff.mp h)
  exact hd.all fun _ _ hkeys => hkeys

/-- What is written for a value that was read is read as that value, also with blanks after it. -/
theorem parse_write_of_parse (h : parse s = .complete v) (after : Gap) :
    parse (v.write ++ after.1) = .complete v := by
  obtain ⟨hfinite, hdepth⟩ := shape_of_parse h
  exact parse_write_append (hasDistinctKeys_of_parse h) hfinite hdepth after

/-- The end of a line. -/
def lineEnd : Gap := ⟨['\n'], by simp⟩

theorem report_of_parse {arguments : List String}
    (h : parse (arguments.head?.getD exampleText).toList = .complete v) :
    report arguments = ⟨true, v.render ++ "\n"⟩ := by
  rw [report, h]

/-- A report succeeds only where a value was read. -/
theorem exists_parse_of_report {arguments : List String} (h : (report arguments).exitCode = 0) :
    ∃ v, parse (arguments.head?.getD exampleText).toList = .complete v := by
  unfold report at h
  split at h
  · next v hparse => exact ⟨v, hparse⟩
  · cases h

/-- A value that was read has finite numbers, at most 128 levels and no key twice in an object, and
what is written for it is read as the same value, bit by bit. A report that succeeds is its own
report. -/
theorem parse_normal :
    (∀ {s : Text} {v : Json}, parse s = .complete v →
      (v.All IsFinite ∧ v.depth ≤ 128 ∧ v.All HasDistinctKeys) ∧ parse v.write = .complete v) ∧
      ∀ arguments rest : List String, (report arguments).exitCode = 0 →
        report ((report arguments).output :: rest) = report arguments := by
  constructor
  · intro s v h
    obtain ⟨hfinite, hdepth⟩ := shape_of_parse h
    have hkeys := hasDistinctKeys_of_parse h
    exact ⟨⟨hfinite, hdepth, hkeys⟩, parse_write hkeys hfinite hdepth⟩
  · intro arguments rest h
    obtain ⟨v, hparse⟩ := exists_parse_of_report h
    rw [report_of_parse hparse]
    -- What is printed is what is written, and the line ends after it.
    have hagain : parse (v.render ++ "\n").toList = .complete v := by
      rw [render, String.toList_append, String.toList_ofList]
      exact parse_write_of_parse hparse lineEnd
    exact report_of_parse hagain

/-- A key that comes twice, blanks, an exponent, and a zero with a sign. -/
theorem parse_normal_members :
    let s := " \x7b\"a\" : null, \"b\":[1E2,-0.0],\"a\":true\x7d "
    (report [s]).output = "\x7b\"b\":[100,-0],\"a\":true\x7d\n" ∧ (report [s]).exitCode = 0 ∧
      report [(report [s]).output] = report [s] ∧
      ∃ v, parse s.toList = .complete v ∧
        (v.All IsFinite ∧ v.depth ≤ 128 ∧ v.All HasDistinctKeys) ∧ parse v.write = .complete v := by
  intro s
  have hreport : (report [s]).exitCode = 0 := by decide +kernel
  obtain ⟨v, hparse⟩ := exists_parse_of_report hreport
  exact ⟨by decide +kernel, hreport, parse_normal.2 [s] [] hreport, v, hparse,
    parse_normal.1 hparse⟩

end Descent.Json
