import Descent.Proofs.Json.Language
import Descent.Proofs.Json.Written

/-!
# Reading what was written

A value is read back from what is written for it exactly if its numbers are finite and it nests at
most 128 deep (`parse_write_iff`). There is nothing else to it: brackets, quotation marks and
control characters may stand in any string, and two texts that are written side by side never merge.
-/

namespace Descent.Json

open Descent.Parser

variable {v : Json}

/-- A value with finite numbers and at most 128 levels is read back, also with blanks after it. -/
theorem parse_write_append (hkeys : v.All HasDistinctKeys) (hfinite : v.All IsFinite)
    (hdepth : v.depth ≤ 128) (after : Gap) : parse (v.write ++ after.1) = .complete v := by
  obtain ⟨d, htext, hlevels, hd⟩ := exists_document hkeys hfinite
  have hparse : parse (noGap.1 ++ (d.text ++ after.1)) = .complete v :=
    parse_document noGap after hd (hlevels ▸ hdepth)
  rwa [htext] at hparse

theorem parse_write (hkeys : v.All HasDistinctKeys) (hfinite : v.All IsFinite)
    (hdepth : v.depth ≤ 128) : parse v.write = .complete v := by
  simpa [noGap] using parse_write_append hkeys hfinite hdepth noGap

/-- Whatever is read has finite numbers and at most 128 levels. -/
theorem shape_of_parse {s : Text} (h : parse s = .complete v) :
    v.All IsFinite ∧ v.depth ≤ 128 := by
  obtain ⟨before, d, after, rfl, haccepts, hd⟩ := parser_sound (parseComplete_eq_complete_iff.mp h)
  have hdepth : d.depth ≤ 128 := depth_le_of_accepts haccepts
  exact ⟨hd.all fun _ hfinite _ => hfinite, Nat.le_trans hd.depth_le hdepth⟩

/-- A value is read back from what is written for it exactly if its numbers are finite and it nests
at most 128 deep. -/
theorem parse_write_iff {v : Json} (hkeys : v.All HasDistinctKeys) :
    (∃ w, parse v.write = .complete w ∧ (w == v) = true) ↔ v.All IsFinite ∧ v.depth ≤ 128 := by
  constructor
  · intro h
    obtain ⟨w, hparse, heq⟩ := h
    obtain ⟨hfinite, hdepth⟩ := shape_of_parse hparse
    obtain ⟨hsame, hboth⟩ := same_shape_of_beq heq
    exact ⟨hboth.mp hfinite, hsame ▸ hdepth⟩
  · intro h
    obtain ⟨hfinite, hdepth⟩ := h
    exact ⟨v, parse_write hkeys hfinite hdepth, beq_self hfinite⟩

/-- An object in an array, with a quotation mark in its key. -/
theorem exists_parse_write_nested :
    ∃ w, parse (array [object [("\"[", null), ("", bool true)]]).write = .complete w ∧
      (w == array [object [("\"[", null), ("", bool true)]]) = true := by
  have hkeys : (array [object [("\"[", null), ("", bool true)]]).All HasDistinctKeys := by
    simp [All, AllItems, AllMembers, HasDistinctKeys]
  refine (parse_write_iff hkeys).mpr ⟨?_, ?_⟩
  · simp [All, AllItems, AllMembers, IsFinite]
  · decide

end Descent.Json
