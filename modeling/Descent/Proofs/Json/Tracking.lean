import Descent.Proofs.Json.Depth
import Descent.Proofs.Json.Values

/-!
# The scan follows the grammar

The scan for depth and the grammar treat brackets, strings and escapes each in its own way: the scan
with a count and a mode that it changes character by character, the grammar with rules that call
each other. On the text of a value they keep in step (`ScanFollows`): the scan passes over the whole
text, is behind it as it was before it, and has had just as many more brackets open on the way as
the value is deep. Between the quotation marks of a string it is in the string, wherever that is
cut, and behind the last one it is outside.
-/

namespace Descent.Json

open Descent.Parser Scan

variable {t : Text}

/-! ## Inside a string -/

/-- The scan is in the string within an escape, and behind the backslash, too. -/
theorem exists_run_of_prefix_escape {c : Char} {u : Text} (hu : ∀ d ∈ u, d ≠ '"' ∧ d ≠ '\\')
    (h : t <+: '\\' :: c :: u) (k : Nat) :
    ∃ mode, mode ≠ .outside ∧ run ⟨k, .inString⟩ t = .passed ⟨k, mode⟩ k := by
  rcases List.prefix_cons_iff.mp h with rfl | ⟨v, rfl, hv⟩
  · exact ⟨.inString, by decide, rfl⟩
  rcases List.prefix_cons_iff.mp hv with rfl | ⟨w, rfl, hw⟩
  · exact ⟨.escaped, by decide, by simp [run, step]⟩
  · exact ⟨.inString, by decide, run_escape c (fun d hd => hu d (hw.subset hd)) k⟩

theorem exists_run_of_prefix_piece {p : Piece} (h : t <+: p.text) (k : Nat) :
    ∃ mode, mode ≠ .outside ∧ run ⟨k, .inString⟩ t = .passed ⟨k, mode⟩ k := by
  cases p with
  | plain c hc =>
    have hplain : ∀ d ∈ t, d ≠ '"' ∧ d ≠ '\\' := by
      intro d hd
      obtain rfl := List.mem_singleton.mp (h.subset hd)
      exact hc.2
    exact ⟨.inString, by decide, run_inString hplain k⟩
  | short mark c hmem => exact exists_run_of_prefix_escape (by simp) h k
  | unit digits => exact exists_run_of_prefix_escape (isUnescaped_of_hexQuad digits) h k

theorem exists_run_of_prefix_pieces {ps : List Piece} (h : t <+: piecesText ps) (k : Nat) :
    ∃ mode, mode ≠ .outside ∧ run ⟨k, .inString⟩ t = .passed ⟨k, mode⟩ k := by
  induction ps generalizing t with
  | nil =>
    obtain rfl := List.prefix_nil.mp h
    exact ⟨.inString, by decide, rfl⟩
  | cons p ps ih =>
    rw [piecesText_cons] at h
    rcases List.prefix_or_prefix_of_prefix h (List.prefix_append p.text _) with hp | ⟨u, rfl⟩
    · exact exists_run_of_prefix_piece hp k
    · obtain ⟨mode, hmode, hu⟩ := ih ((List.prefix_append_right_inj p.text).mp h)
      exact ⟨mode, hmode, by simp [run_append, run_piece, hu]⟩

/-- The scan enters a string with its first quotation mark. -/
theorem run_quote (k : Nat) (t : Text) :
    run ⟨k, .outside⟩ ('"' :: t) = (run ⟨k, .inString⟩ t).raise k := rfl

/-! ## Values -/

/-- Each text that the parser reads, with the blanks after it, is that of a document, and the scan
passes over it from inside any bracket if the document is not too deep there. It is then in the
state that it was in before, and the most brackets that were open on the way are as many more as the
document is deep. -/
def ScanFollows (p : Parser Json) : Prop :=
  ∀ {t r : Text} {v : Json}, p.Reads (t ++ r) v r →
    (∃ d, Spells t d ∧ d.Denotes v) ∧
    ∀ (d : Document) (k : Nat), Spells t d → 1 ≤ k → k + d.depth ≤ 128 →
      run ⟨k, .outside⟩ t = .passed ⟨k, .outside⟩ (k + d.depth) ∧
      ∀ u, accepts ⟨k, .outside⟩ (t ++ u) = accepts ⟨k, .outside⟩ u

theorem Spells.measures {d : Document} (h : Spells t d) : Measures t d.depth := by
  obtain ⟨before, after, rfl⟩ := h
  exact (measures_document d).blanks before after

theorem ReadsDocuments.scanFollows {p : Parser Json} (hp : ReadsDocuments p) : ScanFollows p := by
  intro t r v h
  constructor
  · obtain ⟨d, after, htext, hd, -⟩ := hp h
    rw [← List.append_assoc] at htext
    exact ⟨d, ⟨⟨[], by simp⟩, after, List.append_cancel_right htext⟩, hd⟩
  · intro d k hspells hk hdepth
    obtain ⟨k, rfl⟩ : ∃ n, k = n + 1 := ⟨k - 1, by omega⟩
    have hrun : run ⟨k + 1, .outside⟩ t = .passed ⟨k + 1, .outside⟩ (k + 1 + d.depth) := by
      rw [hspells.measures k (Nat.le_trans (Nat.le_add_right _ _) hdepth)]
      exact if_pos hdepth
    exact ⟨hrun, accepts_append_of_run hrun⟩

/-- The scan follows the rule for values, however deep its calls nest. And it follows string
literals: it is in the string from the first quotation mark to the last. -/
theorem scan_follows_grammar :
    ScanFollows value ∧ (∀ n, ScanFollows (nested valueBody n)) ∧
    ∀ {t r : Text} {w : String}, stringLiteral.Reads (t ++ r) w r →
      ∃ body : Text, t = '"' :: (body ++ ['"']) ∧ ∀ k,
        (∀ u, u <+: body → ∃ mode, mode ≠ .outside ∧
          run ⟨k, .outside⟩ ('"' :: u) = .passed ⟨k, mode⟩ k) ∧
        run ⟨k, .outside⟩ t = .passed ⟨k, .outside⟩ k := by
  refine ⟨ReadsDocuments.scanFollows value_sound, fun n =>
    ReadsDocuments.scanFollows (nested_sound n), ?_⟩
  intro t r w h
  obtain ⟨ps, htext, -⟩ := reads_stringLiteral.mp h
  obtain rfl := List.append_cancel_right htext
  refine ⟨piecesText ps, rfl, fun k => ⟨?_, run_quoted ps k⟩⟩
  intro u hu
  obtain ⟨mode, hmode, hrun⟩ := exists_run_of_prefix_pieces hu k
  exact ⟨mode, hmode, by rw [run_quote, hrun, Progress.raise_passed, Nat.max_self]⟩

/-- A member whose key is a bracket and a quotation mark, in the last level that is allowed. -/
theorem scan_follows_grammar_member :
    let key := ['"', ']', '\\', '"', '"']
    let t := '\x7b' :: (key ++ [':', '[', '[', ']', ']', '\x7d', ' '])
    (value.Reads (t ++ [',']) (.object [("]\"", .array [.array []])]) [','] ∧
      run ⟨125, .outside⟩ t = .passed ⟨125, .outside⟩ 128 ∧
      ∀ u, accepts ⟨125, .outside⟩ (t ++ u) = accepts ⟨125, .outside⟩ u) ∧
    stringLiteral.Reads (key ++ [':']) "]\"" [':'] ∧
      ∃ mode, mode ≠ .outside ∧
        run ⟨0, .outside⟩ ['"', ']', '\\', '"'] = .passed ⟨0, mode⟩ 0 := by
  intro key t
  have hvalue : value.Reads (t ++ [',']) (.object [("]\"", .array [.array []])]) [','] := by rfl
  have hkey : stringLiteral.Reads (key ++ [':']) "]\"" [':'] := by rfl
  let none : Gap := ⟨[], by simp⟩
  let d : Document := .object (.last none [.plain ']' (by decide), .short '"' '"' (by decide)] none
    none (.array (.last none (.emptyArray none) none)) none)
  have hspells : Spells t d := ⟨none, ⟨[' '], by simp⟩, rfl⟩
  obtain ⟨hvalues, -, hstrings⟩ := scan_follows_grammar
  refine ⟨⟨hvalue, (hvalues hvalue).2 d 125 hspells (by decide) (by decide)⟩, hkey, ?_⟩
  obtain ⟨body, hbody, hrun⟩ := hstrings hkey
  have hinside : [']', '\\', '"'] ++ ['"'] = body ++ ['"'] := (List.cons.inj hbody).2
  obtain rfl := List.append_cancel_right hinside
  exact (hrun 0).1 _ (List.prefix_refl _)

end Descent.Json
