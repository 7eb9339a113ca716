import Descent.Proofs.Json.Depth
import Descent.Proofs.Json.Values
import Descent.Proofs.Parser.Completion

/-!
# The language of the JSON parser

A text is read as a value exactly if it is that of a document which denotes the value and nests at
most 128 deep (`parse_eq_complete_iff`). The documents know nothing of the parser, so this says at
once what is accepted, what is refused and what every accepted text means.

When more text follows the first value, it is left as it is, with one exception. The scan for depth
does not end with a string but goes on behind it, so what follows a string with no blank between
them is measured too, although none of it is read (`outcome_parser_append`). In the other direction
there is no exception: the part of a text that was read is the text of the same value, without what
was left (`parse_of_reads`).
-/

namespace Descent.Json

open Descent.Parser

variable {s r : Text} {v : Json}

/-! ## Whole texts -/

theorem reads_depthLimit {u : Unit} :
    depthLimit.Reads s u r ↔ Scan.start.accepts s = true ∧ s = r := by
  rw [Reads, depthLimit]
  by_cases h : Scan.start.accepts s = true <;> simp [h, Reply.success, Reply.failure]

/-- What is read is a document with blanks around it, of which the scan takes no exception. -/
theorem parser_sound (h : parser.Reads s v r) :
    ∃ (before : Gap) (d : Document) (after : Gap), s = before.1 ++ (d.text ++ (after.1 ++ r)) ∧
      Scan.start.accepts (d.text ++ (after.1 ++ r)) = true ∧ d.Denotes v := by
  rw [parser, reads_skipThen] at h
  obtain ⟨⟨⟩, t, hblanks, h⟩ := h
  obtain ⟨before, rfl, -⟩ := reads_blanks.mp hblanks
  rw [reads_skipThen] at h
  obtain ⟨⟨⟩, u, hlimit, hvalue⟩ := h
  obtain ⟨haccepts, rfl⟩ := reads_depthLimit.mp hlimit
  obtain ⟨d, after, rfl, hd, -⟩ := value_sound hvalue
  exact ⟨before, d, after, rfl, haccepts, hd⟩

/-- Before a document, the parser ends as the rule for values does, or at the limit on nesting. -/
theorem outcome_parser_document (before : Gap) (d : Document) (r : Text) :
    (parser (before.1 ++ (d.text ++ r))).outcome =
      if Scan.start.accepts (d.text ++ r) then (value (d.text ++ r)).outcome
      else .failure (Cause.nesting maxDepth (d.text ++ r)) := by
  have hblanks : blanks.Reads (before.1 ++ (d.text ++ r)) () (d.text ++ r) :=
    reads_blanks.mpr ⟨before, rfl, d.avoids_isBlank r⟩
  rw [parser, hblanks.outcome_skipThen]
  split
  · next h => exact ((reads_depthLimit (u := ())).mpr ⟨h, rfl⟩).outcome_skipThen
  · next h =>
    apply outcome_skipThen_of_failure
    rw [depthLimit, if_neg h]
    rfl

theorem accepts_start_gap (gap : Gap) (r : Text) (h : gap.1 = [] → Scan.start.accepts r = true) :
    Scan.start.accepts (gap.1 ++ r) = true := by
  obtain ⟨t, ht⟩ := gap
  cases t with
  | nil => exact h rfl
  | cons c t => exact accepts_start_of_not_structural (not_structural_of_gap ⟨_, ht⟩ c (by simp))

/-- The scan accepts a document by its depth, and the text after it only behind a string. -/
theorem accepts_document_append {d : Document} (hdepth : d.depth ≤ 128) (after : Gap)
    (hr : (∃ ps, d = .string ps) → after.1 = [] → Scan.start.accepts r = true) :
    Scan.start.accepts (d.text ++ (after.1 ++ r)) = true := by
  by_cases hstring : ∃ ps, d = .string ps
  · obtain ⟨ps, rfl⟩ := hstring
    exact (accepts_quoted 0 ps _).trans (accepts_start_gap after r (hr ⟨ps, rfl⟩))
  · rw [accepts_start_document (fun ps hps => hstring ⟨ps, hps⟩)]
    exact decide_eq_true hdepth

theorem depth_le_of_accepts {d : Document} (h : Scan.start.accepts (d.text ++ r) = true) :
    d.depth ≤ 128 := by
  by_cases hstring : ∃ ps, d = .string ps
  · obtain ⟨ps, rfl⟩ := hstring
    exact Nat.zero_le _
  · rw [accepts_start_document (fun ps hps => hstring ⟨ps, hps⟩)] at h
    exact of_decide_eq_true h

/-- A document of at most 128 levels is read, whatever follows it, unless that goes on with it or
the scan takes exception to it. -/
theorem parser_complete {before : Gap} {d : Document} {after : Gap} (hd : d.Denotes v)
    (hdepth : d.depth ≤ 128) (hstops : d.Stops after r)
    (hr : (∃ ps, d = .string ps) → after.1 = [] → Scan.start.accepts r = true) :
    parser.Reads (before.1 ++ (d.text ++ (after.1 ++ r))) v r := by
  rw [Reads, outcome_parser_document, if_pos (accepts_document_append hdepth after hr)]
  exact value_complete hd hstops

/-- A document of at most 128 levels is read as the value that it denotes. -/
theorem parse_document (before : Gap) {d : Document} (after : Gap) (hd : d.Denotes v)
    (hdepth : d.depth ≤ 128) : parse (before.1 ++ (d.text ++ after.1)) = .complete v := by
  have hread : parser.Reads (before.1 ++ (d.text ++ (after.1 ++ []))) v [] :=
    parser_complete hd hdepth (d.stops_nil after) (fun _ _ => rfl)
  rw [parse, parseComplete_eq_complete_iff]
  simpa using hread

/-- A text is read as a value exactly if it is a JSON text of at most 128 levels that denotes the
value. -/
theorem parse_eq_complete_iff {s : Text} {v : Json} :
    parse s = .complete v ↔ ∃ d : Document, Spells s d ∧ d.depth ≤ 128 ∧ d.Denotes v := by
  rw [parse, parseComplete_eq_complete_iff]
  constructor
  · intro h
    obtain ⟨before, d, after, rfl, haccepts, hd⟩ := parser_sound h
    exact ⟨d, ⟨before, after, by simp⟩, depth_le_of_accepts haccepts, hd⟩
  · rintro ⟨d, ⟨before, after, rfl⟩, hdepth, hd⟩
    have h : parser.Reads (before.1 ++ (d.text ++ (after.1 ++ []))) v [] :=
      parser_complete hd hdepth (d.stops_of_avoids after Text.avoids_nil Text.avoids_nil)
        (fun _ _ => rfl)
    simpa using h

/-! ## Text after the first value -/

/-- Whether a text ends in a number, with no blank after it, when it is read as a value. -/
def endsInNumber (d : Text) : Json → Bool
  | .number _ => !d.getLast?.any Lexeme.isBlank
  | _ => false

/-- Whether a text ends in a string, with no blank after it, when it is read as a value. -/
def endsInString (d : Text) : Json → Bool
  | .string _ => !d.getLast?.any Lexeme.isBlank
  | _ => false

theorem not_isBlank_of_mem_text {l : NumberLiteral} {c : Char} (h : c ∈ l.text) :
    Lexeme.isBlank c = false := by
  rcases NumberLiteral.of_mem_text h with h | rfl | rfl | rfl | rfl | rfl
  · exact not_isBlank_of_startsNumber c (by simp [startsNumber, h])
  all_goals rfl

/-- No document ends with a blank. -/
theorem exists_getLast?_text (d : Document) :
    ∃ c, d.text.getLast? = some c ∧ Lexeme.isBlank c = false := by
  cases d with
  | null => exact ⟨'l', rfl, rfl⟩
  | bool b => cases b <;> exact ⟨'e', rfl, rfl⟩
  | number l =>
    exact ⟨_, List.getLast?_eq_some_getLast l.text_ne_nil,
      not_isBlank_of_mem_text (List.getLast_mem l.text_ne_nil)⟩
  | string ps => exact ⟨'"', by simp [quoted, List.getLast?_cons], rfl⟩
  | emptyArray | array => exact ⟨']', by simp [List.getLast?_cons], rfl⟩
  | emptyObject | object => exact ⟨'\x7d', by simp [List.getLast?_cons], rfl⟩

/-- A text ends with a blank if there is one after the document in it. -/
theorem any_getLast?_append_gap (before : Text) (d : Document) (after : Gap) :
    (before ++ (d.text ++ after.1)).getLast?.any Lexeme.isBlank = !after.1.isEmpty := by
  rw [List.getLast?_append, List.getLast?_append]
  cases h : after.1.getLast? with
  | none =>
    obtain ⟨c, hc, hblank⟩ := exists_getLast?_text d
    simp [List.getLast?_eq_none_iff.mp h, hc, hblank]
  | some c =>
    have hmem : c ∈ after.1 := List.mem_of_mem_getLast? h
    have hblank : Lexeme.isBlank c = true := isBlank_iff.mpr (after.2 c hmem)
    simp [hblank, List.ne_nil_of_mem hmem]

theorem dropWhile_gap_append (gap : Gap) {t : Text} (ht : t.Avoids Lexeme.isBlank) :
    (gap.1 ++ t).dropWhile Lexeme.isBlank = t :=
  Text.dropWhile_append_of_avoids (fun c hc => isBlank_iff.mpr (gap.2 c hc)) ht

theorem exists_pieces_of_denotes {d : Document} {w : String} (hd : d.Denotes (.string w)) :
    ∃ ps, d = .string ps := by
  cases d with
  | string ps => exact ⟨ps, rfl⟩
  | _ => simp at hd

/-- A text ends in a string if its document is one and no blank comes after it. -/
theorem endsInString_iff (before : Text) {d : Document} (after : Gap) (hd : d.Denotes v) :
    endsInString (before ++ (d.text ++ after.1)) v = true ↔
      (∃ ps, d = .string ps) ∧ after.1 = [] := by
  have hlast := any_getLast?_append_gap before d after
  constructor
  · intro h
    cases v with
    | string w =>
      rw [endsInString, hlast] at h
      exact ⟨exists_pieces_of_denotes hd, by simpa using h⟩
    | _ => cases h
  · intro h
    obtain ⟨⟨ps, rfl⟩, hafter⟩ := h
    obtain ⟨w, -, rfl⟩ := hd
    rw [endsInString, hlast, hafter]
    rfl

theorem endsInNumber_of_literal (before : Text) {l : NumberLiteral} {after : Gap}
    (hd : (Document.number l).Denotes v) (hafter : after.1 = []) :
    endsInNumber (before ++ ((Document.number l).text ++ after.1)) v = true := by
  have hlast := any_getLast?_append_gap before (.number l) after
  obtain ⟨x, -, -, rfl⟩ := hd
  rw [endsInNumber, hlast, hafter]
  rfl

/-- A text that is read as a value is read as that value, too, when another text follows that does
not go on with it, and the other text is left. Only behind a string with no blank after it, a text
that the scan takes to nest too deeply makes the parser refuse both. -/
theorem outcome_parser_append {d t : Text} {v : Json} (hd : parse d = .complete v)
    (ht : t.Avoids Lexeme.isBlank)
    (hnumber : endsInNumber d v = true → t.Avoids continuesNumber) :
    (parser (d ++ t)).outcome =
      if endsInString d v && !Scan.start.accepts t then
        .failure (Cause.nesting maxDepth (d.dropWhile Lexeme.isBlank ++ t))
      else .success v t := by
  obtain ⟨before, d, after, rfl, haccepts, hd⟩ :=
    parser_sound (parseComplete_eq_complete_iff.mp hd)
  simp only [List.append_nil] at haccepts hnumber ⊢
  have hstring := endsInString_iff before.1 after hd
  have htext : before.1 ++ (d.text ++ after.1) ++ t = before.1 ++ (d.text ++ (after.1 ++ t)) := by
    simp
  rw [htext]
  split
  · next h =>
    rw [Bool.and_eq_true, hstring, Bool.not_eq_true'] at h
    obtain ⟨⟨⟨ps, rfl⟩, hafter⟩, ht⟩ := h
    -- The scan is behind the string as it was before it.
    have hquoted : Scan.start.accepts ((Document.string ps).text ++ (after.1 ++ t)) = false := by
      rw [hafter]
      exact (accepts_quoted 0 ps t).trans ht
    rw [outcome_parser_document, hquoted, if_neg Bool.false_ne_true,
      dropWhile_gap_append before (Document.avoids_isBlank _ _), List.append_assoc]
  · next h =>
    refine parser_complete hd (depth_le_of_accepts haccepts) ⟨ht, ?_⟩ ?_
    · rintro l rfl
      exact avoids_continuesNumber after fun hafter =>
        hnumber (endsInNumber_of_literal before.1 hd hafter)
    · intro hpieces hafter
      rw [hstring.mpr ⟨hpieces, hafter⟩] at h
      simpa using h

/-- A short string with 129 brackets behind it is refused. -/
theorem outcome_parser_letter_brackets :
    parse ['"', 'a', '"'] = .complete (.string "a") ∧
      Text.Avoids (List.replicate 129 '[') Lexeme.isBlank ∧
      (parser (['"', 'a', '"'] ++ List.replicate 129 '[')).outcome =
        .failure (Cause.nesting 128 (['"', 'a', '"'] ++ List.replicate 129 '[')) := by
  have hparse : parse ['"', 'a', '"'] = .complete (.string "a") := by rfl
  have havoids : Text.Avoids (List.replicate 129 '[') Lexeme.isBlank := by decide
  refine ⟨hparse, havoids, ?_⟩
  have h := outcome_parser_append hparse havoids (fun hnumber => by cases hnumber)
  rw [if_pos (by decide)] at h
  exact h

/-- So not every text that may follow a value leaves it acceptable. -/
theorem exists_append_not_success :
    ∃ (d t : Text) (v : Json), parse d = .complete v ∧ t.Avoids Lexeme.isBlank ∧
      (endsInNumber d v = true → t.Avoids continuesNumber) ∧
      (parser (d ++ t)).outcome ≠ .success v t := by
  refine ⟨['"', 'a', '"'], List.replicate 129 '[', .string "a", by rfl, by decide, ?_, ?_⟩
  · intro hnumber
    cases hnumber
  · have h := outcome_parser_document ⟨[], by simp⟩ (.string [.plain 'a' (by decide)])
      (List.replicate 129 '[')
    rw [if_neg (by decide)] at h
    intro hsuccess
    have heq := hsuccess.symm.trans h
    cases heq

/-! ## Text that was read -/

/-- No blank is left. -/
theorem avoids_isBlank_of_reads (h : parser.Reads s v r) : r.Avoids Lexeme.isBlank := by
  rw [parser, reads_skipThen] at h
  obtain ⟨-, t, -, h⟩ := h
  rw [reads_skipThen] at h
  obtain ⟨-, u, -, hvalue⟩ := h
  obtain ⟨-, -, -, -, hr⟩ := value_sound hvalue
  exact hr

/-- The part of a text that was read is read by itself. -/
theorem exists_parse_of_reads (h : parser.Reads s v r) :
    ∃ d : Text, s = d ++ r ∧ parse d = .complete v := by
  obtain ⟨before, d, after, rfl, haccepts, hd⟩ := parser_sound h
  -- The scan saw more than the document, but the document is all that it has measured.
  have hdepth : d.depth ≤ 128 := depth_le_of_accepts haccepts
  exact ⟨before.1 ++ (d.text ++ after.1), by simp, parse_document before after hd hdepth⟩

/-- What is read of a text is a JSON text of the same value, with all the blanks after it. So a text
that is not read to its end is one, up to the offset, and what remains begins with a character that
is no blank. -/
theorem parse_of_reads :
    (∀ {s r : Text} {v : Json}, (parser s).outcome = .success v r →
      ∃ d : Text, s = d ++ r ∧ parse d = .complete v ∧ r.Avoids Lexeme.isBlank) ∧
      ∀ {s remaining : Text} {offset : Nat}, parse s = .incomplete offset remaining →
        ∃ (d : Text) (v : Json), s = d ++ remaining ∧ d.utf8Encode = s.utf8Encode.extract 0 offset ∧
          parse d = .complete v ∧ ∃ c ∈ remaining.head?, Lexeme.isBlank c = false := by
  constructor
  · intro s r v h
    obtain ⟨d, hs, hd⟩ := exists_parse_of_reads h
    exact ⟨d, hs, hd, avoids_isBlank_of_reads h⟩
  · intro s remaining offset h
    obtain ⟨⟨v, hread⟩, hne, rfl⟩ := parseComplete_eq_incomplete_iff.mp h
    obtain ⟨d, rfl, hd⟩ := exists_parse_of_reads hread
    obtain ⟨c, t, rfl⟩ := List.exists_cons_of_ne_nil hne
    have hoffset : (d ++ c :: t).byteLength - Text.byteLength (c :: t) = d.byteLength := by
      rw [Text.byteLength_append, Nat.add_sub_cancel]
    refine ⟨d, v, rfl, ?_, hd, c, rfl, Text.avoids_cons.mp (avoids_isBlank_of_reads hread)⟩
    rw [hoffset, Text.extract_utf8Encode_append]

/-- A string with a letter of two bytes and a blank after it, and then a bracket. -/
theorem parse_of_reads_string :
    let s := ['"', 'é', '"', ' ', '[']
    (parser s).outcome = .success (.string "é") ['['] ∧ parse s = .incomplete 5 ['['] ∧
      (∃ d : Text, s = d ++ ['['] ∧ parse d = .complete (.string "é") ∧
        Text.Avoids ['['] Lexeme.isBlank) ∧
      ∃ (d : Text) (v : Json), s = d ++ ['['] ∧ d.utf8Encode = s.utf8Encode.extract 0 5 ∧
        parse d = .complete v ∧ ∃ c ∈ ['['].head?, Lexeme.isBlank c = false := by
  intro s
  have houtcome : (parser s).outcome = .success (.string "é") ['['] := by rfl
  have hparse : parse s = .incomplete 5 ['['] := by rfl
  exact ⟨houtcome, hparse, parse_of_reads.1 houtcome, parse_of_reads.2 hparse⟩

end Descent.Json
