import Descent.Proofs.Json.Calls
import Descent.Proofs.Json.Written

/-!
# The events of a document

The run on a text that is accepted reports the values in it, each when it is tried and when it has
been read, in the order in which they are written and with one span for each level. That is the walk
of the document (`Document.walk`), which knows nothing of a run: `complete_document` says that the
two are the same. The only attempt that fails is the one in an empty array, at its closing bracket;
nothing is tried behind the last value of an array, or in an empty object.
-/

namespace Descent.Json

open Descent.Parser

variable {s t r : Text} {v : Json} {p : Parser Json}

/-! ## The walk of a document -/

/-- The spans around a value that is so many levels down: its own, and one for each level. -/
def valueSpans (level : Nat) : List String := List.replicate (level + 1) valueName

/-- The events of a value: the attempt, those of the values inside, and the match. -/
def valueEvents (level : Nat) (input : Text) (inside : List Event) (remaining : Text) :
    List Event :=
  ⟨.attempt input, valueSpans level⟩ :: (inside ++ [⟨.matched remaining, valueSpans level⟩])

/-- Why there is no value at a closing bracket: no alternative begins with it, and the digits of a
number are alternatives themselves. -/
def noValue (input : Text) : Failure := ⟨.unexpected input, List.replicate 7 (.unexpected input)⟩

/-- The events of the attempt at the closing bracket of an empty array. -/
def refusalEvents (level : Nat) (input : Text) : List Event :=
  [⟨.attempt input, valueSpans level⟩, ⟨.failed (noValue input), valueSpans level⟩]

mutual

/-- The walk of a value that is so many levels down. Behind the blanks after it comes `r`. -/
def Document.walk (level : Nat) (d : Document) (after : Gap) (r : Text) : List Event :=
  let inside := match d with
    | .null | .bool _ | .number _ | .string _ | .emptyObject _ => []
    | .emptyArray _ => refusalEvents (level + 1) (']' :: (after.1 ++ r))
    | .array elements => elements.walk (level + 1) (']' :: (after.1 ++ r))
    | .object members => members.walk (level + 1) ('\x7d' :: (after.1 ++ r))
  valueEvents level (d.text ++ (after.1 ++ r)) inside r

/-- The walks of the values of an array, one after the other. -/
def Elements.walk (level : Nat) (elements : Elements) (r : Text) : List Event :=
  match elements with
  | .last _ value after => value.walk level after r
  | .more _ value after rest =>
    value.walk level after (',' :: (rest.text ++ r)) ++ rest.walk level r

/-- The walks of the values of an object, also of those that a later member replaces. -/
def Members.walk (level : Nat) (members : Members) (r : Text) : List Event :=
  match members with
  | .last _ _ _ _ value after => value.walk level after r
  | .more _ _ _ _ value after rest =>
    value.walk level after (',' :: (rest.text ++ r)) ++ rest.walk level r

end

/-! ### One level further down -/

theorem map_within_valueEvents (level : Nat) (input : Text) (inside : List Event)
    (remaining : Text) :
    (valueEvents level input inside remaining).map (Event.within valueName) =
      valueEvents (level + 1) input (inside.map (Event.within valueName)) remaining := by
  simp [valueEvents, valueSpans, Event.within, List.replicate_succ]

theorem map_within_refusalEvents (level : Nat) (input : Text) :
    (refusalEvents level input).map (Event.within valueName) = refusalEvents (level + 1) input := by
  simp [refusalEvents, valueSpans, Event.within, List.replicate_succ]

mutual

/-- Inside a span for values, a walk is that of one level further down. -/
theorem Document.map_within_walk (level : Nat) (d : Document) (after : Gap) (r : Text) :
    (d.walk level after r).map (Event.within valueName) = d.walk (level + 1) after r := by
  unfold Document.walk
  rw [map_within_valueEvents]
  match d with
  | .null | .bool _ | .number _ | .string _ | .emptyObject _ => rfl
  | .emptyArray _ => simp only [map_within_refusalEvents]
  | .array elements => simp only [elements.map_within_walk]
  | .object members => simp only [members.map_within_walk]

theorem Elements.map_within_walk (level : Nat) (elements : Elements) (r : Text) :
    (elements.walk level r).map (Event.within valueName) = elements.walk (level + 1) r := by
  match elements with
  | .last _ value after => exact value.map_within_walk level after r
  | .more _ value after rest =>
    rw [Elements.walk, List.map_append, value.map_within_walk, rest.map_within_walk, Elements.walk]

theorem Members.map_within_walk (level : Nat) (members : Members) (r : Text) :
    (members.walk level r).map (Event.within valueName) = members.walk (level + 1) r := by
  match members with
  | .last _ _ _ _ value after => exact value.map_within_walk level after r
  | .more _ _ _ _ value after rest =>
    rw [Members.walk, List.map_append, value.map_within_walk, rest.map_within_walk, Members.walk]

end

/-! ## Runs on documents -/

/-- Where a value is read, its alternatives report what is inside. -/
theorem events_valueBody (h : (valueBody p).Reads s v r) :
    (valueBody p s).events =
      valueEvents 0 s ((choice (objectOf p :: arrayOf p :: scalars) s).events.map
        (Event.within valueName)) r := by
  rw [valueBody_eq, reads_traced] at h
  rw [valueBody_eq, h.events_traced]
  rfl

/-- No value is tried inside one that is neither array nor object. -/
theorem events_choice_scalar (h : s.Avoids Scan.isOpening) :
    (choice (objectOf p :: arrayOf p :: scalars) s).events = [] := by
  rw [events_choice_objectOf (h.mono fun c hc => by simp_all [Scan.isOpening]),
    events_choice_arrayOf (h.mono fun c hc => by simp_all [Scan.isOpening])]

theorem events_choice_array (gap : Gap) (ht : t.Avoids Lexeme.isBlank)
    (h : (arrayOf p).Reads ('[' :: (gap.1 ++ t)) v r) :
    (choice (objectOf p :: arrayOf p :: scalars) ('[' :: (gap.1 ++ t))).events =
      (p.sepBy (symbol ',') t).events := by
  have hopening : (symbol '[').Reads ('[' :: (gap.1 ++ t)) '[' t :=
    reads_symbol.mpr ⟨rfl, gap, rfl, ht⟩
  rw [events_choice_objectOf (Text.avoids_cons.mpr rfl), h.events_choice_cons, arrayOf, events_map,
    hopening.events_bracket (composed_symbol _) (composed_symbol _)]

theorem events_choice_object (gap : Gap) (ht : t.Avoids Lexeme.isBlank)
    (h : (objectOf p).Reads ('\x7b' :: (gap.1 ++ t)) v r) :
    (choice (objectOf p :: arrayOf p :: scalars) ('\x7b' :: (gap.1 ++ t))).events =
      ((member p).sepBy (symbol ',') t).events := by
  have hopening : (symbol '\x7b').Reads ('\x7b' :: (gap.1 ++ t)) '\x7b' t :=
    reads_symbol.mpr ⟨rfl, gap, rfl, ht⟩
  rw [h.events_choice_cons, objectOf, events_map,
    hopening.events_bracket (composed_symbol _) (composed_symbol _)]

/-- At a closing bracket, the rule reports that it was tried and that it failed. -/
theorem valueBody_closing (p : Parser Json) (t : Text) :
    valueBody p (']' :: t) = ⟨.failure (noValue (']' :: t)), refusalEvents 0 (']' :: t)⟩ := rfl

/-- A member reports what its value does. -/
theorem events_member {ps : List Piece} {key : String} (hkey : DenotesString ps key)
    (afterKey before : Gap) (ht : t.Avoids Lexeme.isBlank) :
    (member p (quoted ps ++ (afterKey.1 ++ ':' :: (before.1 ++ t)))).events = (p t).events := by
  have hread : ((token stringLiteral).thenSkip (symbol ':')).Reads
      (quoted ps ++ (afterKey.1 ++ ':' :: (before.1 ++ t))) key t :=
    reads_thenSkip.mpr ⟨':' :: (before.1 ++ t), ':',
      reads_token.mpr ⟨afterKey, reads_stringLiteral.mpr ⟨ps, rfl, hkey⟩, Text.avoids_cons.mpr rfl⟩,
      reads_symbol.mpr ⟨rfl, before, rfl, ht⟩⟩
  rw [member, events_both, hread.events_skipThen composed_memberKey]

/-- Where no key begins, no value is tried. -/
theorem events_member_of_avoids (h : s.Avoids (· == '"')) : (member p s).events = [] := by
  have hkey : ((token stringLiteral).thenSkip (symbol ':')).Fails s :=
    fails_thenSkip.mpr (Or.inl (Fails.token (fails_stringLiteral h)))
  rw [member, events_both, hkey.events_skipThen composed_memberKey]

theorem Document.avoids_isOpening {d : Document} (h : d.depth = 0) (r : Text) :
    Text.Avoids (d.text ++ r) Scan.isOpening := by
  cases d with
  | bool b => cases b <;> exact Text.avoids_cons.mpr rfl
  | number l =>
    refine l.avoids_text (fun c hc => ?_) r
    rw [← Bool.not_eq_true, isOpening_iff]
    rintro (rfl | rfl) <;> cases hc
  | null | string => exact Text.avoids_cons.mpr rfl
  | emptyArray | array | emptyObject | object => simp at h

/-- What a closing bracket goes on with: neither blanks, nor a number, nor the items before it. -/
theorem avoids_of_isClosing {c : Char} (hc : Scan.isClosing c = true) :
    Text.Avoids (c :: r) Lexeme.isBlank ∧ Text.Avoids (c :: r) continuesNumber ∧
      Text.Avoids (c :: r) (· == ',') := by
  rcases isClosing_iff.mp hc with rfl | rfl <;>
    exact ⟨Text.avoids_cons.mpr rfl, Text.avoids_cons.mpr rfl, Text.avoids_cons.mpr rfl⟩

/-- Calls that nest as deep as a text is long are enough for a document in it. -/
theorem nested_complete_of_length {n : Nat} {d : Document} {after : Gap} (hd : d.Denotes v)
    (hr : d.Stops after r) (hn : (d.text ++ (after.1 ++ r)).length < n) :
    (nested valueBody n).Reads (d.text ++ (after.1 ++ r)) v r := by
  have hdepth := d.depth_le_length
  rw [List.length_append] at hn
  exact nested_complete hd (by omega) hr

theorem reads_member_nested {n : Nat} {d : Document} {ps : List Piece} {key : String}
    (hkey : DenotesString ps key) (afterKey before : Gap) {after : Gap} (hd : d.Denotes v)
    (hr : d.Stops after r) (hn : (d.text ++ (after.1 ++ r)).length < n) :
    (member (nested valueBody n)).Reads
      (quoted ps ++ (afterKey.1 ++ ':' :: (before.1 ++ (d.text ++ (after.1 ++ r))))) (key, v) r :=
  reads_member.mpr ⟨ps, afterKey, before, _, rfl, hkey, d.avoids_isBlank _,
    nested_complete_of_length hd hr hn⟩

/-- A list of values reports what its rounds report. -/
theorem events_sepBy_nested {n : Nat} {ts : List Text} (hn : t.length < n)
    (h : Rounds (nested valueBody n) (symbol ',') t ts r) :
    ((nested valueBody n).sepBy (symbol ',') t).events =
      ts.flatMap fun u => (nested valueBody n u).events :=
  h.events_sepBy (Progresses.nonGrowing (ReadsDocuments.progresses (nested_sound n)))
    (progresses_symbol ',') (composed_symbol ',') (ends_symbol ',') fun _ hu =>
      ends_nested (Nat.lt_of_le_of_lt hu hn)

theorem events_sepBy_member_nested {n : Nat} {ts : List Text} (hn : t.length < n)
    (h : Rounds (member (nested valueBody n)) (symbol ',') t ts r) :
    ((member (nested valueBody n)).sepBy (symbol ',') t).events =
      ts.flatMap fun u => (member (nested valueBody n) u).events :=
  h.events_sepBy (nonGrowing_member (nested_sound n)) (progresses_symbol ',') (composed_symbol ',')
    (ends_symbol ',') fun _ hu => ends_member fun _ hw =>
      ends_nested (Nat.lt_of_le_of_lt (Nat.le_trans hw hu) hn)

mutual

/-- The rule, run on a document that denotes a value, reports the walk of the document. -/
theorem events_nested_document {n : Nat} {d : Document} {v : Json} {after : Gap} {r : Text}
    (hd : d.Denotes v) (hr : d.Stops after r) (hn : (d.text ++ (after.1 ++ r)).length < n) :
    (nested valueBody n (d.text ++ (after.1 ++ r))).events = d.walk 0 after r := by
  obtain ⟨n, rfl⟩ : ∃ m, n = m + 1 := ⟨n - 1, by omega⟩
  have hread : (valueBody (nested valueBody n)).Reads (d.text ++ (after.1 ++ r)) v r :=
    reads_nested_succ.mp (nested_complete_of_length hd hr hn)
  show (valueBody (nested valueBody n) (d.text ++ (after.1 ++ r))).events = d.walk 0 after r
  rw [events_valueBody hread]
  match d with
  | .null | .bool _ | .number _ | .string _ =>
    rw [events_choice_scalar (Document.avoids_isOpening rfl _), Document.walk]
    rfl
  | .emptyArray gap =>
    have htext : (Document.emptyArray gap).text ++ (after.1 ++ r) =
        '[' :: (gap.1 ++ ']' :: (after.1 ++ r)) := by simp
    rw [htext] at hn hread ⊢
    -- The rule is tried at the closing bracket, and there is a call left for it.
    obtain ⟨n, rfl⟩ : ∃ m, n = m + 1 := ⟨n - 1, by simp at hn; omega⟩
    have hreply : nested valueBody (n + 1) (']' :: (after.1 ++ r)) =
        ⟨.failure (noValue (']' :: (after.1 ++ r))), refusalEvents 0 (']' :: (after.1 ++ r))⟩ :=
      valueBody_closing _ _
    have hfails : (nested valueBody (n + 1)).Fails (']' :: (after.1 ++ r)) :=
      ⟨_, congrArg Reply.outcome hreply⟩
    rw [events_choice_array gap (Text.avoids_cons.mpr rfl) (arrayOf_of_valueBody hread),
      hfails.events_sepBy, hreply, Document.walk, htext]
    simp only [map_within_refusalEvents]
  | .array es =>
    obtain ⟨vs, hes, -⟩ := hd
    obtain ⟨before, t, ts, htext, ht, hts, hevents⟩ :=
      rounds_elements (n := n) (c := ']') (r := after.1 ++ r) hes rfl (by simp at hn ⊢; omega)
    have hdocument : (Document.array es).text ++ (after.1 ++ r) = '[' :: (before.1 ++ t) := by
      simp [← htext]
    rw [hdocument] at hn hread ⊢
    rw [events_choice_array before ht (arrayOf_of_valueBody hread),
      events_sepBy_nested (by simp at hn; omega) hts, hevents, es.map_within_walk, Document.walk,
      hdocument]
  | .emptyObject gap =>
    have htext : (Document.emptyObject gap).text ++ (after.1 ++ r) =
        '\x7b' :: (gap.1 ++ '\x7d' :: (after.1 ++ r)) := by simp
    rw [htext] at hread ⊢
    have hfails : (member (nested valueBody n)).Fails ('\x7d' :: (after.1 ++ r)) :=
      fails_member (Text.avoids_cons.mpr rfl)
    rw [events_choice_object gap (Text.avoids_cons.mpr rfl) (objectOf_of_valueBody hread),
      hfails.events_sepBy, events_member_of_avoids (Text.avoids_cons.mpr rfl), Document.walk, htext]
    rfl
  | .object members =>
    obtain ⟨ms, hms, -⟩ := hd
    obtain ⟨before, t, ts, htext, ht, hts, hevents⟩ := rounds_members (n := n) (c := '\x7d')
      (r := after.1 ++ r) hms rfl (by simp at hn ⊢; omega)
    have hdocument : (Document.object members).text ++ (after.1 ++ r) =
        '\x7b' :: (before.1 ++ t) := by simp [← htext]
    rw [hdocument] at hn hread ⊢
    rw [events_choice_object before ht (objectOf_of_valueBody hread),
      events_sepBy_member_nested (by simp at hn; omega) hts, hevents, members.map_within_walk,
      Document.walk, hdocument]

/-- The values of an array are the rounds of a list, and what these report is their walk. -/
theorem rounds_elements {n : Nat} {es : Elements} {vs : List Json} {c : Char} {r : Text}
    (hes : es.Denotes vs) (hc : Scan.isClosing c = true) (hn : (es.text ++ c :: r).length < n) :
    ∃ (before : Gap) (t : Text) (ts : List Text), es.text ++ c :: r = before.1 ++ t ∧
      t.Avoids Lexeme.isBlank ∧ Rounds (nested valueBody n) (symbol ',') t ts (c :: r) ∧
      (ts.flatMap fun u => (nested valueBody n u).events) = es.walk 0 (c :: r) := by
  obtain ⟨hblank, hnumber, hcomma⟩ := avoids_of_isClosing (r := r) hc
  match es with
  | .last before value after =>
    obtain ⟨v, hv, rfl⟩ := hes
    have hstops : value.Stops after (c :: r) := value.stops_of_avoids after hblank hnumber
    have hlength : (value.text ++ (after.1 ++ c :: r)).length < n := by
      simp at hn ⊢
      omega
    refine ⟨before, value.text ++ (after.1 ++ c :: r), [_], by simp, value.avoids_isBlank _,
      .last (nested_complete_of_length hv hstops hlength) (fails_symbol hcomma), ?_⟩
    rw [List.flatMap_singleton, events_nested_document hv hstops hlength, Elements.walk]
  | .more before value after rest =>
    obtain ⟨v, ws, hv, hws, rfl⟩ := hes
    obtain ⟨gap, t, ts, htext, ht, hts, hevents⟩ := rounds_elements (n := n) (r := r) hws hc (by
      simp at hn ⊢
      omega)
    have hstops : value.Stops after (',' :: (rest.text ++ c :: r)) := value.stops_comma after _
    have hlength : (value.text ++ (after.1 ++ ',' :: (rest.text ++ c :: r))).length < n := by
      simp at hn ⊢
      omega
    refine ⟨before, value.text ++ (after.1 ++ ',' :: (rest.text ++ c :: r)), _ :: ts, by simp,
      value.avoids_isBlank _, .more (nested_complete_of_length hv hstops hlength)
        (reads_symbol.mpr ⟨rfl, gap, by rw [htext], ht⟩) hts, ?_⟩
    rw [List.flatMap_cons, events_nested_document hv hstops hlength, hevents, Elements.walk]

/-- The members of an object are the rounds of a list, and what these report is their walk. -/
theorem rounds_members {n : Nat} {members : Members} {ms : List (String × Json)} {c : Char}
    {r : Text} (hms : members.Denotes ms) (hc : Scan.isClosing c = true)
    (hn : (members.text ++ c :: r).length < n) :
    ∃ (before : Gap) (t : Text) (ts : List Text), members.text ++ c :: r = before.1 ++ t ∧
      t.Avoids Lexeme.isBlank ∧ Rounds (member (nested valueBody n)) (symbol ',') t ts (c :: r) ∧
      (ts.flatMap fun u => (member (nested valueBody n) u).events) = members.walk 0 (c :: r) := by
  obtain ⟨hblank, hnumber, hcomma⟩ := avoids_of_isClosing (r := r) hc
  match members with
  | .last beforeKey key afterKey before value after =>
    obtain ⟨k, v, hkey, hv, rfl⟩ := hms
    have hstops : value.Stops after (c :: r) := value.stops_of_avoids after hblank hnumber
    have hlength : (value.text ++ (after.1 ++ c :: r)).length < n := by
      simp at hn ⊢
      omega
    refine ⟨beforeKey, _, [_], ?_, ?_,
      .last (reads_member_nested hkey afterKey before hv hstops hlength) (fails_symbol hcomma), ?_⟩
    · simp
    · exact Text.avoids_cons.mpr rfl
    rw [List.flatMap_singleton, events_member hkey afterKey before (value.avoids_isBlank _),
      events_nested_document hv hstops hlength, Members.walk]
  | .more beforeKey key afterKey before value after rest =>
    obtain ⟨k, v, ns, hkey, hv, hns, rfl⟩ := hms
    obtain ⟨gap, t, ts, htext, ht, hts, hevents⟩ := rounds_members (n := n) (r := r) hns hc (by
      simp at hn ⊢
      omega)
    have hstops : value.Stops after (',' :: (rest.text ++ c :: r)) := value.stops_comma after _
    have hlength : (value.text ++ (after.1 ++ ',' :: (rest.text ++ c :: r))).length < n := by
      simp at hn ⊢
      omega
    refine ⟨beforeKey, _, _ :: ts, ?_, ?_,
      .more (reads_member_nested hkey afterKey before hv hstops hlength)
        (reads_symbol.mpr ⟨rfl, gap, by rw [htext], ht⟩) hts, ?_⟩
    · simp
    · exact Text.avoids_cons.mpr rfl
    rw [List.flatMap_cons, events_member hkey afterKey before (value.avoids_isBlank _),
      events_nested_document hv hstops hlength, hevents, Members.walk]

end

/-! ## Whole texts -/

/-- Reading a document of at most 128 levels reports its walk, and nothing else. -/
theorem complete_document (before : Gap) {d : Document} (after : Gap) (hd : d.Denotes v)
    (hdepth : d.depth ≤ 128) :
    parser.complete (before.1 ++ (d.text ++ after.1)) = (.complete v, d.walk 0 after []) := by
  have hread : parser.Reads (before.1 ++ (d.text ++ after.1)) v [] :=
    parseComplete_eq_complete_iff.mp (parse_document before after hd hdepth)
  have haccepts : Scan.start.accepts (d.text ++ (after.1 ++ [])) = true :=
    accepts_document_append hdepth after fun _ _ => rfl
  have hwalk := events_nested_document hd
    (d.stops_nil after) (Nat.lt_succ_self _)
  rw [List.append_nil] at haccepts hwalk
  rw [hread.complete, parser_eq, dropWhile_gap_append before (d.avoids_isBlank _), if_pos haccepts]
  exact congrArg (Prod.mk _) hwalk

/-- A text that is accepted is that of a document, and reading it reports the walk of the document:
for each value in it the attempt and the match, in the order in which the values are written, with
one span for the value and one for each level above it, and inside each empty array the attempt at
its closing bracket, which fails. -/
theorem walk_of_parse {s : Text} {v : Json} (h : parse s = .complete v) :
    (∃ (before : Gap) (d : Document) (after : Gap),
        s = before.1 ++ (d.text ++ after.1) ∧ d.Denotes v) ∧
      ∀ (before : Gap) (d : Document) (after : Gap) (w : Json),
        s = before.1 ++ (d.text ++ after.1) → d.Denotes w →
          parser.complete s = (.complete w, d.walk 0 after []) := by
  have hread : parser.Reads s v [] := parseComplete_eq_complete_iff.mp h
  constructor
  · obtain ⟨before, d, after, hs, -, hd⟩ := parser_sound hread
    exact ⟨before, d, after, by simpa using hs, hd⟩
  · rintro before d after w rfl hd
    refine complete_document before after hd (depth_le_of_accepts (r := after.1) ?_)
    -- The scan has taken no exception, for otherwise the text would not have been accepted.
    by_contra haccepts
    rw [Reads, outcome_parser_document, if_neg haccepts] at hread
    cases hread

/-- An empty array with a blank in it, and an object with a key that comes twice: the value that is
replaced has been read, too. -/
theorem walk_of_parse_members :
    let s := ['[', '[', ' ', ']', ',', '\x7b', '"', 'a', '"', ':', 'n', 'u', 'l', 'l', ',',
      '"', 'a', '"', ':', 't', 'r', 'u', 'e', '\x7d', ']']
    let blank : Gap := ⟨[' '], by simp⟩
    let a : Piece := .plain 'a' (by decide)
    let d : Document := .array (.more noGap (.emptyArray blank) noGap (.last noGap (.object
      (.more noGap [a] noGap noGap .null noGap
        (.last noGap [a] noGap noGap (.bool true) noGap))) noGap))
    let v : Json := .array [.array [], .object [("a", .bool true)]]
    parse s = .complete v ∧ s = noGap.1 ++ (d.text ++ noGap.1) ∧ d.Denotes v ∧
      parser.complete s = (.complete v, d.walk 0 noGap []) ∧
      ((d.walk 0 noGap []).map fun e => (e.notice.message, e.spans.length)) =
        [("attempt", 1), ("attempt", 2), ("attempt", 3), ("failed", 3), ("matched", 2),
          ("attempt", 2), ("attempt", 3), ("matched", 3), ("attempt", 3), ("matched", 3),
          ("matched", 2), ("matched", 1)] := by
  intro s blank a d v
  have hparse : parse s = .complete v := by rfl
  have hs : s = noGap.1 ++ (d.text ++ noGap.1) := by rfl
  have hkey : DenotesString [a] "a" := by
    rfl
  let second : Members := .last noGap [a] noGap noGap (.bool true) noGap
  have hsecond : second.Denotes [("a", .bool true)] := ⟨_, _, hkey, rfl, rfl⟩
  let members : Members := .more noGap [a] noGap noGap .null noGap second
  have hmembers : members.Denotes [("a", .null), ("a", .bool true)] :=
    ⟨_, _, _, hkey, rfl, hsecond, rfl⟩
  have hobject : (Document.object members).Denotes (.object [("a", .bool true)]) :=
    ⟨_, hmembers, rfl⟩
  have helements : (Elements.last noGap (.object members) noGap).Denotes
      [.object [("a", .bool true)]] := ⟨_, hobject, rfl⟩
  have hd : d.Denotes v := ⟨_, ⟨_, _, rfl, helements, rfl⟩, rfl⟩
  exact ⟨hparse, hs, hd, (walk_of_parse hparse).2 noGap d noGap v hs hd, rfl⟩

end Descent.Json
