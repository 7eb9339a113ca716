import Descent.Proofs.Parser.Laws

/-!
# Literals

A literal is read by going along its characters and those of the text at once. Where the text does
not begin with it, the failure tells how far the two agree: it quotes the text from behind the
`LongestCommon` beginning, or says that the text ends there. Reading the characters of a literal by
a sequence of parsers comes to the same, and so does reading a literal in two parts
(`literal_matching`).
-/

namespace Descent

/-! ## Common beginnings -/

/-- `u` is the longest text with which both texts begin. -/
structure Text.LongestCommon (u w s : Text) : Prop where
  left : u <+: w
  right : u <+: s
  longest : ∀ v, v <+: w → v <+: s → v.length ≤ u.length

namespace Text

variable {u w s : Text}

/-- Texts that differ from the first character on have nothing in common. -/
theorem longestCommon_nil (h : ∀ c ∈ w.head?, c ∉ s.head?) : LongestCommon [] w s := by
  refine ⟨List.nil_prefix, List.nil_prefix, fun v hw hs => ?_⟩
  cases v with
  | nil => exact Nat.le_refl 0
  | cons c v =>
    obtain ⟨w, rfl⟩ := hw
    obtain ⟨s, rfl⟩ := hs
    exact absurd rfl (h c rfl)

theorem LongestCommon.cons (h : LongestCommon u w s) (c : Char) :
    LongestCommon (c :: u) (c :: w) (c :: s) := by
  refine ⟨List.cons_prefix_cons.mpr ⟨rfl, h.left⟩, List.cons_prefix_cons.mpr ⟨rfl, h.right⟩,
    fun v hw hs => ?_⟩
  cases v with
  | nil => exact Nat.zero_le _
  | cons d v =>
    obtain ⟨-, hw⟩ := List.cons_prefix_cons.mp hw
    obtain ⟨-, hs⟩ := List.cons_prefix_cons.mp hs
    exact Nat.succ_le_succ (h.longest v hw hs)

theorem exists_longestCommon (w s : Text) : ∃ u, LongestCommon u w s := by
  induction w generalizing s with
  | nil => exact ⟨[], longestCommon_nil (by simp)⟩
  | cons c w ih =>
    by_cases h : c ∈ s.head?
    · obtain ⟨s, rfl⟩ := List.head?_eq_some_iff.mp h
      obtain ⟨u, hu⟩ := ih s
      exact ⟨c :: u, hu.cons c⟩
    · exact ⟨[], longestCommon_nil (by simpa using h)⟩

end Text

namespace Parser

variable {s t u v w : Text}

/-! ## Characters one by one -/

/-- What the word and the text have in common is passed over. -/
theorem characters_append_append (u w t : Text) :
    characters (u ++ w) (u ++ t) = characters w t := by
  induction u with
  | nil => rfl
  | cons c u ih =>
    show (if c == c then characters (u ++ w) (u ++ t) else _) = _
    rw [if_pos (beq_self_eq_true c), ih]

/-- Where a word is not read, the failure is about what follows the common beginning. -/
theorem outcome_characters (h : Text.LongestCommon u w s) (hw : ¬ w <+: s) :
    (characters w s).outcome =
      .failure (if s.length = u.length then Cause.emptyInput
        else Cause.unexpected (s.drop u.length)) := by
  obtain ⟨⟨w, rfl⟩, ⟨t, rfl⟩, hlongest⟩ := h
  rw [characters_append_append, List.drop_left]
  cases w with
  | nil => exact absurd (List.prefix_append u t) (by rwa [List.append_nil] at hw)
  | cons c w =>
    cases t with
    | nil =>
      rw [List.append_nil, if_pos rfl]
      rfl
    | cons d t =>
      have hcd : (d == c) = false := by
        refine beq_eq_false_iff_ne.mpr ?_
        rintro rfl
        -- Otherwise the common beginning would have this character, too.
        have hlonger := hlongest (u ++ [d])
          ((List.prefix_append_right_inj u).mpr (List.prefix_append [d] w))
          ((List.prefix_append_right_inj u).mpr (List.prefix_append [d] t))
        rw [List.length_append, List.length_singleton] at hlonger
        omega
      have hlength : (u ++ d :: t).length ≠ u.length := by
        rw [List.length_append, List.length_cons]
        omega
      rw [if_neg hlength, characters, hcd]
      rfl

theorem characters_append (v w : Text) :
    characters (v ++ w) = (characters v).andThen fun _ => characters w := by
  funext s
  induction v generalizing s with
  | nil => rfl
  | cons c v ih =>
    cases s with
    | nil => rfl
    | cons d t =>
      by_cases hdc : (d == c) = true
      · simp only [List.cons_append, characters, andThen, hdc, if_true]
        exact ih t
      · simp only [List.cons_append, characters, andThen, hdc]
        rfl

theorem char_cons (c d : Char) (t : Text) :
    char c (d :: t) = if d == c then .success d t else .failure (Cause.unexpected (d :: t)) := rfl

/-- A sequence of parsers for the characters of a word reads the word. -/
theorem sequenceFrom_map_char (w values s : Text) :
    sequenceFrom (w.map char) values [] s =
      (characters w s).map fun _ => values.reverse ++ w := by
  induction w generalizing values s with
  | nil =>
    show Reply.success values.reverse s = Reply.success (values.reverse ++ []) s
    rw [List.append_nil]
  | cons c w ih =>
    rw [List.map_cons, sequenceFrom_cons]
    cases s with
    | nil => rfl
    | cons d t =>
      rw [char_cons, characters]
      by_cases hdc : (d == c) = true
      · obtain rfl : d = c := eq_of_beq hdc
        rw [if_pos hdc, if_pos hdc, Reply.next_success, ih, List.reverse_cons, List.append_assoc,
          List.singleton_append]
      · rw [if_neg hdc, if_neg hdc]
        rfl

/-! ## Literals -/

theorem literal_eq_sequence (word : String) :
    literal word = (sequence (word.toList.map char)).map String.ofList := by
  funext s
  show (characters word.toList s).map (fun _ => word) =
    (sequenceFrom (word.toList.map char) [] [] s).map String.ofList
  rw [sequenceFrom_map_char, Reply.map_map]
  simp [Function.comp_def]

theorem literal_append (first second : String) :
    literal (first ++ second) =
      ((literal first).both (literal second)).map fun words => words.1 ++ words.2 := by
  funext s
  show (characters (first ++ second).toList s).map (fun _ => first ++ second) =
    (((characters first.toList s).map fun _ => first).next fun a t =>
      ((characters second.toList t).map fun _ => second).map fun b => (a, b)).map
        fun words => words.1 ++ words.2
  rw [String.toList_append, characters_append]
  rcases hfirst : characters first.toList s with ⟨⟨a, t⟩ | f | _, events⟩
  · rcases hsecond : characters second.toList t with ⟨⟨b, r⟩ | f | _, later⟩ <;>
      simp [andThen, Reply.next, Reply.map, Reply.after, Outcome.map, hfirst, hsecond]
  · simp only [andThen, Reply.next, Reply.map, Outcome.map, hfirst]
  · simp only [andThen, Reply.next, Reply.map, Outcome.map, hfirst]

theorem outcome_literal {word : String} (h : Text.LongestCommon u word.toList s)
    (hword : ¬ word.toList <+: s) :
    (literal word s).outcome =
      .failure (if s.length = u.length then Cause.emptyInput
        else Cause.unexpected (s.drop u.length)) := by
  show ((characters word.toList s).outcome.map fun _ => word) = _
  rw [outcome_characters h hword]
  rfl

/-- A literal is read exactly from the texts that begin with it. The failure on another text is
about what follows the longest beginning that both have in common. A literal is the sequence of its
characters, and it may be read in two parts. -/
theorem literal_matching (word : String) (s : Text) :
    (∀ v r, (literal word).Reads s v r ↔ s = word.toList ++ r ∧ v = word) ∧
    (¬ word.toList <+: s → ∃ u f, Text.LongestCommon u word.toList s ∧
      (literal word s).outcome = .failure f ∧
      f.message = if s.length = u.length then "Empty input"
        else "Invalid input: " ++ Text.snippet (s.drop u.length)) ∧
    literal word = (sequence (word.toList.map char)).map String.ofList ∧
    ∀ other, literal (word ++ other) =
      ((literal word).both (literal other)).map fun words => words.1 ++ words.2 := by
  refine ⟨fun v r => reads_literal, ?_, literal_eq_sequence word, literal_append word⟩
  intro hword
  obtain ⟨u, hu⟩ := Text.exists_longestCommon word.toList s
  refine ⟨u, _, hu, outcome_literal hu hword, ?_⟩
  split
  · rfl
  · rfl

/-- Three letters of `helicopter` are as in `hello`, so the failure quotes what comes after them. -/
theorem literal_matching_helicopter :
    ¬ "hello".toList <+: "helicopter".toList ∧
      ∃ f, (literal "hello" "helicopter".toList).outcome = .failure f ∧
        f.message = "Invalid input: icopter" := by
  have hword : ¬ "hello".toList <+: "helicopter".toList := by decide
  have hdiffer : Text.LongestCommon [] ['l', 'o'] ['i', 'c', 'o', 'p', 't', 'e', 'r'] :=
    Text.longestCommon_nil (by simp)
  have hhel : Text.LongestCommon ['h', 'e', 'l'] "hello".toList "helicopter".toList :=
    ((hdiffer.cons 'l').cons 'e').cons 'h'
  obtain ⟨-, hfails, -⟩ := literal_matching "hello" "helicopter".toList
  obtain ⟨u, f, hu, hf, hmessage⟩ := hfails hword
  have hlength : u.length = 3 := by
    apply Nat.le_antisymm
    · exact hhel.longest u hu.left hu.right
    · exact hu.longest _ hhel.left hhel.right
  refine ⟨hword, f, hf, ?_⟩
  rw [hmessage, hlength]
  rfl

end Parser
end Descent
