import Descent.Proofs.Grammar.Composition
import Descent.Proofs.Grammar.Forest
import Descent.Proofs.Json.Calls
import Descent.Proofs.Semver.Identifier

/-!
# Both grammars end

A grammar can run on without end in two ways: by repeating a parser that succeeds without reading
anything, and by calling a rule from itself before anything has been read. Neither happens here.
Every parser that is repeated progresses, and each run of the rule for values inside another one is
on a shorter text, since an opening bracket has been read in between. The forest of a run shows the
latter (`forest_shrinks`), on texts that are rejected, too.
-/

namespace Descent

open Descent.Parser

/-! ## Documents -/

namespace Json

variable {s : Text} {p : Parser Json}

/-- What the grammar repeats progresses, where the values inside are read by the given parser. -/
structure RepeatsProgress (p : Parser Json) : Prop where
  blank : Lexeme.whitespace.Progresses
  stringChar : (choice [satisfy isUnescaped, escape]).Progresses
  digit : Lexeme.digit.Progresses
  element : p.Progresses
  nextElement : ((symbol ',').skipThen p).Progresses
  member : (member p).Progresses
  nextMember : ((symbol ',').skipThen (Json.member p)).Progresses

theorem ReadsDocuments.repeatsProgress (hp : ReadsDocuments p) : RepeatsProgress p where
  blank := (recognizes_satisfy _).progresses
  stringChar := progresses_stringChar
  digit := Lexeme.recognizes_digit.progresses
  element := hp.progresses
  nextElement := Progresses.skipThen (progresses_symbol ',') (Progresses.nonGrowing hp.progresses)
  member := progresses_member hp
  nextMember := Progresses.skipThen (progresses_symbol ',') (nonGrowing_member hp)

/-- What the alternatives for a value report comes from the runs of the rule on shorter texts. -/
theorem exists_inside {n : Nat} (hn : s.length ≤ n) :
    ∃ us : List Text, (∀ u ∈ us, u.length < s.length) ∧
      alternativeInvocations (nested valueBody n)
          (Invocations.nested valueBody valueInvocations n) s =
        us.flatMap (Invocations.nested valueBody valueInvocations n) := by
  have hends (r : Text) (hr : r.length < s.length) : (nested valueBody n).Ends r :=
    ends_nested (Nat.lt_of_lt_of_le hr hn)
  obtain ⟨us, hcalls, hevents⟩ := exists_calls (nested_sound n) hends
  have hshorter (u : Text) (hu : u ∈ us) : u.length < s.length :=
    (hcalls.suffix (composed_nested n) u hu).2
  refine ⟨us, hshorter, SpanTree.allEvents_inj ?_⟩
  have hchoice : (choice (objectOf (nested valueBody n) :: arrayOf (nested valueBody n) ::
      scalars)).Ends s := ends_valueBody (nested_sound n) hends
  rw [← invokes_alternatives (invokes_nested n) s hchoice, hevents, SpanTree.allEvents_flatMap]
  exact List.flatMap_congr fun u hu => invokes_nested n u (hends u (hshorter u hu))

/-- A run of the rule for values is one tree, in which texts get shorter, by induction on how deep
calls may nest. -/
theorem nested_shrinks {n : Nat} (hn : s.length < n) :
    ∀ report ∈ Invocations.nested valueBody valueInvocations n s,
      SpanTree.Shrinks valueName (s.length + 1) report := by
  induction n generalizing s with
  | zero => exact absurd hn (Nat.not_lt_zero _)
  | succ n ih =>
    obtain ⟨us, hshorter, hinside⟩ := exists_inside (Nat.le_of_lt_succ hn)
    have hshrinks : ∀ report ∈ us.flatMap (Invocations.nested valueBody valueInvocations n),
        SpanTree.Shrinks valueName s.length report := by
      intro report hreport
      obtain ⟨u, hu, hreport⟩ := List.mem_flatMap.mp hreport
      have hlt : u.length < s.length := hshorter u hu
      exact (ih (Nat.lt_of_lt_of_le hlt (Nat.le_of_lt_succ hn)) report hreport).mono hlt
    intro report hreport
    obtain ⟨finish, rfl⟩ := Invocations.exists_of_mem_span hreport
    rw [hinside]
    exact .invocation (Nat.lt_succ_self _) hshrinks

/-- In any run of the parser, the rule for values calls itself on shorter texts only. -/
theorem forest_shrinks (s : Text) :
    ∀ report ∈ invocations s, SpanTree.Shrinks valueName (s.length + 1) report := by
  have hvalue (t : Text) (ht : t <:+ s) :
      ∀ report ∈ Invocations.fix valueBody valueInvocations t,
        SpanTree.Shrinks valueName (s.length + 1) report := by
    intro report hreport
    exact (nested_shrinks (Nat.lt_succ_self _) report hreport).mono (Nat.succ_le_succ ht.length_le)
  intro report hreport
  rcases Invocations.mem_seq.mp hreport with hreport | ⟨_, r, hblanks, hreport⟩
  · cases hreport
  rcases Invocations.mem_seq.mp hreport with hreport | ⟨_, t, hlimit, hreport⟩
  · cases hreport
  have hr : r <:+ s := Composed.suffix (composed_blanks : blanks.Composed true) hblanks
  have ht : t <:+ r := Composed.suffix (composed_depthLimit : depthLimit.Composed true) hlimit
  exact hvalue t (ht.trans hr) report hreport

end Json

/-! ## Versions -/

namespace Version

variable {s : Text} {p : Parser String} {kind : Text → Prop}

/-- What the grammar repeats progresses. -/
structure RepeatsProgress : Prop where
  digit : Lexeme.digit.Progresses
  identifierChar : identifierChar.Progresses
  preRelease : (alphanumericIdentifier.orElse numericIdentifier).Progresses
  nextPreRelease :
    ((char '.').skipThen (alphanumericIdentifier.orElse numericIdentifier)).Progresses
  build : (alphanumericIdentifier.orElse (Lexeme.digits.map String.ofList)).Progresses
  nextBuild : ((char '.').skipThen
    (alphanumericIdentifier.orElse (Lexeme.digits.map String.ofList))).Progresses

theorem ReadsIdentifiers.progresses (hp : ReadsIdentifiers p kind)
    (hkind : ∀ t, kind t → Bnf.BuildIdentifier t) : p.Progresses := by
  intro s w r h
  obtain ⟨rfl, hw⟩ := hp.sound h
  have hpos := List.length_pos_iff.mpr (Bnf.buildIdentifier_iff.mp (hkind _ hw)).1
  rw [List.length_append]
  omega

theorem repeatsProgress : RepeatsProgress where
  digit := Lexeme.recognizes_digit.progresses
  identifierChar := recognizes_identifierChar.progresses
  preRelease := readsIdentifiers_preRelease.progresses fun _ => Bnf.PreReleaseIdentifier.build
  nextPreRelease := progresses_dot readsIdentifiers_preRelease
  build := readsIdentifiers_build.progresses fun _ => id
  nextBuild := progresses_dot readsIdentifiers_build

theorem ends_numericIdentifier (s : Text) : numericIdentifier.Ends s :=
  (ends_literal _ s).orElse (((ends_satisfy _ s).both fun _ _ _ =>
    .many Lexeme.recognizes_digit.progresses (ends_satisfy _)).map _)

theorem ends_alphanumericIdentifier (s : Text) : alphanumericIdentifier.Ends s := by
  have hnonDigit (r : Text) : nonDigit.Ends r := (ends_satisfy _ r).orElse (ends_char _ r)
  have hchar (r : Text) : identifierChar.Ends r := (ends_satisfy _ r).orElse (hnonDigit r)
  have hdigits : (many Lexeme.digit).Ends s :=
    .many Lexeme.recognizes_digit.progresses (ends_satisfy _)
  exact ((hdigits.both fun _ r _ => hnonDigit r).both fun _ _ _ =>
    .many recognizes_identifierChar.progresses hchar).map _

theorem ends_core (s : Text) : core.Ends s := by
  have hnumber (r : Text) : coreNumber.Ends r := (ends_numericIdentifier r).convert _
  exact (((((hnumber s).thenSkip fun _ r _ => ends_char _ r).both fun _ r _ => hnumber r).thenSkip
    fun _ r _ => ends_char _ r).both fun _ r _ => hnumber r).map _

theorem ends_marked (mark : Char) (hp : p.Progresses) (h : ∀ r, p.Ends r) :
    (marked mark p).Ends s :=
  ((ends_char mark s).skipThen fun _ _ _ => .sepBy1 (Progresses.nonGrowing hp)
    (recognizes_char '.').progresses (fun r _ => h r) (ends_char '.')).optional

/-- Every run of the version grammar ends. -/
theorem parser_ends (s : Text) : parser.Ends s := by
  have hdigits (r : Text) : (Lexeme.digits.map String.ofList).Ends r :=
    (Ends.many1 Lexeme.recognizes_digit.progresses (ends_satisfy _)).map _
  refine .traced (.map (.both (.both (ends_core s) fun _ r _ => ?_) fun _ r _ => ?_) _) versionName
  · exact ends_marked '-' repeatsProgress.preRelease fun t =>
      (ends_alphanumericIdentifier t).orElse (ends_numericIdentifier t)
  · exact ends_marked '+' repeatsProgress.build fun t =>
      (ends_alphanumericIdentifier t).orElse (hdigits t)

end Version

/-! ## Both -/

/-- On any text both grammars succeed or fail. What they repeat takes a character at least; this
holds for the rule for values, and for it at any depth to which calls may nest. And among the traced
runs of the JSON grammar, which it reports, each run of that rule inside another one is on a shorter
text. -/
theorem grammars_end (s : Text) :
    (((∃ v r, Json.parser.Reads s v r) ∨ Json.parser.Fails s) ∧
      ((∃ v r, Version.parser.Reads s v r) ∨ Version.parser.Fails s)) ∧
    (Json.RepeatsProgress Json.value ∧ (∀ n, Json.RepeatsProgress (nested Json.valueBody n)) ∧
      Version.RepeatsProgress) ∧
    (Json.parser s).events = SpanTree.allEvents (Json.invocations s) ∧
      ∀ report ∈ Json.invocations s, SpanTree.Shrinks Json.valueName (s.length + 1) report := by
  refine ⟨⟨ends_iff.mp (Json.parser_ends s), ends_iff.mp (Version.parser_ends s)⟩,
    ⟨Json.ReadsDocuments.repeatsProgress Json.value_sound, fun n =>
      Json.ReadsDocuments.repeatsProgress (Json.nested_sound n), Version.repeatsProgress⟩,
    Json.parser_invokes s (Json.parser_ends s), Json.forest_shrinks s⟩

end Descent
