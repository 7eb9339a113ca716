import Descent.Proofs.Json.Language
import Descent.Proofs.Json.Termination
import Descent.Proofs.Parser.Events

/-!
# Calls of the rule for values

On any text, well-formed or not, the rule for values calls itself only behind an opening bracket,
and then item by item: at the value of each item that it gets to, in order, and on with the next
item only after a value that is followed by a comma. `Items` says on which texts, and what the list
of items leaves; `exists_calls_nested` says that a run reports its attempt, what those calls report,
and how it finished. Nothing is assumed of the text. A run of the whole parser is one such call
(`parser_eq`), unless the scan for depth takes exception to the text.
-/

namespace Descent.Json

open Descent.Parser

variable {s t r : Text} {us : List Text} {p : Parser Json}

/-! ## Items -/

/-- `Lead s t`: the value of an item that starts at `s` starts at `t`, behind its key if it has
one. -/
inductive Lead : Text → Text → Prop where
  | element (t : Text) : Lead t t
  | member (key : List Piece) (afterKey before : Gap) (t : Text) :
      Lead (quoted key ++ (afterKey.1 ++ ':' :: (before.1 ++ t))) t

/-- `Missing p s us`: there is no item at `s`, and the calls to find that out are on the texts
`us`: none if a key is missing, and one if it is a value. -/
inductive Missing (p : Parser Json) : Text → List Text → Prop where
  | key {s : Text} : Missing p s []
  | value {s t : Text} : Lead s t → p.Fails t → Missing p s [t]

/-- `Items p s us r`: items that start at `s` call the parser of values on the texts `us`, in that
order, and leave `r`. -/
inductive Items (p : Parser Json) : Text → List Text → Text → Prop where
  | missing {s : Text} {us : List Text} : Missing p s us → Items p s us s
  | last {s t r : Text} {v : Json} : Lead s t → p.Reads t v r → Items p s [t] r
  | dangling {s s' t : Text} {v : Json} {gap : Gap} {us : List Text} :
      Lead s t → p.Reads t v (',' :: (gap.1 ++ s')) → Missing p s' us →
        Items p s (t :: us) (',' :: (gap.1 ++ s'))
  | more {s s' t r : Text} {v : Json} {gap : Gap} {us : List Text} :
      Lead s t → p.Reads t v (',' :: (gap.1 ++ s')) → Items p s' us r → Items p s (t :: us) r

theorem Lead.suffix (h : Lead s t) : t <:+ s := by
  cases h with
  | element => exact List.suffix_refl _
  | member key afterKey before =>
    exact ⟨quoted key ++ (afterKey.1 ++ ':' :: before.1), by simp⟩

theorem Missing.suffix (h : Missing p s us) : ∀ u ∈ us, u <:+ s := by
  cases h with
  | key => simp
  | value hlead => simpa using hlead.suffix

/-- A separator and what follows it come after the value before them. -/
theorem suffix_of_reads (hp : p.Composed false) {v : Json} {gap : Gap} {s' : Text}
    (h : p.Reads t v (',' :: (gap.1 ++ s'))) : s' <:+ t :=
  ((List.suffix_append gap.1 s').trans (List.suffix_cons _ _)).trans (hp.suffix h)

theorem Items.suffix (hp : p.Composed false) (h : Items p s us r) : ∀ u ∈ us, u <:+ s := by
  induction h with
  | missing h => exact h.suffix
  | last hlead => simpa using hlead.suffix
  | dangling hlead hv h =>
    have hs := (suffix_of_reads hp hv).trans hlead.suffix
    exact List.forall_mem_cons.mpr ⟨hlead.suffix, fun u hu => (h.suffix u hu).trans hs⟩
  | more hlead hv _ ih =>
    have hs := (suffix_of_reads hp hv).trans hlead.suffix
    exact List.forall_mem_cons.mpr ⟨hlead.suffix, fun u hu => (ih u hu).trans hs⟩

/-- What items leave is the end of the text that they start at. -/
theorem Items.leaves_suffix (hp : p.Composed false) (h : Items p s us r) : r <:+ s := by
  induction h with
  | missing => exact List.suffix_refl _
  | last hlead hv => exact (hp.suffix hv).trans hlead.suffix
  | dangling hlead hv => exact (hp.suffix hv).trans hlead.suffix
  | more hlead hv _ ih => exact (ih.trans (suffix_of_reads hp hv)).trans hlead.suffix

/-! ## Parsers of items -/

/-- A parser of items: it calls the parser of values at the value of an item, and reports what that
reports. -/
structure IsItem {α : Type} (q : Parser α) (p : Parser Json) : Prop where
  reads : ∀ {s a r}, q.Reads s a r →
    ∃ t v, Lead s t ∧ p.Reads t v r ∧ (q s).events = (p t).events
  fails : ∀ {s}, q.Fails s →
    ∃ us, Missing p s us ∧ (q s).events = us.flatMap fun t => (p t).events

theorem isItem_value : IsItem p p where
  reads := by
    intro s v r h
    exact ⟨s, v, .element s, h, rfl⟩
  fails := by
    intro s h
    exact ⟨[s], .value (.element s) h, by simp⟩

/-- What is read before the value of a member leads to it. -/
theorem lead_of_reads {key : String}
    (h : ((token stringLiteral).thenSkip (symbol ':')).Reads s key t) : Lead s t := by
  obtain ⟨u, c, hkey, hcolon⟩ := reads_thenSkip.mp h
  obtain ⟨afterKey, hliteral, -⟩ := reads_token.mp hkey
  obtain ⟨ps, rfl, -⟩ := reads_stringLiteral.mp hliteral
  obtain ⟨-, before, rfl, -⟩ := reads_symbol.mp hcolon
  exact .member ps afterKey before t

theorem isItem_member : IsItem (member p) p where
  reads := by
    intro s m r h
    obtain ⟨t, hkey, hvalue⟩ := reads_both.mp h
    exact ⟨t, m.2, lead_of_reads hkey, hvalue,
      events_both.trans (hkey.events_skipThen composed_memberKey)⟩
  fails := by
    intro s h
    rcases fails_both.mp h with hkey | ⟨key, t, hkey, hvalue⟩
    · exact ⟨[], .key, events_both.trans (hkey.events_skipThen composed_memberKey)⟩
    · refine ⟨[t], .value (lead_of_reads hkey) hvalue, ?_⟩
      rw [member, events_both, hkey.events_skipThen composed_memberKey]
      simp

section IsItem

variable {α : Type} {q : Parser α}

/-- The rounds of a list of items are the calls of the parser of values. -/
theorem IsItem.exists_items (hq : IsItem q p) {ts : List Text}
    (h : Rounds q (symbol ',') s ts r) :
    ∃ us, Items p s us r ∧
      (ts.flatMap fun t => (q t).events) = us.flatMap fun u => (p u).events := by
  induction h with
  | last ha =>
    obtain ⟨t, v, hlead, hv, hevents⟩ := hq.reads ha
    exact ⟨[t], .last hlead hv, by simp [hevents]⟩
  | dangling ha hsep hfails =>
    obtain ⟨t, v, hlead, hv, hevents⟩ := hq.reads ha
    obtain ⟨us, hus, hevents'⟩ := hq.fails hfails
    obtain ⟨-, gap, rfl, -⟩ := reads_symbol.mp hsep
    exact ⟨t :: us, .dangling hlead hv hus, by simp [hevents, hevents']⟩
  | more ha hsep _ ih =>
    obtain ⟨t, v, hlead, hv, hevents⟩ := hq.reads ha
    obtain ⟨us, hus, hevents'⟩ := ih
    obtain ⟨-, gap, rfl, -⟩ := reads_symbol.mp hsep
    exact ⟨t :: us, .more hlead hv hus, by simp [hevents, hevents']⟩

/-- A list of items reports what its calls report. -/
theorem IsItem.exists_items_sepBy (hq : IsItem q p) (hgrow : q.NonGrowing)
    (hends : ∀ t, t.length ≤ s.length → q.Ends t) :
    ∃ us r vs, Items p s us r ∧ (q.sepBy (symbol ',')).Reads s vs r ∧
      (q.sepBy (symbol ',') s).events = us.flatMap fun u => (p u).events := by
  rcases runsRounds_sepBy hgrow (progresses_symbol ',') (composed_symbol ',') (ends_symbol ',')
    hends with ⟨hfails, hreply⟩ | ⟨ts, r, vs, hts, houtcome, hevents⟩
  · obtain ⟨us, hus, hevents⟩ := hq.fails hfails
    refine ⟨us, s, [], .missing hus, ?_, ?_⟩
    · rw [Reads, hreply]
      rfl
    · rw [hreply, ← hevents]
      simp [Reply.after, Reply.success]
  · obtain ⟨us, hus, hitems⟩ := hq.exists_items hts
    exact ⟨us, r, vs, hus, houtcome, hevents.trans hitems⟩

end IsItem

/-! ## The rule for values -/

/-- `Calls p s us`: the rule for values, run on `s`, calls the parser of the values inside on the
texts `us`: on none unless `s` begins with a bracket, and otherwise on those of the items behind it.
If a value is read, the closing bracket comes right after the items. -/
inductive Calls (p : Parser Json) : Text → List Text → Prop where
  | scalar {s : Text} : s.Avoids Scan.isOpening → Calls p s []
  | items {opening : Char} {gap : Gap} {t : Text} {us : List Text} {r : Text} :
      Scan.isOpening opening = true → Items p t us r →
      (∀ v r', (valueBody p).Reads (opening :: (gap.1 ++ t)) v r' →
        ∃ (closing : Char) (gap' : Gap), Scan.isClosing closing = true ∧
          r = closing :: (gap'.1 ++ r')) →
      Calls p (opening :: (gap.1 ++ t)) us

/-- Items in brackets are what the rule calls itself for, where it reads nothing but these
brackets. -/
theorem IsItem.exists_calls {α : Type} {q : Parser α} (hq : IsItem q p) (hgrow : q.NonGrowing)
    (hends : ∀ t, t.length ≤ s.length → q.Ends t) {opening closing : Char} {f : List α → Json}
    {alternative : Parser Json}
    (hbracket : alternative =
      (bracket (symbol opening) (q.sepBy (symbol ',')) (symbol closing)).map f)
    (hopening : Scan.isOpening opening = true) (hclosing : Scan.isClosing closing = true)
    (hbody : ∀ v r, (valueBody p).Reads (opening :: s) v r →
      alternative.Reads (opening :: s) v r) :
    ∃ us, Calls p (opening :: s) us ∧
      (alternative (opening :: s)).events = us.flatMap fun u => (p u).events := by
  subst hbracket
  obtain ⟨gap, t, rfl, ht⟩ := exists_gap s
  have hread : (symbol opening).Reads (opening :: (gap.1 ++ t)) opening t :=
    reads_symbol.mpr ⟨rfl, gap, rfl, ht⟩
  have hinside (u : Text) (hu : u.length ≤ t.length) : q.Ends u :=
    hends u (by rw [List.length_append]; omega)
  obtain ⟨us, r, vs, hus, hvs, hevents⟩ := hq.exists_items_sepBy hgrow hinside
  refine ⟨us, .items hopening hus fun v r' h => ?_, ?_⟩
  · -- The closing bracket is read where the items end, for a list leaves only one text.
    obtain ⟨ws, h, -⟩ := reads_map.mp (hbody v r' h)
    obtain ⟨_, t', u, d, hread', hws, hclose⟩ := reads_bracket.mp h
    obtain ⟨-, rfl⟩ := hread.unique hread'
    obtain ⟨-, rfl⟩ := hvs.unique hws
    obtain ⟨-, gap', rfl, -⟩ := reads_symbol.mp hclose
    exact ⟨closing, gap', hclosing, rfl⟩
  · rw [events_map, hread.events_bracket (composed_symbol _) (composed_symbol _), hevents]

/-! ### The alternatives -/

theorem fails_scalars {c : Char} (hc : Scan.isOpening c = true) :
    (choice scalars).Fails (c :: s) := by
  simp only [scalars, fails_choice_cons, fails_choice_nil, and_true, fails_map]
  rcases isOpening_iff.mp hc with rfl | rfl <;>
    exact ⟨Fails.token (fails_stringLiteral (Text.avoids_cons.mpr rfl)),
      Fails.token (fails_numeral (Text.avoids_cons.mpr rfl)),
      fails_keyword (by simp), fails_keyword (by simp), fails_keyword (by simp)⟩

/-- Only an array is read where its bracket opens. -/
theorem arrayOf_of_valueBody {v : Json} (h : (valueBody p).Reads ('[' :: s) v r) :
    (arrayOf p).Reads ('[' :: s) v r := by
  rw [valueBody_eq, reads_traced, reads_choice_cons, reads_choice_cons] at h
  rcases h with h | ⟨-, h | ⟨-, h⟩⟩
  · exact absurd h (fails_objectOf (Text.avoids_cons.mpr rfl)).not_reads
  · exact h
  · exact absurd h (fails_scalars rfl).not_reads

/-- Only an object is read where its bracket opens. -/
theorem objectOf_of_valueBody {v : Json} (h : (valueBody p).Reads ('\x7b' :: s) v r) :
    (objectOf p).Reads ('\x7b' :: s) v r := by
  rw [valueBody_eq, reads_traced, reads_choice_cons, reads_choice_cons] at h
  rcases h with h | ⟨-, h | ⟨-, h⟩⟩
  · exact h
  · exact absurd h (fails_arrayOf (Text.avoids_cons.mpr rfl)).not_reads
  · exact absurd h (fails_scalars rfl).not_reads

theorem events_scalars (s : Text) : (choice scalars s).events = [] :=
  (Composed.choice composed_scalars).events_eq_nil s

/-- Where no array begins, nothing is reported after objects. -/
theorem events_choice_arrayOf (h : s.Avoids (· == '[')) :
    (choice (arrayOf p :: scalars) s).events = [] := by
  have harray : (arrayOf p s).events = [] := by
    rw [arrayOf, events_map]
    exact (fails_symbol h).events_bracket (composed_symbol _)
  rw [(fails_arrayOf h).events_choice_cons, harray, events_scalars, List.nil_append]

/-- Where no object begins, nothing is reported before arrays. -/
theorem events_choice_objectOf (h : s.Avoids (· == '\x7b')) :
    (choice (objectOf p :: arrayOf p :: scalars) s).events =
      (choice (arrayOf p :: scalars) s).events := by
  have hobject : (objectOf p s).events = [] := by
    rw [objectOf, events_map]
    exact (fails_symbol h).events_bracket (composed_symbol _)
  rw [(fails_objectOf h).events_choice_cons, hobject, List.nil_append]

/-- The alternatives of the rule report what its calls report. -/
theorem exists_calls (hp : ReadsDocuments p) (hends : ∀ r, r.length < s.length → p.Ends r) :
    ∃ us, Calls p s us ∧ (choice (objectOf p :: arrayOf p :: scalars) s).events =
      us.flatMap fun u => (p u).events := by
  by_cases hs : s.Avoids Scan.isOpening
  · refine ⟨[], .scalar hs, ?_⟩
    rw [events_choice_objectOf (hs.mono fun c hc => by simp_all [Scan.isOpening]),
      events_choice_arrayOf (hs.mono fun c hc => by simp_all [Scan.isOpening])]
    rfl
  cases s with
  | nil => exact absurd Text.avoids_nil hs
  | cons c s =>
    have hc : Scan.isOpening c = true := by simpa using hs
    have hinside (r : Text) (hr : r.length ≤ s.length) : p.Ends r :=
      hends r (Nat.lt_succ_of_le hr)
    rcases isOpening_iff.mp hc with rfl | rfl
    · obtain ⟨us, hus, hevents⟩ := isItem_value.exists_calls (Progresses.nonGrowing hp.progresses)
        hinside (show arrayOf p = _ from rfl) rfl rfl fun _ _ => arrayOf_of_valueBody
      refine ⟨us, hus, ?_⟩
      rw [events_choice_objectOf (Text.avoids_cons.mpr rfl),
        (ends_arrayOf hp hends).events_choice_cons (events_scalars _), hevents]
    · obtain ⟨us, hus, hevents⟩ := isItem_member.exists_calls (nonGrowing_member hp)
        (fun t ht => ends_member fun r hr => hinside r (Nat.le_trans hr ht))
        (show objectOf p = _ from rfl) rfl rfl fun _ _ => objectOf_of_valueBody
      refine ⟨us, hus, ?_⟩
      rw [(ends_objectOf hp hends).events_choice_cons
        (events_choice_arrayOf (Text.avoids_cons.mpr rfl)), hevents]

/-- A call of the rule reports its attempt, then what the calls inside it report, one span deeper,
and at last how it finished. -/
theorem exists_calls_nested {n : Nat} (hn : s.length < n + 1) :
    ∃ us finish, Calls (nested valueBody n) s us ∧
      (nested valueBody (n + 1) s).events = ⟨.attempt s, [valueName]⟩ ::
        ((us.flatMap fun u => (nested valueBody n u).events).map (Event.within valueName) ++
          finish) ∧
      ∀ e ∈ finish, e.spans = [valueName] ∧ ∀ t, e.notice ≠ .attempt t := by
  obtain ⟨us, hus, hinside⟩ :=
    exists_calls (nested_sound n) fun r (hr : r.length < s.length) => ends_nested (by omega)
  obtain ⟨finish, hevents, hfinish⟩ := events_traced valueName
    (choice (objectOf (nested valueBody n) :: arrayOf (nested valueBody n) :: scalars)) s
  rw [hinside, ← valueBody_eq] at hevents
  exact ⟨us, finish, hus, hevents, hfinish⟩

/-- Calls are on shorter texts, all of them ends of the text that the rule is run on. -/
theorem Calls.suffix (hp : p.Composed false) (h : Calls p s us) :
    ∀ u ∈ us, u <:+ s ∧ u.length < s.length := by
  intro u hu
  cases h with
  | scalar => cases hu
  | @items opening gap t _ r _ hitems _ =>
    have hinside : u <:+ gap.1 ++ t :=
      (hitems.suffix hp u hu).trans (List.suffix_append gap.1 t)
    have hle := hinside.length_le
    exact ⟨hinside.trans (List.suffix_cons _ _), by rw [List.length_cons]; omega⟩

/-! ## Whole runs -/

theorem blanks_eq (s : Text) : blanks s = .success () (s.dropWhile Lexeme.isBlank) := by
  obtain ⟨gap, t, rfl, ht⟩ := exists_gap s
  rw [dropWhile_gap_append gap ht]
  have houtcome : (blanks (gap.1 ++ t)).outcome = .success () t :=
    reads_blanks.mpr ⟨gap, rfl, ht⟩
  have hevents : (blanks (gap.1 ++ t)).events = [] := composed_blanks.events_eq_nil _
  rcases h : blanks (gap.1 ++ t) with ⟨outcome, events⟩
  rw [h] at houtcome hevents
  cases houtcome
  cases hevents
  rfl

/-- A run of the parser is that of the rule for values on the text after the first blanks, unless
the scan takes exception to that text. -/
theorem parser_eq (s : Text) :
    parser s =
      if Scan.start.accepts (s.dropWhile Lexeme.isBlank) then value (s.dropWhile Lexeme.isBlank)
      else .failure (Cause.nesting maxDepth (s.dropWhile Lexeme.isBlank)) := by
  rw [parser, skipThen, blanks_eq, Reply.next_success, skipThen, depthLimit]
  split <;> rfl

end Descent.Json
