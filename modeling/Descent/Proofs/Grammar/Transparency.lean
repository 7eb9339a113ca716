import Descent.Proofs.Arena.Likeness

/-!
# Spans and wrappings are transparent

To take the spans of a description away, and to drop the ways to refer to a parser, changes no
outcome; and of the events, nothing but what the spans themselves contributed. The ready-made
grammars keep their spans, and a span of the description may have the same name as one of theirs. To
tell them apart, a log is taken in which the description has put a mark on each of its own titles:
without the marks it is the log of the description, and with the marked spans struck from it, it is
the log of the description without spans (`Store.erase_transparent`).
-/

namespace Descent

/-! ## Marks -/

namespace Title

/-- The character that marks a title. -/
def sign : Char := '~'

def mark (name : String) : String := String.singleton sign ++ name

def isMarked (title : String) : Bool := title.toList.head? == some sign

/-- A title without its mark, if it has one. -/
def unmark (title : String) : String :=
  if isMarked title then String.ofList title.toList.tail else title

theorem toList_mark (name : String) : (mark name).toList = sign :: name.toList := by
  simp [mark]

@[simp] theorem isMarked_mark (name : String) : isMarked (mark name) = true := by
  simp [isMarked, toList_mark]

@[simp] theorem unmark_mark (name : String) : unmark (mark name) = name := by
  simp [unmark, toList_mark]

/-- The ready-made grammars do not mark their titles. -/
@[simp] theorem isMarked_valueName : isMarked Json.valueName = false := rfl

@[simp] theorem isMarked_versionName : isMarked Version.versionName = false := rfl

end Title

/-- Whether a notice is about the innermost span around it. -/
def Notice.isOfSpan : Notice → Bool
  | attempt _ | matched _ | failed _ => true
  | undefinedRule | rejected _ | unconsumed _ => false

namespace Event

def unmark (e : Event) : Event := { e with spans := e.spans.map Title.unmark }

/-- The event without the marked spans around it. An event that is about a marked span goes with the
span. -/
def strike (e : Event) : Option Event :=
  if e.notice.isOfSpan && e.spans.getLast?.any Title.isMarked then none
  else some { e with spans := e.spans.filter fun title => !Title.isMarked title }

/-- A marked span around an event that is not about it leaves no trace. -/
theorem strike_within_mark (name : String) {e : Event} (h : e.notice.isOfSpan → e.spans ≠ []) :
    (e.within (Title.mark name)).strike = e.strike := by
  cases hspans : e.spans with
  | nil =>
    have hnotice : e.notice.isOfSpan = false := by
      rw [← Bool.not_eq_true]
      exact fun hnotice => h hnotice hspans
    simp [strike, within, hspans, hnotice]
  | cons title titles =>
    simp [strike, within, hspans, List.getLast?_cons_cons]

/-- A span without a mark stays around what is left of an event. -/
theorem strike_within {name : String} (hname : Title.isMarked name = false) (e : Event) :
    (e.within name).strike = e.strike.map (within name) := by
  cases hspans : e.spans with
  | nil => simp [strike, within, hspans, hname]
  | cons title titles =>
    simp only [strike, within, hspans, List.getLast?_cons_cons]
    split
    · rfl
    · simp [hname, within]

end Event

theorem Outcome.isOfSpan_of_mem_finish {α : Type} {outcome : Outcome α} {notice : Notice}
    (h : notice ∈ outcome.finish) : notice.isOfSpan = true := by
  cases outcome with
  | success | failure =>
    cases h
    rfl
  | diverges => cases h

/-! ## Two kinds of likeness -/

namespace Likeness

/-- The second log is the first without its marks. -/
def unmarking (s : Text) : Likeness where
  text := s
  words _ := True
  forms _ := True
  limits _ := True
  logs log other := other = log.map Event.unmark
  cut := False
  logs_nil := List.map_nil.symm
  logs_append := by
    rintro a b _ _ rfl rfl
    rw [List.map_append]
  logs_undefinedRule := List.map_singleton.symm

/-- The second log is the first without its marked spans. In the first, every event that is about a
span is inside one. -/
def striking (s : Text) : Likeness where
  text := s
  words _ := True
  forms _ := True
  limits _ := True
  logs log other :=
    other = log.filterMap Event.strike ∧ ∀ e ∈ log, e.notice.isOfSpan → e.spans ≠ []
  cut := False
  logs_nil := ⟨rfl, nofun⟩
  logs_append := by
    rintro a b _ _ ⟨rfl, ha⟩ ⟨rfl, hb⟩
    exact ⟨List.filterMap_append.symm, List.forall_mem_append.mpr ⟨ha, hb⟩⟩
  logs_undefinedRule := ⟨rfl, by simp [Notice.isOfSpan]⟩

variable {s : Text}

theorem unmarking_titles (name : String) :
    (unmarking s).Titles (some name) (some (Title.unmark name)) := by
  rintro _ t inside _ outcome outcome' houtcome rfl
  obtain rfl : outcome = outcome' := houtcome.eq.symm
  show _ = List.map _ _
  simp [Event.spanned, Event.unmark, Event.within, Function.comp_def]

theorem isOfSpan_spanned {title : String} {t : Text} {inside : List Event}
    {α : Type} {outcome : Outcome α} :
    ∀ e ∈ Event.spanned (some title) t inside outcome.finish, e.notice.isOfSpan → e.spans ≠ [] := by
  intro e he _
  simp only [Event.spanned, List.mem_cons, List.mem_append, List.mem_map] at he
  rcases he with rfl | ⟨e, -, rfl⟩ | ⟨notice, -, rfl⟩ <;> exact List.cons_ne_nil _ _

theorem striking_titles_mark (name : String) :
    (striking s).Titles (some (Title.mark name)) none := by
  rintro _ t inside _ outcome outcome' houtcome ⟨rfl, hinside⟩
  obtain rfl : outcome = outcome' := houtcome.eq.symm
  refine ⟨?_, isOfSpan_spanned⟩
  -- The two events of the span itself go, and those inside are what they were without it.
  have hattempt : Event.strike ⟨.attempt t, [Title.mark name]⟩ = none := by
    simp [Event.strike, Notice.isOfSpan]
  have hfinish :
      (outcome.finish.toList.map fun notice => Event.mk notice [Title.mark name]).filterMap
        Event.strike = [] := by
    rw [List.filterMap_map, List.filterMap_eq_nil_iff]
    intro notice hnotice
    have hspan := Outcome.isOfSpan_of_mem_finish (Option.mem_toList.mp hnotice)
    simp [Event.strike, hspan]
  show List.filterMap Event.strike inside = _
  rw [Event.spanned, List.filterMap_cons_none hattempt, List.filterMap_append, hfinish,
    List.append_nil, List.filterMap_map]
  exact List.filterMap_congr fun e he => (Event.strike_within_mark name (hinside e he)).symm

theorem striking_titles {name : String} (hname : Title.isMarked name = false) :
    (striking s).Titles (some name) (some name) := by
  rintro _ t inside _ outcome outcome' houtcome ⟨rfl, hinside⟩
  obtain rfl : outcome = outcome' := houtcome.eq.symm
  refine ⟨?_, isOfSpan_spanned⟩
  -- All events of the span stay, whether or not they are about it.
  have hself (notice : Notice) : Event.strike ⟨notice, [name]⟩ = some ⟨notice, [name]⟩ := by
    simp [Event.strike, hname]
  have hwithin : (Event.strike ∘ Event.within name) = fun e => e.strike.map (Event.within name) :=
    funext (Event.strike_within hname)
  have hfinish : (outcome.finish.toList.map fun notice => Event.mk notice [name]).filterMap
      Event.strike = outcome.finish.toList.map fun notice => ⟨notice, [name]⟩ := by
    simp only [List.filterMap_map, Function.comp_def, hself, List.filterMap_eq_map']
  simp only [Event.spanned]
  rw [List.filterMap_cons_some (hself _), List.filterMap_append, hfinish, List.filterMap_map,
    hwithin, List.map_filterMap]

theorem unmarking_retitles : (unmarking s).Retitles (fun name => some (Title.mark name)) some where
  titles name := by simpa using unmarking_titles (Title.mark name)
  json := unmarking_titles Json.valueName
  version := unmarking_titles Version.versionName
  value _ := trivial
  code _ := trivial
  limit := trivial

theorem striking_retitles :
    (striking s).Retitles (fun name => some (Title.mark name)) fun _ => none where
  titles := striking_titles_mark
  json := striking_titles Title.isMarked_valueName
  version := striking_titles Title.isMarked_versionName
  value _ := trivial
  code _ := trivial
  limit := trivial

end Likeness

/-! ## Transparency -/

/-- The description with a mark on each of its titles. -/
def Grammar.marked (g : Grammar) : Grammar := g.retitle fun name => some (Title.mark name)

/-- The description without its spans and wrappings. -/
def Grammar.erase (g : Grammar) : Grammar := g.retitle fun _ => none

namespace Store

/-- The store in which the bodies of rules have marks on their titles. -/
def marked (s : Store) : Store := s.retitle fun name => some (Title.mark name)

/-- The store in which the bodies of rules have neither spans nor wrappings. -/
def erase (s : Store) : Store := s.retitle fun _ => none

theorem marked_alike (store : Store) (handles : List (String × Handle)) (g : Grammar) (s : Text) :
    (Likeness.unmarking s).Parsers (g.marked.parser (bodyScope handles store.marked.parser))
      (g.parser (bodyScope handles store.parser)) := by
  rw [← g.parser_retitle_some, ← store.parser_retitle_some]
  exact store.described_alike handles g Likeness.unmarking_retitles fun _ _ => trivial

theorem erase_alike (store : Store) (handles : List (String × Handle)) (g : Grammar) (s : Text) :
    (Likeness.striking s).Parsers (g.marked.parser (bodyScope handles store.marked.parser))
      (g.erase.parser (bodyScope handles store.erase.parser)) :=
  store.described_alike handles g Likeness.striking_retitles fun _ _ => trivial

/-- A description, in which names stand for rules of a store, has the same outcomes without the
spans and wrappings that are in it and in the bodies of the rules. It has the same events without
those spans: with all their titles marked, which changes nothing but the titles, the events that are
about marked spans go, and the marked spans go from around the others. -/
theorem erase_transparent (store : Store) (handles : List (String × Handle)) (g : Grammar)
    (s : Text) :
    let reply := g.parser (bodyScope handles store.parser) s
    let marked := g.marked.parser (bodyScope handles store.marked.parser) s
    let erased := g.erase.parser (bodyScope handles store.erase.parser) s
    erased.outcome = reply.outcome ∧ marked.outcome = reply.outcome ∧
      reply.events = marked.events.map Event.unmark ∧
      erased.events = marked.events.filterMap Event.strike := by
  intro reply marked erased
  have hmarked := (store.marked_alike handles g s s (List.suffix_refl s)).agree
  have herased := (store.erase_alike handles g s s (List.suffix_refl s)).agree
  obtain ⟨houtcome, hevents⟩ := hmarked.resolve_right fun h => h.1
  obtain ⟨houtcome', hevents', -⟩ := herased.resolve_right fun h => h.1
  exact ⟨houtcome'.trans houtcome.symm, houtcome.symm, hevents, hevents'⟩

end Store

end Descent
