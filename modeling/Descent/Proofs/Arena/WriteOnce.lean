import Descent.Proofs.Arena.Ownership
import Mathlib.Data.List.Nodup

/-!
# Rules are defined once

A run of a session is told by two lists: the rules that it declared, and the definitions that it
attempted, both in order. A step that declares a rule is known by the arena that is held, and the
number of the rule by the declarations that were made on the arena before. The two lists say all
there is to know about the rules of an arena that is alive: it has a slot for each declaration made
on it, in order, and the slot has the first body that was attempted for it (`Recorded`). This is
kept by every step, and so it holds after every run, over any number of arenas; that every later
definition is refused, and changes nothing, follows from it (`write_once_after`).
-/

namespace Descent

namespace Session

open Store (Unchanged)

variable {s t : Session} {dead : Nat → Prop}

/-! ## Histories -/

/-- The rule that a step declares, after other rules: where an arena is held, the next rule of that
arena. -/
def declares (s : Session) (declared : List Handle) : Step → Option Handle
  | .declare _ => s.held.map fun id => ⟨id, declared.countP (·.arena == id)⟩
  | _ => none

/-- The handle that a step gives a name to, and the name: the handle of a rule that is declared, or
one that is there already. -/
def names (s : Session) (declared : List Handle) : Step → Option (String × Handle)
  | .declare name => (s.declares declared (.declare name)).map (name, ·)
  | .cloneHandle handle name => (Table.get? s.handles handle).map (name, ·)
  | .handle rooted name => (Table.get? s.rooted rooted).map (name, ·)
  | _ => none

/-- The definition that a step attempts, if it attempts one. -/
def defines (s : Session) : Step → Option (Handle × RuleBody)
  | .define name (.ok grammar) => (Table.get? s.handles name).map fun h => (h, ⟨grammar, s.handles⟩)
  | _ => none

/-- The rules that have been declared after steps taken one after the other, in order. -/
def declarations (s : Session) (declared : List Handle) : List Step → List Handle
  | [] => declared
  | first :: rest =>
    declarations (s.step first).1 (declared ++ (s.declares declared first).toList) rest

/-- The definitions that are attempted in steps taken one after the other, in order. -/
def definitions (s : Session) : List Step → List (Handle × RuleBody)
  | [] => []
  | first :: rest => (s.defines first).toList ++ definitions (s.step first).1 rest

/-! ## Shares -/

/-- The handles that a session has, in its table and in its rooted parsers. -/
def references (s : Session) : List Handle := s.handles.map Prod.snd ++ s.rooted.map Prod.snd

theorem mem_references {h : Handle} :
    h ∈ s.references ↔ (∃ name, (name, h) ∈ s.handles) ∨ ∃ name, (name, h) ∈ s.rooted := by
  simp [references]

theorem mem_references_of_handle {name : String} {h : Handle}
    (hh : Table.get? s.handles name = some h) : h ∈ s.references :=
  mem_references.mpr (Or.inl ⟨name, Table.mem_of_get? hh⟩)

theorem mem_references_of_rooted {name : String} {h : Handle}
    (hh : Table.get? s.rooted name = some h) : h ∈ s.references :=
  mem_references.mpr (Or.inr ⟨name, Table.mem_of_get? hh⟩)

/-- A step that only takes and gives up shares: no arena that stays alive changes its slots, and the
session has no new handle. -/
structure Shares (s t : Session) : Prop where
  unchanged : Unchanged s.store t.store
  references : ∀ h ∈ t.references, h ∈ s.references

namespace Shares

theorem refl (s : Session) : Shares s s := ⟨.refl _, fun _ h => h⟩

theorem trans {s t u : Session} (hst : Shares s t) (htu : Shares t u) : Shares s u :=
  ⟨hst.unchanged.trans htu.unchanged, fun h hh => hst.references h (htu.references h hh)⟩

end Shares

theorem shares_retain (s : Session) (id : Nat) : Shares s { s with store := s.store.retain id } :=
  ⟨Store.unchanged_retain s.store id, fun _ h => h⟩

theorem shares_releaseHeld (s : Session) : Shares s s.releaseHeld := by
  unfold releaseHeld
  split
  · exact ⟨Store.unchanged_release _ _, fun _ h => h⟩
  · exact .refl s

theorem shares_releaseKept (s : Session) (name : String) : Shares s (s.releaseKept name) := by
  unfold releaseKept
  split
  · exact ⟨Store.unchanged_release _ _, fun _ h => h⟩
  · exact .refl s

theorem shares_releaseRooted (s : Session) (name : String) : Shares s (s.releaseRooted name) := by
  unfold releaseRooted
  split
  · refine ⟨Store.unchanged_release _ _, fun h hh => ?_⟩
    rw [mem_references] at hh ⊢
    refine hh.imp_right fun ⟨other, hr⟩ => ⟨other, Table.mem_of_mem_erase hr⟩
  · exact .refl s

theorem shares_hold (s : Session) (id : Nat) : Shares s (s.hold id) := by
  have h := (shares_retain s id).trans (shares_releaseHeld _)
  exact ⟨h.unchanged, h.references⟩

theorem shares_keep (s : Session) (name : String) (id : Nat) : Shares s (s.keep name id) := by
  have h := (shares_retain s id).trans (shares_releaseKept _ name)
  exact ⟨h.unchanged, h.references⟩

theorem unchanged_root (s : Session) (store : Store) (name : String) (h : Handle) :
    Unchanged store (root { s with store } name h).store :=
  ((shares_retain { s with store } h.arena).trans (shares_releaseRooted _ name)).unchanged

theorem shares_root {name : String} {h : Handle} (hh : h ∈ s.references) :
    Shares s (s.root name h) := by
  have hr := (shares_retain s h.arena).trans (shares_releaseRooted _ name)
  refine ⟨unchanged_root s s.store name h, fun g hg => ?_⟩
  rcases mem_references.mp hg with hg | ⟨other, hg⟩
  · exact hr.references g (mem_references.mpr (Or.inl hg))
  · rcases Table.mem_insert hg with heq | hg
    · cases heq
      exact hh
    · exact hr.references g (mem_references.mpr (Or.inr ⟨other, hg⟩))

theorem shares_handles {name : String} {h : Handle} (hh : h ∈ s.references) :
    Shares s { s with handles := Table.insert s.handles name h } := by
  refine ⟨.refl _, fun g hg => ?_⟩
  rcases mem_references.mp hg with ⟨other, hg⟩ | hg
  · rcases Table.mem_insert hg with heq | hg
    · cases heq
      exact hh
    · exact mem_references.mpr (Or.inl ⟨other, hg⟩)
  · exact mem_references.mpr (Or.inr hg)

/-! ## What is recorded -/

/-- The rules of the live arenas of a session, told by the rules that were declared and by the
definitions that were attempted. -/
structure Recorded (s : Session) (declared : List Handle) (attempted : List (Handle × RuleBody)) :
    Prop where
  /-- The rules of an arena are numbered in the order of their declaration, and as long as it is
  alive it has a slot for each. -/
  numbered (id : Nat) : ∃ n, declared.filter (·.arena == id) = (List.range n).map (Handle.mk id) ∧
    ∀ a, s.store.arena? id = some a → a.declared = n
  /-- A slot has the first body that was attempted for its rule. -/
  first {id slot : Nat} {a : Arena} {body : Option RuleBody} : s.store.arena? id = some a →
    a.slots[slot]? = some body → attempted.lookup ⟨id, slot⟩ = body
  lt_length {h : Handle} : h ∈ declared → h.arena < s.store.arenas.length
  references {h : Handle} : h ∈ s.references → h ∈ declared
  attempted {d : Handle × RuleBody} : d ∈ attempted →
    d.1 ∈ declared ∧ ∀ name h, (name, h) ∈ d.2.handles → h ∈ declared

namespace Recorded

variable {declared : List Handle} {attempted : List (Handle × RuleBody)} {h : Handle} {a : Arena}
  {id : Nat}

/-! ### What the record says -/

theorem filter_eq (hs : Recorded s declared attempted) (ha : s.store.arena? id = some a) :
    declared.filter (·.arena == id) = (List.range a.declared).map (Handle.mk id) := by
  obtain ⟨n, hn, hdeclared⟩ := hs.numbered id
  rw [hn, hdeclared a ha]

/-- A live arena counts its declarations. -/
theorem declared_eq (hs : Recorded s declared attempted) (ha : s.store.arena? id = some a) :
    a.declared = declared.countP (·.arena == id) := by
  rw [List.countP_eq_length_filter, hs.filter_eq ha]
  simp

theorem slot_lt (hs : Recorded s declared attempted) (hh : h ∈ declared)
    (ha : s.store.arena? h.arena = some a) : h.slot < a.declared := by
  have hmem : h ∈ declared.filter (·.arena == h.arena) := by simp [hh]
  rw [hs.filter_eq ha] at hmem
  obtain ⟨slot, hslot, heq⟩ := List.mem_map.mp hmem
  rw [← heq]
  exact List.mem_range.mp hslot

/-- No two declarations give the same rule. -/
theorem nodup (hs : Recorded s declared attempted) : declared.Nodup := by
  rw [List.nodup_iff_count_le_one]
  intro h
  obtain ⟨n, hn, -⟩ := hs.numbered h.arena
  have hcount : declared.count h = ((List.range n).map (Handle.mk h.arena)).count h := by
    rw [← hn, List.count_filter (by simp)]
  have hinjective : Function.Injective (Handle.mk h.arena) := fun _ _ heq => (Handle.mk.inj heq).2
  rw [hcount]
  exact List.nodup_iff_count_le_one.mp (List.nodup_range.map hinjective) h

theorem slots_getElem? (hs : Recorded s declared attempted) (hh : h ∈ declared)
    (ha : s.store.arena? h.arena = some a) : a.slots[h.slot]? = some (attempted.lookup h) := by
  have hslot : h.slot < a.slots.length := hs.slot_lt hh ha
  rw [List.getElem?_eq_getElem hslot, ← hs.first ha (List.getElem?_eq_getElem hslot)]

/-- A rule has the first body that was attempted for it. -/
theorem body?_eq (hs : Recorded s declared attempted) (hh : h ∈ declared)
    (ha : s.store.arena? h.arena = some a) : s.store.body? h = attempted.lookup h := by
  rw [Store.body?_eq, ha, Option.bind_some, hs.slots_getElem? hh ha]
  rfl

/-- Each slot of a live arena is that of a declaration. -/
theorem mem_declared_of_lt (hs : Recorded s declared attempted)
    (ha : s.store.arena? h.arena = some a) (hslot : h.slot < a.declared) : h ∈ declared := by
  have hmem : h ∈ declared.filter (·.arena == h.arena) := by
    rw [hs.filter_eq ha]
    exact List.mem_map.mpr ⟨h.slot, List.mem_range.mpr hslot, rfl⟩
  exact (List.mem_filter.mp hmem).1

theorem mem_declared_of_body? (hs : Recorded s declared attempted) {body : RuleBody}
    (hbody : s.store.body? h = some body) : h ∈ declared := by
  rw [Store.body?_eq] at hbody
  obtain ⟨a, ha, hjoin⟩ := Option.bind_eq_some_iff.mp hbody
  obtain ⟨hslot, -⟩ := List.getElem?_eq_some_iff.mp (Option.join_eq_some_iff.mp hjoin)
  exact hs.mem_declared_of_lt ha hslot

/-- A rule that has a body got it from the first definition that was attempted. -/
theorem lookup_of_body? (hs : Recorded s declared attempted) {body : RuleBody}
    (hbody : s.store.body? h = some body) : attempted.lookup h = some body := by
  obtain ⟨a, ha, -⟩ := Option.bind_eq_some_iff.mp ((Store.body?_eq h).symm.trans hbody)
  rw [← hs.body?_eq (hs.mem_declared_of_body? hbody) ha, hbody]

/-- A rule that is declared is a new one. -/
theorem not_mem_declared (hs : Recorded s declared attempted) (ha : s.store.arena? id = some a) :
    Handle.mk id a.declared ∉ declared :=
  fun hh => Nat.lt_irrefl _ (hs.slot_lt hh ha)

theorem lookup_eq_none (hs : Recorded s declared attempted) (hh : h ∉ declared) :
    attempted.lookup h = none := by
  rw [List.lookup_eq_none_iff]
  intro d hd
  rw [bne_iff_ne]
  rintro rfl
  exact hh (hs.attempted hd).1

/-! ### What steps do to the record -/

theorem of_shares (hs : Recorded s declared attempted) (hst : Shares s t) :
    Recorded t declared attempted where
  numbered id := by
    obtain ⟨n, hn, hdeclared⟩ := hs.numbered id
    refine ⟨n, hn, fun b hb => ?_⟩
    obtain ⟨a, ha, hslots⟩ := hst.unchanged.slots_eq hb
    rw [← hdeclared a ha, Arena.declared, Arena.declared, hslots]
  first hb hbody := by
    obtain ⟨a, ha, hslots⟩ := hst.unchanged.slots_eq hb
    exact hs.first ha (hslots ▸ hbody)
  lt_length hh := by
    rw [hst.unchanged.length_eq]
    exact hs.lt_length hh
  references hh := hs.references (hst.references _ hh)
  attempted := hs.attempted

theorem create (hs : Recorded s declared attempted) :
    Recorded { s with store := s.store.create.1, held := some s.store.create.2 } declared
      attempted where
  numbered id := by
    obtain ⟨n, hn, hdeclared⟩ := hs.numbered id
    refine ⟨n, hn, fun b hb => ?_⟩
    rw [Store.arena?_create] at hb
    split at hb
    · next hid =>
      -- No rule has been declared in an arena that was not there.
      have hnone : declared.filter (·.arena == id) = [] := by
        rw [List.filter_eq_nil_iff]
        intro h hh heq
        have hlt := hs.lt_length hh
        rw [eq_of_beq heq, hid] at hlt
        exact Nat.lt_irrefl _ hlt
      cases hb
      have hlength := congrArg List.length (hnone.symm.trans hn)
      simpa [Arena.declared] using hlength
    · exact hdeclared b hb
  first hb hbody := by
    rw [Store.arena?_create] at hb
    split at hb
    · cases hb
      cases hbody
    · exact hs.first hb hbody
  lt_length hh := by
    have hlt := hs.lt_length hh
    rw [Store.create, List.length_append]
    omega
  references hh := hs.references hh
  attempted := hs.attempted

theorem declare (hs : Recorded s declared attempted) (ha : s.store.arena? id = some a)
    (name : String) :
    Recorded { s with
      store := s.store.modify id fun a => { a with slots := a.slots ++ [none] }
      handles := Table.insert s.handles name ⟨id, a.declared⟩ }
      (declared ++ [⟨id, a.declared⟩]) attempted := by
  constructor
  case numbered =>
    intro other
    obtain ⟨n, hn, hdeclared⟩ := hs.numbered other
    by_cases hid : id = other
    · subst hid
      refine ⟨n + 1, ?_, fun b hb => ?_⟩
      · rw [List.filter_append, hn, ← hdeclared a ha, List.range_succ, List.map_append]
        simp
      · rw [Store.arena?_declared, ha, Option.map_some, if_pos rfl] at hb
        cases hb
        rw [← hdeclared a ha, Arena.declared, List.length_append]
        rfl
    · refine ⟨n, ?_, fun b hb => ?_⟩
      · rw [List.filter_append, hn]
        simp [hid]
      · rw [Store.arena?_declared, Option.map_eq_some_iff] at hb
        obtain ⟨c, hc, rfl⟩ := hb
        rw [if_neg hid]
        exact hdeclared c hc
  case first =>
    intro other slot b body hb hbody
    rw [Store.arena?_declared, Option.map_eq_some_iff] at hb
    obtain ⟨c, hc, rfl⟩ := hb
    by_cases hid : id = other
    · subst hid
      rw [if_pos rfl, List.getElem?_append] at hbody
      split at hbody
      · exact hs.first hc hbody
      · next hslot =>
        -- The new slot is empty, and nothing was attempted for a rule that was not there.
        have hlast : slot = c.declared := by
          have hlt := (List.getElem?_eq_some_iff.mp hbody).1
          rw [List.length_singleton] at hlt
          rw [Arena.declared]
          omega
        subst hlast
        rw [hs.lookup_eq_none (hs.not_mem_declared hc)]
        simpa [Arena.declared] using hbody
    · rw [if_neg hid] at hbody
      exact hs.first hc hbody
  case lt_length =>
    intro g hg
    rw [Store.length_arenas_modify]
    rcases List.mem_append.mp hg with hg | hg
    · exact hs.lt_length hg
    · rw [List.mem_singleton.mp hg]
      exact Store.lt_length_of_arena? ha
  case references =>
    intro g hg
    rw [List.mem_append, List.mem_singleton]
    rcases mem_references.mp hg with ⟨other, hg⟩ | hg
    · rcases Table.mem_insert hg with heq | hg
      · cases heq
        exact Or.inr rfl
      · exact Or.inl (hs.references (mem_references.mpr (Or.inl ⟨other, hg⟩)))
    · exact Or.inl (hs.references (mem_references.mpr (Or.inr hg)))
  case attempted =>
    intro d hd
    obtain ⟨hrule, hhandles⟩ := hs.attempted hd
    exact ⟨List.mem_append_left _ hrule,
      fun name h hh => List.mem_append_left _ (hhandles name h hh)⟩

theorem lookup_attempt (attempted : List (Handle × RuleBody)) (h g : Handle) (body : RuleBody) :
    (attempted ++ [(h, body)]).lookup g =
      (attempted.lookup g).or (if g = h then some body else none) := by
  rw [List.lookup_append]
  by_cases hgh : g = h
  · simp [hgh]
  · have hne : (g == h) = false := beq_eq_false_iff_ne.mpr hgh
    simp [List.lookup_cons, hne, hgh]

/-- An attempt on a rule that was declared leaves all of them on such rules. -/
theorem attempted_append (hs : Recorded s declared attempted) (hh : h ∈ declared) {body : RuleBody}
    (hbody : ∀ name g, (name, g) ∈ body.handles → g ∈ declared) {d : Handle × RuleBody}
    (hd : d ∈ attempted ++ [(h, body)]) :
    d.1 ∈ declared ∧ ∀ name g, (name, g) ∈ d.2.handles → g ∈ declared := by
  rcases List.mem_append.mp hd with hd | hd
  · exact hs.attempted hd
  · rw [List.mem_singleton.mp hd]
    exact ⟨hh, hbody⟩

/-- An attempt makes no difference to a rule that has a body, or that is gone. -/
theorem attempt_refused (hs : Recorded s declared attempted) (hh : h ∈ declared) {body : RuleBody}
    (hbody : ∀ name g, (name, g) ∈ body.handles → g ∈ declared)
    (hrefused : ∀ a, s.store.arena? h.arena = some a → (attempted.lookup h).isSome = true) :
    Recorded s declared (attempted ++ [(h, body)]) where
  numbered := hs.numbered
  first {id slot a b} ha hb := by
    rw [lookup_attempt, hs.first ha hb]
    by_cases hgh : Handle.mk id slot = h
    · subst hgh
      have hsome := hrefused a ha
      rw [hs.first ha hb] at hsome
      exact Option.or_of_isSome hsome
    · rw [if_neg hgh, Option.or_none]
  lt_length := hs.lt_length
  references := hs.references
  attempted hd := hs.attempted_append hh hbody hd

theorem attempt_accepted (hs : Recorded s declared attempted) (hh : h ∈ declared) {body : RuleBody}
    (hbody : ∀ name g, (name, g) ∈ body.handles → g ∈ declared)
    (hnone : attempted.lookup h = none) :
    Recorded { s with
      store := s.store.modify h.arena fun a => { a with slots := a.slots.set h.slot (some body) } }
      declared (attempted ++ [(h, body)]) where
  numbered id := by
    obtain ⟨n, hn, hdeclared⟩ := hs.numbered id
    refine ⟨n, hn, fun b hb => ?_⟩
    rw [Store.arena?_defined, Option.map_eq_some_iff] at hb
    obtain ⟨a, ha, rfl⟩ := hb
    rw [← hdeclared a ha]
    split <;> simp [Arena.declared]
  first {id slot b old} hb hold := by
    rw [Store.arena?_defined, Option.map_eq_some_iff] at hb
    obtain ⟨a, ha, rfl⟩ := hb
    rw [lookup_attempt]
    by_cases hgh : Handle.mk id slot = h
    · subst hgh
      have hslot : slot < a.slots.length := hs.slot_lt hh ha
      rw [if_pos rfl, List.getElem?_set_self hslot] at hold
      cases hold
      rw [hnone, if_pos rfl, Option.none_or]
    · have hsame : a.slots[slot]? = some old := by
        rw [← hold]
        split
        · next harena =>
          have hslot : h.slot ≠ slot := fun heq => hgh (by rw [← harena, ← heq])
          rw [List.getElem?_set_ne hslot]
        · rfl
      rw [hs.first ha hsame, if_neg hgh, Option.or_none]
  lt_length hh := by
    rw [Store.length_arenas_modify]
    exact hs.lt_length hh
  references hg := hs.references hg
  attempted hd := hs.attempted_append hh hbody hd

/-- A definition is refused where the arena has died, and where one was attempted before. -/
theorem define_eq (hs : Recorded s declared attempted) (hh : h ∈ declared) (name : String)
    (grammar : Grammar) :
    s.define name h grammar =
      match s.store.arena? h.arena, attempted.lookup h with
      | none, _ => (s, .defineError .arenaDropped)
      | some _, some _ => (s, .defineError .alreadyDefined)
      | some _, none =>
        (root { s with
          store := s.store.modify h.arena fun a =>
            { a with slots := a.slots.set h.slot (some ⟨grammar, s.handles⟩) } } name h,
          .defined) := by
  rw [Session.define, Store.define_eq]
  cases ha : s.store.arena? h.arena with
  | none => rfl
  | some a =>
    rw [hs.body?_eq hh ha]
    cases attempted.lookup h <;> rfl

theorem define (hs : Recorded s declared attempted) (hh : h ∈ s.references) (name : String)
    (grammar : Grammar) :
    Recorded (s.define name h grammar).1 declared (attempted ++ [(h, ⟨grammar, s.handles⟩)]) := by
  have hdeclared : h ∈ declared := hs.references hh
  have hbody (name : String) (g : Handle) (hg : (name, g) ∈ s.handles) : g ∈ declared :=
    hs.references (mem_references.mpr (Or.inl ⟨name, hg⟩))
  rw [hs.define_eq hdeclared]
  split
  · next hnone =>
    refine hs.attempt_refused hdeclared hbody fun a ha => ?_
    rw [hnone] at ha
    cases ha
  · next hlookup =>
    refine hs.attempt_refused hdeclared hbody fun _ _ => ?_
    rw [hlookup]
    rfl
  · next hlookup =>
    exact (hs.attempt_accepted hdeclared hbody hlookup).of_shares (shares_root hh)

/-- A step that neither declares nor defines a rule. -/
theorem of_shares_step (hs : Recorded s declared attempted) {first : Step}
    (hdeclares : s.declares declared first = none) (hdefines : s.defines first = none)
    (hst : Shares s (s.step first).1) :
    Recorded (s.step first).1 (declared ++ (s.declares declared first).toList)
      (attempted ++ (s.defines first).toList) := by
  simpa [hdeclares, hdefines] using hs.of_shares hst

theorem shares_withRooted {name : String} {go : Handle → Session × Answer}
    (hgo : ∀ h, h ∈ s.references → Shares s (go h).1) : Shares s (s.withRooted name go).1 := by
  rw [withRooted]
  split
  · next h hh => exact hgo h (mem_references_of_rooted hh)
  · exact .refl s

theorem step (hs : Recorded s declared attempted) (ho : s.Owned [] dead) (first : Step) :
    Recorded (s.step first).1 (declared ++ (s.declares declared first).toList)
      (attempted ++ (s.defines first).toList) := by
  cases first with
  | create =>
    have hcreate := (hs.of_shares (shares_releaseHeld s)).create
    simp only [declares, defines, Option.toList_none, List.append_nil]
    exact hcreate
  | declare name =>
    cases hheld : s.held with
    | none => simpa [declares, defines, step_declare_of_none hheld, hheld] using hs
    | some id =>
      -- The arena that is held is alive, and so it has as many slots as there were declarations.
      obtain ⟨a, ha⟩ := ho.exists_arena?_held hheld
      simpa [declares, defines, step_declare hheld ha, hheld, ← hs.declared_eq ha]
        using hs.declare ha name
  | define name body =>
    cases body with
    | error refusal =>
      cases hh : Table.get? s.handles name <;>
        simpa [declares, defines, Session.step, hh] using hs
    | ok grammar =>
      cases hh : Table.get? s.handles name with
      | none => simpa [declares, defines, Session.step, hh] using hs
      | some h =>
        simpa [declares, defines, Session.step, hh] using
          hs.define (mem_references_of_handle hh) name grammar
  | parse name input =>
    refine hs.of_shares_step rfl rfl ?_
    rw [Session.step]
    split <;> exact .refl s
  | parseRooted name input =>
    exact hs.of_shares_step rfl rfl (shares_withRooted fun _ _ => .refl s)
  | cloneHandle handle name =>
    refine hs.of_shares_step rfl rfl ?_
    rw [Session.step]
    split
    · next hh => exact shares_handles (mem_references_of_handle hh)
    · exact .refl s
  | handle rooted name =>
    exact hs.of_shares_step rfl rfl (shares_withRooted fun _ hh => shares_handles hh)
  | cloneRooted rooted name =>
    exact hs.of_shares_step rfl rfl (shares_withRooted fun _ hh => shares_root hh)
  | takeArena rooted =>
    exact hs.of_shares_step rfl rfl (shares_withRooted fun h _ => shares_hold s h.arena)
  | dropArena => exact hs.of_shares_step rfl rfl (shares_releaseHeld s)
  | keepArena name =>
    refine hs.of_shares_step rfl rfl ?_
    rw [Session.step]
    split
    · exact shares_keep s name _
    · exact .refl s
  | takeKept name =>
    refine hs.of_shares_step rfl rfl ?_
    rw [Session.step]
    split
    · exact shares_hold s _
    · exact .refl s
  | dropKept name => exact hs.of_shares_step rfl rfl (shares_releaseKept s name)
  | dropRooted name => exact hs.of_shares_step rfl rfl (shares_releaseRooted s name)
  | look => exact hs.of_shares_step rfl rfl (.refl s)

theorem after (hs : Recorded s declared attempted) (ho : s.Owned [] dead) (steps : List Step) :
    Recorded (s.after steps) (s.declarations declared steps)
      (attempted ++ s.definitions steps) := by
  induction steps generalizing s declared attempted with
  | nil => simpa [Session.after, declarations, definitions] using hs
  | cons first rest ih =>
    have hrest := ih (hs.step ho first) (ho.step first)
    rw [List.append_assoc] at hrest
    exact hrest

end Recorded

/-- What was declared before is still among the declarations. -/
theorem prefix_declarations (s : Session) (declared : List Handle) (steps : List Step) :
    declared <+: s.declarations declared steps := by
  induction steps generalizing s declared with
  | nil => exact List.prefix_rfl
  | cons first rest ih => exact (List.prefix_append declared _).trans (ih _ _)

theorem recorded_start : Recorded start [] [] := by
  have hempty : Recorded {} [] [] :=
    { numbered := fun id => ⟨0, rfl, fun a ha => by simp [Store.arena?] at ha⟩
      first := fun ha _ => by simp [Store.arena?] at ha
      lt_length := fun hh => by cases hh
      references := fun hh => by cases hh
      attempted := fun hd => by cases hd }
  exact hempty.create

/-! ## Handles -/

/-- A step gives a name to the handle that it should, and leaves the others alone. -/
theorem handles_step {declared : List Handle} {attempted : List (Handle × RuleBody)}
    (hs : Recorded s declared attempted) (ho : s.Owned [] dead) (first : Step) :
    (s.step first).1.handles =
      match s.names declared first with
      | some (name, h) => Table.insert s.handles name h
      | none => s.handles := by
  cases first with
  | create => exact handles_releaseHeld s
  | declare name =>
    cases hheld : s.held with
    | none => simp only [step_declare_of_none hheld, names, declares, hheld, Option.map_none]
    | some id =>
      obtain ⟨a, ha⟩ := ho.exists_arena?_held hheld
      simp only [step_declare hheld ha, names, declares, hheld, Option.map_some,
        hs.declared_eq ha]
  | define name body =>
    show _ = s.handles
    cases hh : Table.get? s.handles name with
    | none => simp only [step, hh]
    | some h =>
      cases body with
      | error refusal => simp only [step, hh]
      | ok grammar =>
        simp only [step, hh, Session.define]
        split
        · exact handles_root _ name h
        · rfl
  | parse name input =>
    rw [step]
    split <;> rfl
  | parseRooted name input =>
    rw [step, withRooted]
    split <;> rfl
  | cloneHandle handle name =>
    rw [step, names]
    cases Table.get? s.handles handle <;> rfl
  | handle rooted name =>
    rw [step, withRooted, names]
    cases Table.get? s.rooted rooted <;> rfl
  | cloneRooted rooted name =>
    rw [step, withRooted]
    split
    · exact handles_root s name _
    · rfl
  | takeArena rooted =>
    rw [step, withRooted]
    split
    · exact handles_releaseHeld _
    · rfl
  | dropArena => exact handles_releaseHeld s
  | keepArena name =>
    rw [step]
    split
    · exact handles_releaseKept _ name
    · rfl
  | takeKept name =>
    rw [step]
    split
    · exact handles_releaseHeld _
    · rfl
  | dropKept name => exact handles_releaseKept s name
  | dropRooted name => exact handles_releaseRooted s name
  | look => rfl

/-! ## Rules after a run -/

/-- What the rules of a session are, after the given rules were declared and the given definitions
attempted, and what becomes of the next declaration and of the next definition. -/
structure WriteOnce (s : Session) (declared : List Handle) (attempted : List (Handle × RuleBody)) :
    Prop where
  /-- An arena that is alive counts the declarations made on it. -/
  declared_eq {id : Nat} {a : Arena} : s.store.arena? id = some a →
    a.declared = declared.countP (·.arena == id)
  /-- No two declarations give the same slot. -/
  nodup : declared.Nodup
  /-- Every handle is that of a declaration, also in the bodies of rules. -/
  references {h : Handle} :
    h ∈ s.references ∨ (∃ g body name, s.store.body? g = some body ∧ (name, h) ∈ body.handles) →
      h ∈ declared
  /-- As long as its arena is alive, a handle finds its slot, and there the first body that was
  attempted. -/
  resolves {h : Handle} {a : Arena} : h ∈ declared → s.store.arena? h.arena = some a →
    h.slot < a.declared ∧ a.slots[h.slot]? = some (attempted.lookup h) ∧
      s.store.body? h = attempted.lookup h
  /-- A body that is there stays, whatever is done, as long as the arena is alive. -/
  stays {h : Handle} {body : RuleBody} (more : List Step) : s.store.body? h = some body →
    ((s.after more).store.arena? h.arena).isSome → (s.after more).store.body? h = some body
  /-- Names are given to the handles of new rules, and to handles that had a name before. -/
  handles (first : Step) : (s.step first).1.handles =
    match s.names declared first with
    | some (name, h) => Table.insert s.handles name h
    | none => s.handles
  /-- A rule is declared whenever an arena is held. It has the next slot there, which is empty, and
  no other slot changes. -/
  declare (name : String) :
    match s.held with
    | none => s.step (.declare name) = (s, .noArena)
    | some id => (s.store.arena? id).isSome ∧
      ∃ store : Store,
        s.step (.declare name) = ({ s with
          store
          handles := Table.insert s.handles name ⟨id, declared.countP (·.arena == id)⟩ },
          .declared) ∧
        ∀ other, store.arena? other = (s.store.arena? other).map fun a =>
          if id = other then { a with slots := a.slots ++ [none] } else a
  /-- A definition is refused where the arena has died and where the rule has a body, and then it
  changes nothing. Otherwise the slot of the rule was empty, and it is the only one that changes
  before the rule is rooted, which changes none. -/
  define {name : String} {h : Handle} (grammar : Grammar) : Table.get? s.handles name = some h →
    match s.store.arena? h.arena, attempted.lookup h with
    | none, _ => s.step (.define name (.ok grammar)) = (s, .defineError .arenaDropped)
    | some _, some _ => s.step (.define name (.ok grammar)) = (s, .defineError .alreadyDefined)
    | some a, none => a.slots[h.slot]? = some none ∧
      ∃ store : Store,
        s.step (.define name (.ok grammar)) = (root { s with store } name h, .defined) ∧
        (∀ id, store.arena? id = (s.store.arena? id).map fun b =>
          if h.arena = id then { b with slots := b.slots.set h.slot (some ⟨grammar, s.handles⟩) }
          else b) ∧
        Unchanged store (root { s with store } name h).store

/-- After every run, each arena that is alive has the rules that were declared in it, and each of
them has the first body that it was given. -/
theorem write_once_after (steps : List Step) :
    (start.after steps).WriteOnce (start.declarations [] steps) (start.definitions steps) := by
  have hs : Recorded (start.after steps) (start.declarations [] steps)
      (start.definitions steps) := recorded_start.after owned_start steps
  have ho : (start.after steps).Owned [] fun _ => False := owned_start.after steps
  generalize start.after steps = s, start.declarations [] steps = declared,
    start.definitions steps = attempted at hs ho ⊢
  constructor
  case declared_eq => exact hs.declared_eq
  case nodup => exact hs.nodup
  case references =>
    rintro h (hh | ⟨g, body, name, hbody, hh⟩)
    · exact hs.references hh
    · exact (hs.attempted (mem_of_lookup (hs.lookup_of_body? hbody))).2 name h hh
  case resolves =>
    exact fun hh ha => ⟨hs.slot_lt hh ha, hs.slots_getElem? hh ha, hs.body?_eq hh ha⟩
  case stays =>
    intro h body more hbody halive
    obtain ⟨b, hb⟩ := Option.isSome_iff_exists.mp halive
    have hdeclared : h ∈ s.declarations declared more :=
      (s.prefix_declarations declared more).subset (hs.mem_declared_of_body? hbody)
    rw [(hs.after ho more).body?_eq hdeclared hb, List.lookup_append, hs.lookup_of_body? hbody,
      Option.some_or]
  case handles => exact handles_step hs ho
  case declare =>
    intro name
    split
    · next hheld => exact step_declare_of_none hheld name
    · next id hheld =>
      obtain ⟨a, ha⟩ := ho.exists_arena?_held hheld
      refine ⟨Option.isSome_of_eq_some ha, _, ?_, fun other => Store.arena?_declared⟩
      rw [← hs.declared_eq ha]
      exact step_declare hheld ha name
  case define =>
    intro name h grammar hh
    have hdeclared : h ∈ declared := hs.references (mem_references_of_handle hh)
    have hstep : s.step (.define name (.ok grammar)) = s.define name h grammar := by
      simp only [step, hh]
    rw [hstep, hs.define_eq hdeclared name grammar]
    split
    · rfl
    · rfl
    · next a ha hlookup =>
      exact ⟨hlookup ▸ hs.slots_getElem? hdeclared ha, _, rfl, fun id => Store.arena?_defined,
        unchanged_root s _ name h⟩

/-- A second definition is refused, also under another name for the handle. -/
example :
    let s := start.after [.declare "rule", .cloneHandle "rule" "same", .define "rule" (.ok .item)]
    (s.step (.define "same" (.ok .fail))).2 = .defineError .alreadyDefined := rfl

end Session
end Descent
