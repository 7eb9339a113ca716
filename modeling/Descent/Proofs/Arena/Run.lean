import Descent.Proofs.Arena.Store
import Mathlib.Data.List.Nodup

/-!
# Runs of sessions

A session has its shares in three places: the arena that it holds, those that it keeps, and its
rooted parsers. Each step takes shares and gives them up in these places only, and `Sharing` says
for every step which ones. `Session.after` is the session after steps taken one after the other.
-/

namespace Descent

/-! ## Tables -/

theorem mem_of_lookup {α β : Type} [BEq α] [LawfulBEq α] {t : List (α × β)} {key : α} {value : β}
    (h : t.lookup key = some value) : (key, value) ∈ t := by
  obtain ⟨before, after, rfl, -⟩ := List.lookup_eq_some_iff.mp h
  exact List.mem_append_right before List.mem_cons_self

namespace Table

variable {α : Type} {t : Table α} {name : String} {value : α} {entry : String × α}

theorem mem_of_get? (h : get? t name = some value) : (name, value) ∈ t := mem_of_lookup h

theorem mem_of_mem_erase (h : entry ∈ erase t name) : entry ∈ t :=
  (List.mem_filter.mp h).1

theorem mem_insert (h : entry ∈ insert t name value) : entry = (name, value) ∨ entry ∈ t := by
  rw [insert, List.mem_cons] at h
  exact h.imp_right mem_of_mem_erase

/-- No name is given twice. -/
def Unique (t : Table α) : Prop := (t.map Prod.fst).Nodup

theorem not_mem_erase (t : Table α) (name : String) : name ∉ (erase t name).map Prod.fst := by
  intro hmem
  obtain ⟨entry, hentry, hname⟩ := List.mem_map.mp hmem
  have hne : entry.1 ≠ name := by simpa using (List.mem_filter.mp hentry).2
  exact hne hname

theorem Unique.erase (h : Unique t) (name : String) : Unique (erase t name) :=
  List.Nodup.sublist (List.Sublist.map _ List.filter_sublist) h

theorem Unique.insert (h : Unique t) (name : String) (value : α) :
    Unique (insert t name value) := List.nodup_cons.mpr ⟨not_mem_erase t name, h.erase name⟩

theorem erase_of_not_mem (h : name ∉ t.map Prod.fst) : erase t name = t := by
  refine List.filter_eq_self.mpr fun entry hentry => bne_iff_ne.mpr ?_
  rintro rfl
  exact h (List.mem_map_of_mem hentry)

theorem not_mem_of_get? (h : get? t name = none) : name ∉ t.map Prod.fst := by
  intro hmem
  obtain ⟨entry, hentry, rfl⟩ := List.mem_map.mp hmem
  have hne := List.lookup_eq_none_iff.mp h entry hentry
  simp at hne

theorem erase_of_get? (h : get? t name = none) : erase t name = t :=
  erase_of_not_mem (not_mem_of_get? h)

/-- A name that is given to a value is taken away before. -/
@[simp] theorem insert_erase (t : Table α) (name : String) (value : α) :
    insert (erase t name) name value = insert t name value := by
  rw [insert, insert, erase_of_not_mem (not_mem_erase t name)]

theorem get?_eq_none (h : name ∉ t.map Prod.fst) : get? t name = none := by
  rw [Option.eq_none_iff_forall_ne_some]
  exact fun value hvalue => h (List.mem_map_of_mem (mem_of_get? hvalue))

/-- A table is the value of a name and the rest. -/
theorem Unique.perm_erase (h : Unique t) (hvalue : get? t name = some value) :
    t.Perm ((name, value) :: Table.erase t name) := by
  induction t with
  | nil => cases hvalue
  | cons entry rest ih =>
    obtain ⟨key, other⟩ := entry
    obtain ⟨hkey, hrest⟩ := List.nodup_cons.mp h
    by_cases hname : name = key
    · subst hname
      obtain rfl : other = value := by simpa [get?, List.lookup_cons] using hvalue
      have herase : Table.erase ((name, other) :: rest) name = rest := by
        rw [← erase_of_not_mem hkey]
        simp [Table.erase]
      rw [herase]
    · have hne : (name == key) = false := beq_eq_false_iff_ne.mpr hname
      have hget : get? rest name = some value := by
        simpa [get?, List.lookup_cons, hne] using hvalue
      have herase :
          Table.erase ((key, other) :: rest) name = (key, other) :: Table.erase rest name :=
        List.filter_cons_of_pos (by simpa using Ne.symm hname)
      rw [herase]
      exact ((ih hrest hget).cons _).trans (.swap _ _ _)

theorem Unique.get?_eq_some_iff (h : Unique t) : get? t name = some value ↔ (name, value) ∈ t := by
  refine ⟨mem_of_get?, fun hmem => ?_⟩
  cases hget : get? t name with
  | none => exact absurd (List.mem_map_of_mem hmem) (not_mem_of_get? hget)
  | some other =>
    rcases List.mem_cons.mp ((h.perm_erase hget).mem_iff.mp hmem) with heq | hrest
    · cases heq
      rfl
    · exact absurd (List.mem_map_of_mem hrest) (not_mem_erase t name)

end Table

/-- Steps that neither take a share nor give one up. -/
def Step.leavesShares : Step → Bool
  | .declare _ | .parse _ _ | .parseRooted _ _ | .cloneHandle _ _ | .handle _ _ | .look => true
  | _ => false

namespace Session

variable {s : Session} {id : Nat} {a : Arena}

/-! ## Runs -/

/-- The session after steps taken one after the other. -/
def after (s : Session) (steps : List Step) : Session :=
  steps.foldl (fun s first => (s.step first).1) s

/-- The sessions that a run shows are those after its first steps. -/
theorem run_eq (s : Session) (steps : List Step) :
    (s.run steps).map Prod.snd =
      (List.range steps.length).map fun n => s.after (steps.take (n + 1)) := by
  induction steps generalizing s with
  | nil => rfl
  | cons first rest ih =>
    rw [run, List.map_cons, ih, List.length_cons, List.range_succ_eq_map, List.map_cons,
      List.map_map]
    rfl

theorem after_append (s : Session) (steps more : List Step) :
    s.after (steps ++ more) = (s.after steps).after more := List.foldl_append

/-! ## Declarations -/

/-- A rule is declared in the arena that is held, if that one is alive. -/
theorem step_declare (hheld : s.held = some id) (ha : s.store.arena? id = some a) (name : String) :
    s.step (.declare name) =
      ({ s with
        store := s.store.modify id fun a => { a with slots := a.slots ++ [none] }
        handles := Table.insert s.handles name ⟨id, a.declared⟩ }, .declared) := by
  have hdeclare : s.held.bind s.store.declare? = some
      (s.store.modify id fun a => { a with slots := a.slots ++ [none] }, ⟨id, a.declared⟩) := by
    rw [hheld, Option.bind_some, Store.declare?_eq_some_iff]
    exact ⟨a, ha, rfl, rfl⟩
  simp only [step, hdeclare]

theorem step_declare_of_none (hheld : s.held = none) (name : String) :
    s.step (.declare name) = (s, .noArena) := by
  simp only [step, hheld, Option.bind_none]

/-! ## Shares -/

/-- Where the shares of a session are: the arena that it holds, those that it keeps, and its rooted
parsers. -/
def holdings (s : Session) : Option Nat × Table Nat × Table Handle := (s.held, s.kept, s.rooted)

theorem holdings_releaseHeld (s : Session) : s.releaseHeld.holdings = (none, s.kept, s.rooted) := by
  unfold releaseHeld
  split
  · rfl
  · next hheld => rw [holdings, hheld]

theorem holdings_releaseKept (s : Session) (name : String) :
    (s.releaseKept name).holdings = (s.held, Table.erase s.kept name, s.rooted) := by
  unfold releaseKept
  split
  · rfl
  · next hname => rw [holdings, Table.erase_of_get? hname]

theorem holdings_releaseRooted (s : Session) (name : String) :
    (s.releaseRooted name).holdings = (s.held, s.kept, Table.erase s.rooted name) := by
  unfold releaseRooted
  split
  · rfl
  · next hname => rw [holdings, Table.erase_of_get? hname]

theorem holdings_hold (s : Session) (id : Nat) :
    (s.hold id).holdings = (some id, s.kept, s.rooted) :=
  congrArg (fun shares => (some id, shares.2)) (holdings_releaseHeld _)

theorem holdings_keep (s : Session) (name : String) (id : Nat) :
    (s.keep name id).holdings = (s.held, Table.insert s.kept name id, s.rooted) := by
  have h := holdings_releaseKept { s with store := s.store.retain id } name
  rw [← Table.insert_erase]
  exact congrArg (fun shares => (shares.1, Table.insert shares.2.1 name id, shares.2.2)) h

theorem holdings_root (s : Session) (name : String) (h : Handle) :
    (s.root name h).holdings = (s.held, s.kept, Table.insert s.rooted name h) := by
  have hrelease := holdings_releaseRooted { s with store := s.store.retain h.arena } name
  rw [← Table.insert_erase]
  exact congrArg (fun shares => (shares.1, shares.2.1, Table.insert shares.2.2 name h)) hrelease

/-! ## Handles -/

/-- Handles are no shares. -/
theorem handles_releaseHeld (s : Session) : s.releaseHeld.handles = s.handles := by
  unfold releaseHeld
  split <;> rfl

theorem handles_releaseKept (s : Session) (name : String) :
    (s.releaseKept name).handles = s.handles := by
  unfold releaseKept
  split <;> rfl

theorem handles_releaseRooted (s : Session) (name : String) :
    (s.releaseRooted name).handles = s.handles := by
  unfold releaseRooted
  split <;> rfl

theorem handles_root (s : Session) (name : String) (h : Handle) :
    (s.root name h).handles = s.handles :=
  handles_releaseRooted { s with store := s.store.retain h.arena } name

/-! ## Sharing -/

/-- What the steps do to the shares of a session. -/
structure Sharing (s : Session) : Prop where
  /-- A new arena, without rules, is held in place of the one that was. -/
  create : (s.step .create).1.holdings = (some s.store.arenas.length, s.kept, s.rooted) ∧
    (s.step .create).1.store.arena? s.store.arenas.length = some ⟨1, []⟩
  /-- The arena of a rooted parser is held in place of the one that was. -/
  takeArena (rooted : String) : (s.step (.takeArena rooted)).1.holdings =
    (((Table.get? s.rooted rooted).map Handle.arena).or s.held, s.kept, s.rooted)
  /-- An arena that is kept is held in place of the one that was. -/
  takeKept (name : String) : (s.step (.takeKept name)).1.holdings =
    ((Table.get? s.kept name).or s.held, s.kept, s.rooted)
  /-- Nothing is held any more. -/
  dropArena : (s.step .dropArena).1.holdings = (none, s.kept, s.rooted)
  /-- The arena that is held is kept, too. -/
  keepArena (name : String) : (s.step (.keepArena name)).1.holdings =
    (s.held, (s.held.map (Table.insert s.kept name)).getD s.kept, s.rooted)
  /-- Nothing is kept under the name any more. -/
  dropKept (name : String) : (s.step (.dropKept name)).1.holdings =
    (s.held, Table.erase s.kept name, s.rooted)
  /-- A rule that is alive and has no body can be defined, and is rooted. -/
  define {name : String} {h : Handle} (grammar : Grammar) : Table.get? s.handles name = some h →
    (s.store.arena? h.arena).isSome → s.store.body? h = none →
      (s.step (.define name (.ok grammar))).2 = .defined ∧
        (s.step (.define name (.ok grammar))).1.holdings =
          (s.held, s.kept, Table.insert s.rooted name h)
  /-- A definition that is refused changes nothing. -/
  refused (name : String) (body : Except Pattern.Refusal Grammar) :
    (s.step (.define name body)).2 ≠ .defined → (s.step (.define name body)).1 = s
  /-- A rooted parser is rooted under one more name. -/
  cloneRooted (rooted name : String) : (s.step (.cloneRooted rooted name)).1.holdings =
    (s.held, s.kept,
      ((Table.get? s.rooted rooted).map (Table.insert s.rooted name)).getD s.rooted)
  /-- There is no rooted parser of the name any more. -/
  dropRooted (name : String) : (s.step (.dropRooted name)).1.holdings =
    (s.held, s.kept, Table.erase s.rooted name)
  /-- All other steps leave the shares where they are. -/
  others (first : Step) : first.leavesShares = true → (s.step first).1.holdings = s.holdings

theorem sharing (s : Session) : s.Sharing where
  create := by
    have hlength : s.releaseHeld.store.arenas.length = s.store.arenas.length := by
      unfold releaseHeld
      split
      · exact Store.length_arenas_modify _
      · rfl
    refine ⟨?_, ?_⟩
    · rw [← hlength]
      exact congrArg (fun shares => (some s.releaseHeld.store.arenas.length, shares.2))
        (holdings_releaseHeld s)
    · show s.releaseHeld.store.create.1.arena? _ = _
      rw [Store.arena?_create, if_pos hlength.symm]
  takeArena rooted := by
    rw [step, withRooted]
    cases Table.get? s.rooted rooted with
    | none => rfl
    | some h => exact holdings_hold s h.arena
  takeKept name := by
    rw [step]
    cases Table.get? s.kept name with
    | none => rfl
    | some id => exact holdings_hold s id
  dropArena := holdings_releaseHeld s
  keepArena name := by
    rw [step]
    cases hheld : s.held with
    | none => rw [holdings, hheld]; rfl
    | some id => rw [holdings_keep, hheld]; rfl
  dropKept name := holdings_releaseKept s name
  define {name h} grammar hh halive hbody := by
    obtain ⟨a, ha⟩ := Option.isSome_iff_exists.mp halive
    simp only [step, hh, Session.define, Store.define_eq, ha, hbody]
    exact ⟨trivial, holdings_root _ name h⟩
  refused name body := by
    intro hrefused
    cases hh : Table.get? s.handles name with
    | none => simp only [step, hh]
    | some h =>
      cases body with
      | error refusal => simp only [step, hh]
      | ok grammar =>
        simp only [step, hh, Session.define] at hrefused ⊢
        split at hrefused
        · exact absurd rfl hrefused
        · rfl
  cloneRooted rooted name := by
    rw [step, withRooted]
    cases Table.get? s.rooted rooted with
    | none => rfl
    | some h => exact holdings_root s name h
  dropRooted name := holdings_releaseRooted s name
  others first hfirst := by
    cases first with
    | declare name =>
      rw [step]
      split <;> rfl
    | parse name input =>
      rw [step]
      split <;> rfl
    | parseRooted name input =>
      rw [step, withRooted]
      split <;> rfl
    | cloneHandle handle name =>
      rw [step]
      split <;> rfl
    | handle rooted name =>
      rw [step, withRooted]
      split <;> rfl
    | look => rfl
    | create | define | cloneRooted | takeArena | dropArena | keepArena | takeKept | dropKept
      | dropRooted => cases hfirst

end Session
end Descent
