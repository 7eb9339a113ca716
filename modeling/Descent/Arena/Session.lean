import Descent.Arena.Basic

/-!
# Sessions on arenas

A session works on arenas step by step. It may hold an arena itself, in which it declares rules, and
keep any number of others under names, so that it can come back to them. It has a table of handles,
which own nothing, and a table of *rooted* parsers: each is the handle of a defined rule together
with a share in the arena of that rule. A step that cannot be taken changes nothing.
-/

namespace Descent

/-- A table from names to values. -/
abbrev Table (α : Type) : Type := List (String × α)

namespace Table

variable {α : Type}

def erase (t : Table α) (name : String) : Table α := t.filter fun entry => entry.1 != name

/-- Give a name to a value. A value that had the name before is forgotten. -/
def insert (t : Table α) (name : String) (value : α) : Table α :=
  (name, value) :: Table.erase t name

def get? (t : Table α) (name : String) : Option α := List.lookup name t

@[simp] theorem get?_insert_self (t : Table α) (name : String) (value : α) :
    get? (insert t name value) name = some value := by
  simp [insert, get?]

@[simp] theorem get?_erase_self (t : Table α) (name : String) :
    get? (erase t name) name = none := by
  simp only [get?, List.lookup_eq_none_iff, erase, List.mem_filter]
  intro entry h
  have hne : entry.1 ≠ name := by simpa using h.2
  exact bne_iff_ne.2 hne.symm

/-- Removing a name leaves the others alone. -/
theorem get?_erase_of_ne (t : Table α) {name other : String} (h : other ≠ name) :
    get? (erase t name) other = get? t other := by
  induction t with
  | nil => rfl
  | cons entry rest ih =>
    obtain ⟨key, value⟩ := entry
    simp only [erase, get?] at ih
    by_cases hk : key = name
    · subst hk
      have ho : (other == key) = false := by simpa using h
      simp [erase, get?, List.lookup_cons, ho, ih]
    · simp [erase, get?, hk, List.lookup_cons, ih]

/-- Giving a name to a value leaves the other names alone. -/
theorem get?_insert_of_ne (t : Table α) {name other : String} (value : α) (h : other ≠ name) :
    get? (insert t name value) other = get? t other := by
  have ho : (other == name) = false := by simpa using h
  have he := get?_erase_of_ne t h
  simp only [get?] at he
  simp [insert, get?, List.lookup_cons, ho, he]

end Table

structure Session where
  store : Store := {}
  held : Option Nat := none
  kept : Table Nat := []
  handles : Table Handle := []
  rooted : Table Handle := []
deriving Inhabited

inductive Step where
  | create
  /-- Declare a rule in the arena that is held, and give its handle a name. -/
  | declare (name : String)
  /-- Define the rule of a handle, and root it under the name of the handle. Names in the body refer
  to the handles of the session. There is no body if one of its patterns was refused. -/
  | define (name : String) (body : Except Pattern.Refusal Grammar)
  | parse (name : String) (input : Text)
  | parseRooted (name : String) (input : Text)
  /-- Give one more name to a handle. -/
  | cloneHandle (handle name : String)
  /-- Name the handle of a rooted parser. -/
  | handle (rooted name : String)
  /-- Root a rooted parser under one more name. -/
  | cloneRooted (rooted name : String)
  /-- Hold the arena of a rooted parser. -/
  | takeArena (rooted : String)
  | dropArena
  /-- Keep the arena that is held under a name, too. -/
  | keepArena (name : String)
  /-- Hold the arena that is kept under a name. -/
  | takeKept (name : String)
  | dropKept (name : String)
  | dropRooted (name : String)
  | look
deriving Inhabited

inductive Answer where
  | created
  | declared
  | noArena
  | defined
  | noHandle
  | invalidBody (refusal : Pattern.Refusal)
  | defineError (error : DefineError)
  | parsed (outcome : Outcome Value)
  | noRooted
  | handled
  | cloned
  | taken
  | dropped
  | looked
deriving Inhabited

namespace Session

/-- The session that holds a fresh arena and nothing else. -/
def start : Session :=
  let (store, id) := Store.create {}
  { store, held := some id }

/-! ## Shares -/

/-- Give up the arena that is held. -/
def releaseHeld (s : Session) : Session :=
  match s.held with
  | some id => { s with store := s.store.release id, held := none }
  | none => s

/-- Give up a rooted parser, if there is one with the name. -/
def releaseRooted (s : Session) (name : String) : Session :=
  match Table.get? s.rooted name with
  | some h => { s with store := s.store.release h.arena, rooted := Table.erase s.rooted name }
  | none => s

/-- Give up an arena that is kept, if there is one with the name. -/
def releaseKept (s : Session) (name : String) : Session :=
  match Table.get? s.kept name with
  | some id => { s with store := s.store.release id, kept := Table.erase s.kept name }
  | none => s

/-- Hold an arena, in place of the one that was held. -/
def hold (s : Session) (id : Nat) : Session :=
  let s := releaseHeld { s with store := s.store.retain id }
  { s with held := some id }

/-- Keep an arena under a name, in place of the one that had the name. -/
def keep (s : Session) (name : String) (id : Nat) : Session :=
  let s := releaseKept { s with store := s.store.retain id } name
  { s with kept := Table.insert s.kept name id }

/-- Root a rule under a name, in place of the one that had the name. -/
def root (s : Session) (name : String) (h : Handle) : Session :=
  let s := releaseRooted { s with store := s.store.retain h.arena } name
  { s with rooted := Table.insert s.rooted name h }

/-! ## Steps -/

/-- Do something with a rooted parser, if there is one with the name. -/
def withRooted (s : Session) (name : String) (go : Handle → Session × Answer) :
    Session × Answer :=
  match Table.get? s.rooted name with
  | some h => go h
  | none => (s, .noRooted)

def define (s : Session) (name : String) (h : Handle) (body : Grammar) : Session × Answer :=
  match s.store.define h ⟨body, s.handles⟩ with
  | .ok store => (root { s with store } name h, .defined)
  | .error error => (s, .defineError error)

def step (s : Session) : Step → Session × Answer
  | .create =>
    let s := s.releaseHeld
    let (store, id) := s.store.create
    ({ s with store, held := some id }, .created)
  | .declare name =>
    match s.held.bind s.store.declare? with
    | some (store, h) => ({ s with store, handles := Table.insert s.handles name h }, .declared)
    | none => (s, .noArena)
  | .define name body =>
    match Table.get? s.handles name, body with
    | none, _ => (s, .noHandle)
    | some _, .error refusal => (s, .invalidBody refusal)
    | some h, .ok body => s.define name h body
  | .parse name input =>
    match Table.get? s.handles name with
    | some h => (s, .parsed (s.store.parser h input).outcome)
    | none => (s, .noHandle)
  | .parseRooted name input =>
    s.withRooted name fun h => (s, .parsed (s.store.parser h input).outcome)
  | .cloneHandle handle name =>
    match Table.get? s.handles handle with
    | some h => ({ s with handles := Table.insert s.handles name h }, .handled)
    | none => (s, .noHandle)
  | .handle rooted name =>
    s.withRooted rooted fun h => ({ s with handles := Table.insert s.handles name h }, .handled)
  | .cloneRooted rooted name => s.withRooted rooted fun h => (s.root name h, .cloned)
  | .takeArena rooted => s.withRooted rooted fun h => (s.hold h.arena, .taken)
  | .dropArena => (s.releaseHeld, .dropped)
  | .keepArena name =>
    match s.held with
    | some id => (s.keep name id, .taken)
    | none => (s, .noArena)
  | .takeKept name =>
    match Table.get? s.kept name with
    | some id => (s.hold id, .taken)
    | none => (s, .noArena)
  | .dropKept name => (s.releaseKept name, .dropped)
  | .dropRooted name => (s.releaseRooted name, .dropped)
  | .look => (s, .looked)

/-- Take steps one after the other. Each answer comes with the state after its step. -/
def run (s : Session) : List Step → List (Answer × Session)
  | [] => []
  | first :: rest =>
    let (next, answer) := s.step first
    (answer, next) :: run next rest

/-! ## What a session shows -/

def heldArena? (s : Session) : Option Arena := s.held.bind s.store.arena?

/-- The form of a rooted parser in diagnostics. -/
def rootedForm (s : Session) (h : Handle) : String :=
  let arena := ((s.store.arena? h.arena).map Arena.form).getD ""
  "Rooted \x7b arena: " ++ arena ++ " \x7d"

end Session
end Descent
