import Descent.Grammar.Meaning

/-!
# Arenas of rules

An arena holds the bodies of rules. Rules are declared first, which gives a *handle*, and defined
later and only once, so that their bodies may refer to any rule by its handle. An arena lives as
long as it has an owner; handles do not own it. When it dies its rules are gone, and a handle that
is left over behaves like that of a rule without a definition.
-/

namespace Descent

/-- A reference to a rule: its arena and its slot there. -/
structure Handle where
  arena : Nat
  slot : Nat
deriving DecidableEq, Inhabited

/-- The body of a rule, and what the names in it refer to. -/
structure RuleBody where
  grammar : Grammar
  handles : List (String × Handle) := []
deriving Inhabited

/-- An arena: the number of its owners, and its slots in the order of their declaration. -/
structure Arena where
  owners : Nat
  slots : List (Option RuleBody) := []
deriving Inhabited

namespace Arena

def isAlive (a : Arena) : Bool := a.owners != 0

/-- The number of rules that have been declared. -/
def declared (a : Arena) : Nat := a.slots.length

def isEmpty (a : Arena) : Bool := a.slots.isEmpty

/-- The number of rules that have been defined. -/
def defined (a : Arena) : Nat := a.slots.countP Option.isSome

/-- The form of an arena in diagnostics. -/
def form (a : Arena) : String :=
  "Arena \x7b declared: " ++ toString a.declared ++ ", defined: " ++ toString a.defined ++ " \x7d"

end Arena

/-- All arenas that there have been, in the order of their creation. -/
structure Store where
  arenas : List Arena := []
deriving Inhabited

inductive DefineError where
  /-- The arena of the rule has no owner any more. -/
  | arenaDropped
  | alreadyDefined
deriving DecidableEq, Inhabited

/-- The wording of an error in a definition. -/
def DefineError.message : DefineError → String
  | arenaDropped => "recursive parser defined after its arena was dropped"
  | alreadyDefined => "recursive parser defined twice"

namespace Store

/-! ## Arenas and their owners -/

/-- The arena with a number, if it is alive. -/
def arena? (s : Store) (id : Nat) : Option Arena :=
  match s.arenas[id]? with
  | some a => if a.isAlive then some a else none
  | none => none

def modify (s : Store) (id : Nat) (change : Arena → Arena) : Store :=
  ⟨s.arenas.modify id change⟩

def create (s : Store) : Store × Nat := (⟨s.arenas ++ [⟨1, []⟩]⟩, s.arenas.length)

/-- Add an owner to an arena that is alive. -/
def retain (s : Store) (id : Nat) : Store :=
  s.modify id fun a => if a.isAlive then { a with owners := a.owners + 1 } else a

/-- Remove an owner. An arena without owners loses its rules. -/
def release (s : Store) (id : Nat) : Store :=
  s.modify id fun a => if a.owners ≤ 1 then ⟨0, []⟩ else { a with owners := a.owners - 1 }

/-! ## Rules -/

def declare? (s : Store) (id : Nat) : Option (Store × Handle) :=
  (s.arena? id).map fun a =>
    (s.modify id fun a => { a with slots := a.slots ++ [none] }, ⟨id, a.slots.length⟩)

/-- The body of a rule, if its arena is alive and it is defined. -/
def body? (s : Store) (h : Handle) : Option RuleBody :=
  (s.arena? h.arena).bind fun a => a.slots[h.slot]?.join

def define (s : Store) (h : Handle) (body : RuleBody) : Except DefineError Store :=
  match s.arena? h.arena with
  | none => .error .arenaDropped
  | some a =>
    match a.slots[h.slot]?.join with
    | some _ => .error .alreadyDefined
    | none =>
      .ok (s.modify h.arena fun a => { a with slots := a.slots.set h.slot (some body) })

/-! ## Parsers -/

/-- What the names in the body of a rule stand for, given the parsers of handles. -/
def bodyScope (handles : List (String × Handle)) (call : Handle → Parser Value) : Scope :=
  fun name =>
    match handles.lookup name with
    | some h => call h
    | none => Parser.undefinedRule

def rules (s : Store) : Rules Handle Value := fun h =>
  (s.body? h).map fun body call => body.grammar.parser (bodyScope body.handles call)

/-- The number of rules in all arenas. -/
def ruleCount (s : Store) : Nat := s.arenas.foldl (fun count a => count + a.declared) 0

def parser (s : Store) (h : Handle) : Parser Value := s.rules.parser s.ruleCount h

end Store
end Descent
