import Descent.Proofs.Arena.Group
import Descent.Proofs.Arena.WriteOnce

/-!
# Groups of rules in a session

A session that holds an arena can put a group of rules there: it declares the rules, in some order,
and then defines those that have bodies, in some order. Whatever the orders are, the arena holds the
group in the end (`Session.holds_arrange`). The slots of the arena tell what each step does to it.
-/

namespace Descent

namespace Declaration

/-- The name and the body of a rule that is defined. -/
def definition? (d : Declaration) : Option (String × Grammar) :=
  d.body?.map fun body => (d.name, body)

theorem definition?_eq_some_iff {d : Declaration} {name : String} {body : Grammar} :
    d.definition? = some (name, body) ↔ d.name = name ∧ d.body? = some body := by
  cases hd : d.body? <;> simp [definition?, hd]

variable {family : List Declaration} {definitions : Table Grammar} {d : Declaration}

theorem map_fst_definitions_sublist (family : List Declaration) :
    ((family.filterMap definition?).map Prod.fst).Sublist (family.map Declaration.name) := by
  induction family with
  | nil => exact .slnil
  | cons d others ih =>
    cases hd : d.body? with
    | none =>
      rw [List.filterMap_cons_none (by rw [definition?, hd]; rfl)]
      exact ih.cons d.name
    | some body =>
      rw [List.filterMap_cons_some (definition?_eq_some_iff.mpr ⟨rfl, hd⟩)]
      exact ih.cons_cons d.name

theorem unique_definitions (hdistinct : (family.map Declaration.name).Nodup)
    (hdefinitions : definitions.Perm (family.filterMap definition?)) : definitions.Unique :=
  (hdefinitions.map Prod.fst).nodup_iff.mpr (hdistinct.sublist (map_fst_definitions_sublist family))

/-- Among definitions in any order, a rule has its own body. -/
theorem get?_definitions (hdistinct : (family.map Declaration.name).Nodup)
    (hdefinitions : definitions.Perm (family.filterMap definition?)) (hd : d ∈ family) :
    Table.get? definitions d.name = d.body? := by
  ext body
  rw [(unique_definitions hdistinct hdefinitions).get?_eq_some_iff, hdefinitions.mem_iff,
    List.mem_filterMap]
  constructor
  · rintro ⟨e, he, heq⟩
    obtain ⟨hname, hbody⟩ := definition?_eq_some_iff.mp heq
    obtain rfl : e = d := List.inj_on_of_nodup_map hdistinct he hd hname
    exact hbody
  · exact fun hbody => ⟨d, hd, definition?_eq_some_iff.mpr ⟨rfl, hbody⟩⟩

end Declaration

namespace Session

variable {s : Session} {id slot : Nat} {slots : List (Option RuleBody)} {name : String}
  {names : List String} {definitions : Table Grammar} {family : List Declaration}

/-- The steps that declare rules and then define some of them. -/
def arrange (names : List String) (definitions : Table Grammar) : List Step :=
  names.map Step.declare ++ definitions.map fun d => Step.define d.1 (.ok d.2)

/-- A session holds an arena with the given slots. -/
structure HoldsArena (s : Session) (id : Nat) (slots : List (Option RuleBody)) : Prop where
  owned : s.Owned [] fun _ => False
  held : s.held = some id
  arena : ∃ a, s.store.arena? id = some a ∧ a.slots = slots

namespace HoldsArena

theorem body?_eq (hs : s.HoldsArena id slots) (slot : Nat) :
    s.store.body? ⟨id, slot⟩ = slots[slot]?.join := by
  obtain ⟨a, ha, rfl⟩ := hs.arena
  rw [Store.body?_eq, ha, Option.bind_some]

theorem create (hs : s.Owned [] fun _ => False) :
    ∃ id, (s.step .create).1.HoldsArena id [] := by
  refine ⟨s.releaseHeld.store.arenas.length, hs.step .create, rfl, ⟨1, []⟩, ?_, rfl⟩
  show s.releaseHeld.store.create.1.arena? _ = _
  rw [Store.arena?_create, if_pos rfl]

theorem start : Session.start.HoldsArena 0 [] where
  owned := owned_start
  held := rfl
  arena := ⟨⟨1, []⟩, rfl, rfl⟩

/-! ## Steps -/

theorem declare (hs : s.HoldsArena id slots) (name : String) :
    (s.step (.declare name)).1.HoldsArena id (slots ++ [none]) ∧
      (s.step (.declare name)).1.handles = Table.insert s.handles name ⟨id, slots.length⟩ := by
  obtain ⟨a, ha, rfl⟩ := hs.arena
  have howned := hs.owned.step (.declare name)
  rw [step_declare hs.held ha] at howned ⊢
  refine ⟨⟨howned, hs.held, { a with slots := a.slots ++ [none] }, ?_, rfl⟩, rfl⟩
  rw [Store.arena?_declared, ha, Option.map_some, if_pos rfl]

theorem root_eq (s : Session) (name : String) (h : Handle) :
    (s.root name h).held = s.held ∧ (s.root name h).handles = s.handles ∧
      Table.get? (s.root name h).rooted name = some h := by
  refine ⟨congrArg Prod.fst (holdings_root s name h), handles_root s name h, ?_⟩
  have hrooted : (s.root name h).rooted = Table.insert s.rooted name h :=
    congrArg (·.2.2) (holdings_root s name h)
  rw [hrooted, Table.get?_insert_self]

theorem define (hs : s.HoldsArena id slots) (hname : Table.get? s.handles name = some ⟨id, slot⟩)
    (hslot : slots[slot]? = some none) (body : Grammar) :
    (s.step (.define name (.ok body))).1.HoldsArena id
        (slots.set slot (some ⟨body, s.handles⟩)) ∧
      (s.step (.define name (.ok body))).1.handles = s.handles ∧
        Table.get? (s.step (.define name (.ok body))).1.rooted name = some ⟨id, slot⟩ := by
  have hbody : s.store.body? ⟨id, slot⟩ = none := by
    rw [hs.body?_eq, hslot]
    rfl
  obtain ⟨a, ha, rfl⟩ := hs.arena
  have howned := hs.owned.step (.define name (.ok body))
  simp only [step, hname, Session.define, Store.define_eq, ha, hbody] at howned ⊢
  obtain ⟨hheld, hkept⟩ := root_eq { s with
    store := s.store.modify id fun a =>
      { a with slots := a.slots.set slot (some ⟨body, s.handles⟩) } } name ⟨id, slot⟩
  -- To root the rule may take an arena away, but not the one that is held.
  obtain ⟨b, hb⟩ := Option.isSome_iff_exists.mp
    (howned.isSome_arena?_iff.mpr (Or.inl (hheld.trans hs.held)))
  obtain ⟨c, hc, hslots⟩ := (unchanged_root s _ name ⟨id, slot⟩).slots_eq hb
  rw [Store.arena?_defined (h := ⟨id, slot⟩), ha, Option.map_some, if_pos rfl] at hc
  cases hc
  exact ⟨⟨howned, hheld.trans hs.held, b, hb, hslots.symm⟩, hkept⟩

/-! ## Runs -/

/-- Rules that are declared one after the other have one slot after the other. -/
theorem declares (hs : s.HoldsArena id slots) (hnames : names.Nodup) :
    (s.after (names.map .declare)).HoldsArena id (slots ++ List.replicate names.length none) ∧
      ∀ name, Table.get? (s.after (names.map .declare)).handles name =
        if name ∈ names then some ⟨id, slots.length + names.idxOf name⟩
        else Table.get? s.handles name := by
  induction names generalizing s slots with
  | nil => simpa [after] using hs
  | cons first rest ih =>
    obtain ⟨hfirst, hrest⟩ := List.nodup_cons.mp hnames
    obtain ⟨hstep, hhandles⟩ := hs.declare first
    obtain ⟨hafter, hget⟩ := ih hstep hrest
    refine ⟨?_, fun name => ?_⟩
    · rw [List.append_assoc] at hafter
      exact hafter
    · refine (hget name).trans ?_
      rw [hhandles]
      by_cases hname : name = first
      · subst hname
        simp [hfirst]
      · have hlength : (slots ++ [none]).length + rest.idxOf name =
            slots.length + (rest.idxOf name + 1) := by
          rw [List.length_append, List.length_singleton]
          omega
        rw [hlength, Table.get?_insert_of_ne _ _ hname,
          List.idxOf_cons_ne _ (Ne.symm hname)]
        simp [hname]

/-- Rules that are defined one after the other, and that had no bodies, have the bodies that they
are given. -/
theorem defines {slot : String → Nat} (hs : s.HoldsArena id slots)
    (hunique : definitions.Unique) (hmem : ∀ d ∈ definitions, d.1 ∈ names)
    (hhandles : ∀ name ∈ names, Table.get? s.handles name = some ⟨id, slot name⟩)
    (hslot : ∀ a ∈ names, ∀ b ∈ names, slot a = slot b → a = b)
    (hnone : ∀ d ∈ definitions, slots[slot d.1]? = some none) :
    let t := s.after (definitions.map fun d => .define d.1 (.ok d.2))
    ∃ bodies, t.HoldsArena id bodies ∧ t.handles = s.handles ∧
      ∀ name ∈ names, bodies[slot name]?.join =
        ((Table.get? definitions name).map fun body => ⟨body, s.handles⟩).or
          slots[slot name]?.join := by
  induction definitions generalizing s slots with
  | nil => exact ⟨slots, hs, rfl, fun _ _ => rfl⟩
  | cons first rest ih =>
    obtain ⟨name, body⟩ := first
    obtain ⟨hname, hrest⟩ := List.nodup_cons.mp hunique
    obtain ⟨hmem₁, hmem⟩ := List.forall_mem_cons.mp hmem
    obtain ⟨hnone₁, hnone⟩ := List.forall_mem_cons.mp hnone
    obtain ⟨hstep, heq, -⟩ := hs.define (hhandles name hmem₁) hnone₁ body
    have hne : ∀ d ∈ rest, slot name ≠ slot d.1 := fun d hd h =>
      hname (hslot _ hmem₁ _ (hmem d hd) h ▸ List.mem_map_of_mem hd)
    obtain ⟨bodies, hafter, hsame, hbodies⟩ := ih hstep hrest hmem (heq ▸ hhandles) fun d hd => by
      rw [List.getElem?_set_ne (hne d hd)]
      exact hnone d hd
    refine ⟨bodies, hafter, hsame.trans heq, fun other hother => ?_⟩
    rw [hbodies other hother, heq]
    by_cases h : other = name
    · subst h
      have hlt : slot other < slots.length := (List.getElem?_eq_some_iff.mp hnone₁).1
      have hrest : Table.get? rest other = none := Table.get?_eq_none hname
      have hfirst : Table.get? ((other, body) :: rest) other = some body := by simp [Table.get?]
      rw [hrest, hfirst, List.getElem?_set_self hlt]
      rfl
    · have hslot' : slot name ≠ slot other := fun heq => h (hslot _ hmem₁ _ hother heq).symm
      have hlookup : Table.get? ((name, body) :: rest) other = Table.get? rest other := by
        have hne' : (other == name) = false := beq_eq_false_iff_ne.mpr h
        rw [Table.get?, List.lookup_cons, hne']
        rfl
      rw [List.getElem?_set_ne hslot', hlookup]

end HoldsArena

/-! ## Groups -/

/-- In whatever orders the rules of a group are declared and defined, the arena holds the group in
the end. Other names of handles stay as they were. -/
theorem holds_arrange (hs : s.HoldsArena id slots)
    (hdistinct : (family.map Declaration.name).Nodup)
    (hnames : names.Perm (family.map Declaration.name))
    (hdefinitions : definitions.Perm (family.filterMap Declaration.definition?)) :
    let t := s.after (arrange names definitions)
    t.store.Holds t.handles family ∧
      ∀ name ∉ family.map Declaration.name,
        Table.get? t.handles name = Table.get? s.handles name := by
  intro t
  have hunique := Declaration.unique_definitions hdistinct hdefinitions
  have hnodup : names.Nodup := hnames.nodup_iff.mpr hdistinct
  obtain ⟨hdeclared, hget⟩ := hs.declares hnodup
  have hmem : ∀ d ∈ definitions, d.1 ∈ names := fun d hd => by
    have hfst : d.1 ∈ (family.filterMap Declaration.definition?).map Prod.fst :=
      (hdefinitions.map Prod.fst).mem_iff.mp (List.mem_map_of_mem hd)
    exact hnames.mem_iff.mpr ((Declaration.map_fst_definitions_sublist family).subset hfst)
  have hslot : ∀ name ∈ names,
      (slots ++ List.replicate names.length none)[slots.length + names.idxOf name]? =
        some none := fun name hname => by
    rw [List.getElem?_append_right (Nat.le_add_right ..), Nat.add_sub_cancel_left,
      List.getElem?_replicate_of_lt (List.idxOf_lt_length_iff.mpr hname)]
  obtain ⟨bodies, ht, hhandles, hbodies⟩ := hdeclared.defines hunique hmem
    (fun name hname => by rw [hget, if_pos hname])
    (fun a ha b _ heq => (List.idxOf_inj ha).mp (Nat.add_left_cancel heq))
    fun d hd => hslot d.1 (hmem d hd)
  rw [← after_append] at ht hhandles
  refine ⟨fun d hd => ?_, fun name hname => ?_⟩
  · have hname : d.name ∈ names := hnames.mem_iff.mpr (List.mem_map_of_mem hd)
    refine ⟨⟨id, slots.length + names.idxOf d.name⟩, ?_, ?_⟩
    · exact (congrArg (Table.get? · d.name) hhandles).trans (by rw [hget, if_pos hname])
    · refine (ht.body?_eq _).trans ?_
      rw [hbodies d.name hname, hslot d.name hname, ← hhandles,
        Declaration.get?_definitions hdistinct hdefinitions hd]
      exact Option.or_none
  · refine (congrArg (Table.get? · name) hhandles).trans ?_
    rw [hget, if_neg fun h => hname (hnames.mem_iff.mp h)]

end Session
end Descent
