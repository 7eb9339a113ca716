import Descent.Arena.Session

/-!
# What operations do to the arenas of a store

Each operation on a store has an equation for the arenas that are alive after it. Owners come and go
without a change to any rule: an arena that is alive after a share was taken or given up has the
slots that it had (`Unchanged`). Only a declaration and a definition change slots, and only those of
one arena.
-/

namespace Descent.Store

variable {s : Store} {id other : Nat} {a : Arena}

/-! ## Arenas that are alive -/

theorem arena?_eq_some_iff : s.arena? id = some a ↔ s.arenas[id]? = some a ∧ a.isAlive = true := by
  unfold arena?
  cases s.arenas[id]? with
  | none => simp
  | some b =>
    simp only [Option.ite_none_right_eq_some, Option.some.injEq]
    constructor
    · rintro ⟨hb, rfl⟩
      exact ⟨rfl, hb⟩
    · rintro ⟨rfl, hb⟩
      exact ⟨hb, rfl⟩

theorem lt_length_of_arena? (h : s.arena? id = some a) : id < s.arenas.length := by
  obtain ⟨hid, -⟩ := List.getElem?_eq_some_iff.mp (arena?_eq_some_iff.mp h).1
  exact hid

theorem getElem?_arenas_modify (change : Arena → Arena) :
    (s.modify id change).arenas[other]? =
      (s.arenas[other]?).map fun a => if id = other then change a else a := by
  rw [modify, List.getElem?_modify]
  cases s.arenas[other]? <;> rfl

@[simp] theorem length_arenas_modify (change : Arena → Arena) :
    (s.modify id change).arenas.length = s.arenas.length := by
  simp [modify]

/-- A change that neither ends the life of an arena nor gives it one. -/
theorem arena?_modify {change : Arena → Arena} (h : ∀ a, (change a).isAlive = a.isAlive) :
    (s.modify id change).arena? other =
      (s.arena? other).map fun a => if id = other then change a else a := by
  unfold arena?
  rw [getElem?_arenas_modify]
  cases s.arenas[other]? with
  | none => rfl
  | some b =>
    by_cases hid : id = other <;> by_cases hb : b.isAlive = true <;> simp [hid, hb, h]

/-! ## Owners -/

/-- The arenas that are alive in a store were so in another, with the same slots. -/
structure Unchanged (s t : Store) : Prop where
  length_eq : t.arenas.length = s.arenas.length
  slots_eq : ∀ {id b}, t.arena? id = some b → ∃ a, s.arena? id = some a ∧ a.slots = b.slots

namespace Unchanged

theorem refl (s : Store) : Unchanged s s := ⟨rfl, fun h => ⟨_, h, rfl⟩⟩

theorem trans {s t u : Store} (hst : Unchanged s t) (htu : Unchanged t u) : Unchanged s u := by
  refine ⟨htu.length_eq.trans hst.length_eq, fun h => ?_⟩
  obtain ⟨b, hb, hbc⟩ := htu.slots_eq h
  obtain ⟨a, ha, hab⟩ := hst.slots_eq hb
  exact ⟨a, ha, hab.trans hbc⟩

end Unchanged

theorem arena?_retain :
    (s.retain id).arena? other =
      (s.arena? other).map fun a =>
        if id = other then { a with owners := a.owners + 1 } else a := by
  rw [retain, arena?_modify]
  · cases h : s.arena? other with
    | none => rfl
    | some a => simp [(arena?_eq_some_iff.mp h).2]
  · intro a
    by_cases ha : a.isAlive = true
    · rw [if_pos ha, ha]
      rfl
    · rw [if_neg ha]

theorem unchanged_retain (s : Store) (id : Nat) : Unchanged s (s.retain id) := by
  refine ⟨length_arenas_modify _, fun {other b} h => ?_⟩
  rw [arena?_retain, Option.map_eq_some_iff] at h
  obtain ⟨a, ha, rfl⟩ := h
  refine ⟨a, ha, ?_⟩
  split <;> rfl

/-- An arena that is alive after one of its owners gave it up had another. -/
theorem arena?_release :
    (s.release id).arena? other =
      if id = other then
        ((s.arena? other).filter (1 < ·.owners)).map fun a => { a with owners := a.owners - 1 }
      else s.arena? other := by
  unfold arena?
  rw [release, getElem?_arenas_modify]
  cases s.arenas[other]? with
  | none => simp
  | some b =>
    by_cases hid : id = other
    · simp only [hid, Option.map_some, if_true, Arena.isAlive, bne_iff_ne]
      by_cases hb : b.owners ≤ 1
      · by_cases hz : b.owners = 0 <;> simp [hz, hb, Option.filter]
      · have hone : 1 < b.owners := Nat.lt_of_not_le hb
        have hpos : b.owners ≠ 0 := by omega
        have hpred : b.owners - 1 ≠ 0 := by omega
        simp [hb, hone, hpos, hpred, Option.filter]
    · simp [hid]

theorem unchanged_release (s : Store) (id : Nat) : Unchanged s (s.release id) := by
  refine ⟨length_arenas_modify _, fun {other b} h => ?_⟩
  rw [arena?_release] at h
  split at h
  · rw [Option.map_eq_some_iff] at h
    obtain ⟨a, ha, rfl⟩ := h
    exact ⟨a, (Option.filter_eq_some_iff.mp ha).1, rfl⟩
  · exact ⟨b, h, rfl⟩

/-! ## New arenas -/

theorem arena?_create :
    s.create.1.arena? other =
      if other = s.arenas.length then some ⟨1, []⟩ else s.arena? other := by
  unfold arena? create
  rcases Nat.lt_trichotomy other s.arenas.length with h | h | h
  · simp [List.getElem?_append_left h, Nat.ne_of_lt h]
  · simp [h, Arena.isAlive]
  · have hfresh : (s.arenas ++ [⟨1, []⟩])[other]? = none := by
      rw [List.getElem?_eq_none_iff, List.length_append, List.length_singleton]
      exact h
    simp [hfresh, List.getElem?_eq_none (Nat.le_of_lt h), Nat.ne_of_gt h]

/-! ## Rules -/

theorem declare?_eq_some_iff {t : Store} {h : Handle} :
    s.declare? id = some (t, h) ↔
      ∃ a, s.arena? id = some a ∧ h = ⟨id, a.declared⟩ ∧
        t = s.modify id fun a => { a with slots := a.slots ++ [none] } := by
  rw [declare?, Option.map_eq_some_iff]
  simp only [Prod.mk.injEq, Arena.declared, eq_comm, and_comm]

theorem arena?_declared :
    (s.modify id fun a => { a with slots := a.slots ++ [none] }).arena? other =
      (s.arena? other).map fun a =>
        if id = other then { a with slots := a.slots ++ [none] } else a :=
  arena?_modify fun _ => rfl

theorem body?_eq (h : Handle) :
    s.body? h = (s.arena? h.arena).bind fun a => a.slots[h.slot]?.join := rfl

/-- A definition is refused where the arena has died, or where the rule has a body. -/
theorem define_eq (s : Store) (h : Handle) (body : RuleBody) :
    s.define h body =
      match s.arena? h.arena with
      | none => .error .arenaDropped
      | some _ =>
        match s.body? h with
        | some _ => .error .alreadyDefined
        | none =>
          .ok (s.modify h.arena fun a => { a with slots := a.slots.set h.slot (some body) }) := by
  rw [define, body?_eq]
  cases s.arena? h.arena <;> rfl

theorem arena?_defined {h : Handle} {body : RuleBody} :
    (s.modify h.arena fun a => { a with slots := a.slots.set h.slot (some body) }).arena? other =
      (s.arena? other).map fun a =>
        if h.arena = other then { a with slots := a.slots.set h.slot (some body) } else a :=
  arena?_modify fun _ => rfl

end Descent.Store
