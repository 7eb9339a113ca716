import Descent.Proofs.Arena.Resolution
import Descent.Proofs.Arena.Run

/-!
# Arenas live as long as they have owners

The shares of a session are those in the arena that it holds, in the arenas that it keeps, and in
the arenas of its rooted parsers. The owners that an arena counts are the shares in it, after every
step (`Owned`). So an arena is alive just as long as the session has a share in it, however many
handles there are and whatever rules refer to; and there is no way back from its death, because a
share is only ever taken where there is one already (`ownership_after`).
-/

namespace Descent

/-! ## Owners and shares -/

namespace Store

variable {s : Store} {id other : Nat} {shares : List Nat} {dead : Nat → Prop}

/-- The number of owners of an arena. An arena that has died has none, and so has one that there has
not been. -/
def owners (s : Store) (id : Nat) : Nat := ((s.arenas[id]?).map Arena.owners).getD 0

theorem isSome_arena? : (s.arena? id).isSome ↔ s.owners id ≠ 0 := by
  unfold arena? owners
  cases s.arenas[id]? with
  | none => simp
  | some a => by_cases ha : a.owners = 0 <;> simp [Arena.isAlive, ha]

/-- A change of an arena, told by what it does to the number of owners. -/
theorem owners_modify {change : Arena → Arena} {f : Nat → Nat}
    (h : ∀ a, (change a).owners = f a.owners) (hzero : f 0 = 0) :
    (s.modify id change).owners other =
      if id = other then f (s.owners other) else s.owners other := by
  rw [owners, owners, getElem?_arenas_modify]
  cases s.arenas[other]? with
  | none => simp [hzero]
  | some a =>
    rw [Option.map_some, Option.map_some, Option.map_some, Option.getD_some, Option.getD_some]
    split
    · exact h a
    · rfl

theorem owners_retain :
    (s.retain id).owners other =
      if id = other ∧ s.owners other ≠ 0 then s.owners other + 1 else s.owners other := by
  have h (a : Arena) : (if a.isAlive then { a with owners := a.owners + 1 } else a).owners =
      if a.owners ≠ 0 then a.owners + 1 else a.owners := by
    by_cases ha : a.owners = 0 <;> simp [Arena.isAlive, ha]
  rw [retain, owners_modify (f := fun n => if n ≠ 0 then n + 1 else n) h rfl]
  by_cases hid : id = other <;> simp [hid]

theorem owners_release :
    (s.release id).owners other = if id = other then s.owners other - 1 else s.owners other := by
  refine owners_modify (f := (· - 1)) (fun a => ?_) rfl
  split
  · next hlast => exact (Nat.sub_eq_zero_of_le hlast).symm
  · rfl

theorem owners_create :
    s.create.1.owners other = if other = s.arenas.length then 1 else s.owners other := by
  rw [owners, owners, create]
  rcases Nat.lt_trichotomy other s.arenas.length with h | h | h
  · simp [List.getElem?_append_left h, Nat.ne_of_lt h]
  · simp [h]
  · have hfresh : (s.arenas ++ [⟨1, []⟩])[other]? = none := by
      rw [List.getElem?_eq_none_iff, List.length_append, List.length_singleton]
      exact h
    simp [hfresh, List.getElem?_eq_none (Nat.le_of_lt h), Nat.ne_of_gt h]

/-- The owners of the arenas of a store are the given shares in them. There is no share in an arena
that has died. -/
structure Owned (s : Store) (shares : List Nat) (dead : Nat → Prop) : Prop where
  owners_eq (id : Nat) : s.owners id = shares.count id
  dead {id : Nat} : dead id → id < s.arenas.length ∧ id ∉ shares

namespace Owned

theorem isSome_arena?_iff (h : s.Owned shares dead) : (s.arena? id).isSome ↔ id ∈ shares := by
  rw [isSome_arena?, h.owners_eq, ← List.count_pos_iff, Nat.pos_iff_ne_zero]

theorem perm (h : s.Owned shares dead) {shares' : List Nat} (hperm : shares.Perm shares') :
    s.Owned shares' dead :=
  ⟨fun id => (h.owners_eq id).trans (hperm.count_eq id),
    fun hid => ⟨(h.dead hid).1, fun hmem => (h.dead hid).2 (hperm.mem_iff.mpr hmem)⟩⟩

/-- A share may be taken where there is one. -/
theorem retain (h : s.Owned shares dead) (hid : id ∈ shares) :
    (s.retain id).Owned (id :: shares) dead where
  owners_eq other := by
    rw [owners_retain, List.count_cons, h.owners_eq]
    by_cases heq : id = other
    · subst heq
      have hpos : shares.count id ≠ 0 := (List.count_pos_iff.mpr hid).ne'
      simp [hpos]
    · simp [heq]
  dead {other} hother := by
    obtain ⟨hlt, hmem⟩ := h.dead hother
    rw [Store.retain, length_arenas_modify, List.mem_cons, not_or]
    exact ⟨hlt, fun heq => hmem (heq ▸ hid), hmem⟩

theorem release (h : s.Owned (id :: shares) dead) : (s.release id).Owned shares dead where
  owners_eq other := by
    rw [owners_release, h.owners_eq, List.count_cons]
    by_cases heq : id = other <;> simp [heq]
  dead hother := by
    obtain ⟨hlt, hmem⟩ := h.dead hother
    rw [Store.release, length_arenas_modify]
    exact ⟨hlt, fun hin => hmem (List.mem_cons_of_mem _ hin)⟩

theorem create (h : s.Owned shares dead) : s.create.1.Owned (s.create.2 :: shares) dead where
  owners_eq other := by
    rw [owners_create, List.count_cons, ← h.owners_eq]
    show _ = s.owners other + if s.arenas.length == other then 1 else 0
    by_cases heq : other = s.arenas.length
    · simp [heq, owners]
    · simp [heq, Ne.symm heq]
  dead {other} hother := by
    obtain ⟨hlt, hmem⟩ := h.dead hother
    rw [Store.create, List.length_append, List.mem_cons, not_or]
    exact ⟨Nat.lt_add_right _ hlt, Nat.ne_of_lt hlt, hmem⟩

/-- What happens to rules does not change the owners. -/
theorem modify (h : s.Owned shares dead) {change : Arena → Arena}
    (hchange : ∀ a, (change a).owners = a.owners) : (s.modify id change).Owned shares dead where
  owners_eq other := by
    rw [owners_modify (f := fun n => n) hchange rfl, ite_self]
    exact h.owners_eq other
  dead hother := by
    rw [length_arenas_modify]
    exact h.dead hother

end Owned

end Store

namespace Session

variable {s : Session} {spare : List Nat} {dead : Nat → Prop} {id : Nat} {name : String}

/-- The arenas in which a session has shares, one for each share. -/
def shares (s : Session) : List Nat :=
  s.held.toList ++ (s.kept.map Prod.snd ++ s.rooted.map fun entry => entry.2.arena)

/-- The owners of the arenas of a session are its shares and some spare ones, and none of them is in
an arena that has died. No name is given twice to a share. -/
structure Owned (s : Session) (spare : List Nat) (dead : Nat → Prop) : Prop where
  store : s.store.Owned (spare ++ s.shares) dead
  kept : s.kept.Unique
  rooted : s.rooted.Unique

theorem mem_shares : id ∈ s.shares ↔
    s.held = some id ∨ (∃ name, (name, id) ∈ s.kept) ∨
      ∃ name h, (name, h) ∈ s.rooted ∧ h.arena = id := by
  simp [shares]

theorem mem_shares_of_kept (hid : Table.get? s.kept name = some id) : id ∈ s.shares :=
  mem_shares.mpr (Or.inr (Or.inl ⟨name, Table.mem_of_get? hid⟩))

theorem mem_shares_of_rooted {g : Handle} (hg : Table.get? s.rooted name = some g) :
    g.arena ∈ s.shares :=
  mem_shares.mpr (Or.inr (Or.inr ⟨name, g, Table.mem_of_get? hg, rfl⟩))

namespace Owned

/-- The same shares in other places. -/
theorem of_shares {t : Session} {spare' : List Nat} (h : s.Owned spare dead)
    (hstore : t.store = s.store) (hkept : t.kept.Unique) (hrooted : t.rooted.Unique)
    (hcount : ∀ id, (spare' ++ t.shares).count id = (spare ++ s.shares).count id) :
    t.Owned spare' dead := by
  refine ⟨?_, hkept, hrooted⟩
  rw [hstore]
  exact h.store.perm (List.perm_iff_count.mpr fun id => (hcount id).symm)

/-! ### Giving up shares -/

theorem release {t : Session} (h : t.Owned (id :: spare) dead) :
    { t with store := t.store.release id }.Owned spare dead :=
  ⟨h.store.release, h.kept, h.rooted⟩

theorem releaseHeld (h : s.Owned spare dead) : s.releaseHeld.Owned spare dead := by
  unfold Session.releaseHeld
  split
  · next id hid =>
    refine (h.of_shares (t := { s with held := none }) rfl h.kept h.rooted fun other => ?_).release
    simp only [shares, hid, List.count_append, List.count_cons, Option.toList_none,
      Option.toList_some, List.count_nil]
    omega
  · exact h

theorem releaseKept (h : s.Owned spare dead) (name : String) :
    (s.releaseKept name).Owned spare dead := by
  unfold Session.releaseKept
  split
  · next id hid =>
    have hkept := fun other => ((h.kept.perm_erase hid).map Prod.snd).count_eq other
    refine (h.of_shares (t := { s with kept := Table.erase s.kept name }) rfl (h.kept.erase name)
      h.rooted fun other => ?_).release
    have := hkept other
    simp only [shares, List.map_cons, List.count_append, List.count_cons] at this ⊢
    omega
  · exact h

theorem releaseRooted (h : s.Owned spare dead) (name : String) :
    (s.releaseRooted name).Owned spare dead := by
  unfold Session.releaseRooted
  split
  · next g hg =>
    have hrooted := fun other => ((h.rooted.perm_erase hg).map (·.2.arena)).count_eq other
    refine (h.of_shares (t := { s with rooted := Table.erase s.rooted name }) rfl h.kept
      (h.rooted.erase name) fun other => ?_).release
    have := hrooted other
    simp only [shares, List.map_cons, List.count_append, List.count_cons] at this ⊢
    omega
  · exact h

/-! ### Taking shares -/

/-- A share may be taken where the session has one. -/
theorem retain (h : s.Owned spare dead) (hid : id ∈ s.shares) :
    { s with store := s.store.retain id }.Owned (id :: spare) dead :=
  ⟨h.store.retain (List.mem_append_right spare hid), h.kept, h.rooted⟩

theorem held (h : s.Owned (id :: spare) dead) (hheld : s.held = none) :
    { s with held := some id }.Owned spare dead := by
  refine h.of_shares rfl h.kept h.rooted fun other => ?_
  simp only [shares, hheld, List.count_append, List.count_cons, Option.toList_none,
    Option.toList_some, List.count_nil]
  omega

theorem insertKept (h : s.Owned (id :: spare) dead) (hname : Table.get? s.kept name = none) :
    { s with kept := Table.insert s.kept name id }.Owned spare dead := by
  refine h.of_shares rfl (h.kept.insert name id) h.rooted fun other => ?_
  simp only [shares, Table.insert, Table.erase_of_not_mem (Table.not_mem_of_get? hname),
    List.map_cons, List.count_append, List.count_cons]
  omega

theorem insertRooted {g : Handle} (h : s.Owned (g.arena :: spare) dead)
    (hname : Table.get? s.rooted name = none) :
    { s with rooted := Table.insert s.rooted name g }.Owned spare dead := by
  refine h.of_shares rfl h.kept (h.rooted.insert name g) fun other => ?_
  simp only [shares, Table.insert, Table.erase_of_not_mem (Table.not_mem_of_get? hname),
    List.map_cons, List.count_append, List.count_cons]
  omega

theorem held_releaseHeld (s : Session) : s.releaseHeld.held = none :=
  congrArg Prod.fst (holdings_releaseHeld s)

theorem get?_kept_releaseKept (s : Session) (name : String) :
    Table.get? (s.releaseKept name).kept name = none := by
  have hkept : (s.releaseKept name).kept = Table.erase s.kept name :=
    congrArg (·.2.1) (holdings_releaseKept s name)
  rw [hkept, Table.get?_erase_self]

theorem get?_rooted_releaseRooted (s : Session) (name : String) :
    Table.get? (s.releaseRooted name).rooted name = none := by
  have hrooted : (s.releaseRooted name).rooted = Table.erase s.rooted name :=
    congrArg (·.2.2) (holdings_releaseRooted s name)
  rw [hrooted, Table.get?_erase_self]

theorem hold (h : s.Owned spare dead) (hid : id ∈ s.shares) : (s.hold id).Owned spare dead :=
  (h.retain hid).releaseHeld.held (held_releaseHeld _)

theorem keep (h : s.Owned spare dead) (hid : id ∈ s.shares) (name : String) :
    (s.keep name id).Owned spare dead :=
  ((h.retain hid).releaseKept name).insertKept (get?_kept_releaseKept _ name)

theorem root {g : Handle} (h : s.Owned spare dead) (hg : g.arena ∈ s.shares) (name : String) :
    (s.root name g).Owned spare dead :=
  ((h.retain hg).releaseRooted name).insertRooted (get?_rooted_releaseRooted _ name)

/-! ### Steps -/

/-- Handles are no shares. -/
theorem handles (h : s.Owned spare dead) (handles : Table Handle) :
    { s with handles := handles }.Owned spare dead := ⟨h.store, h.kept, h.rooted⟩

theorem withRooted {go : Handle → Session × Answer} (h : s.Owned spare dead)
    (hgo : ∀ g : Handle, g.arena ∈ s.shares → (go g).1.Owned spare dead) :
    (s.withRooted name go).1.Owned spare dead := by
  rw [Session.withRooted]
  split
  · next g hg => exact hgo g (mem_shares_of_rooted hg)
  · exact h

theorem define (h : s.Owned [] dead) (name : String) (g : Handle) (grammar : Grammar) :
    (s.define name g grammar).1.Owned [] dead := by
  rw [Session.define, Store.define_eq]
  cases ha : s.store.arena? g.arena with
  | none => exact h
  | some a =>
    -- The rule is rooted only in an arena that is alive, and that has a share already.
    have hg : g.arena ∈ s.shares := h.store.isSome_arena?_iff.mp (by simp [ha])
    cases s.store.body? g with
    | some body => exact h
    | none =>
      have hmodify : { s with
          store := s.store.modify g.arena fun a =>
            { a with slots := a.slots.set g.slot (some ⟨grammar, s.handles⟩) } }.Owned [] dead :=
        ⟨h.store.modify fun _ => rfl, h.kept, h.rooted⟩
      exact hmodify.root hg name

theorem step (h : s.Owned [] dead) (first : Step) : (s.step first).1.Owned [] dead := by
  cases first with
  | create =>
    have hnew := h.releaseHeld
    have hcreate : { s.releaseHeld with store := s.releaseHeld.store.create.1 }.Owned
        [s.releaseHeld.store.create.2] dead := ⟨hnew.store.create, hnew.kept, hnew.rooted⟩
    exact hcreate.held (held_releaseHeld s)
  | declare name =>
    cases hheld : s.held with
    | none =>
      rw [step_declare_of_none hheld]
      exact h
    | some id =>
      obtain ⟨a, ha⟩ := Option.isSome_iff_exists.mp
        (h.store.isSome_arena?_iff.mpr (mem_shares.mpr (Or.inl hheld)))
      have hmodify : { s with
          store := s.store.modify id fun a => { a with slots := a.slots ++ [none] } }.Owned
          [] dead := ⟨h.store.modify fun _ => rfl, h.kept, h.rooted⟩
      rw [step_declare hheld ha]
      exact hmodify.handles _
  | define name body =>
    cases hh : Table.get? s.handles name with
    | none => simpa [Session.step, hh] using h
    | some g =>
      cases body with
      | error refusal => simpa [Session.step, hh] using h
      | ok grammar => simpa [Session.step, hh] using h.define name g grammar
  | parse name input =>
    rw [Session.step]
    split <;> exact h
  | parseRooted name input => exact h.withRooted fun _ _ => h
  | cloneHandle handle name =>
    rw [Session.step]
    split
    · exact h.handles _
    · exact h
  | handle rooted name => exact h.withRooted fun _ _ => h.handles _
  | cloneRooted rooted name => exact h.withRooted fun _ hg => h.root hg name
  | takeArena rooted => exact h.withRooted fun _ hg => h.hold hg
  | dropArena => exact h.releaseHeld
  | keepArena name =>
    rw [Session.step]
    split
    · next hid => exact h.keep (mem_shares.mpr (Or.inl hid)) name
    · exact h
  | takeKept name =>
    rw [Session.step]
    split
    · next hid => exact h.hold (mem_shares_of_kept hid)
    · exact h
  | dropKept name => exact h.releaseKept name
  | dropRooted name => exact h.releaseRooted name
  | look => exact h

theorem after (h : s.Owned [] dead) (steps : List Step) : (s.after steps).Owned [] dead := by
  induction steps generalizing s with
  | nil => exact h
  | cons first rest ih => exact ih (h.step first)

/-! ### What the shares say -/

/-- An arena is alive as long as the session has a share in it. -/
theorem isSome_arena?_iff (h : s.Owned [] dead) :
    (s.store.arena? id).isSome ↔
      s.held = some id ∨ (∃ name, Table.get? s.kept name = some id) ∨
        ∃ name g, Table.get? s.rooted name = some g ∧ g.arena = id := by
  simp only [h.kept.get?_eq_some_iff, h.rooted.get?_eq_some_iff, ← mem_shares]
  exact h.store.isSome_arena?_iff

theorem exists_arena?_held (h : s.Owned [] dead) (hheld : s.held = some id) :
    ∃ a, s.store.arena? id = some a :=
  Option.isSome_iff_exists.mp (h.isSome_arena?_iff.mpr (Or.inl hheld))

/-- The arenas that are not alive have died, from now on. -/
theorem bury (h : s.Owned spare dead) :
    s.Owned spare fun id => id < s.store.arenas.length ∧ s.store.arena? id = none where
  store :=
    { owners_eq := h.store.owners_eq
      dead := fun ⟨hlt, hnone⟩ => ⟨hlt, fun hid => by
        have hsome := h.store.isSome_arena?_iff.mpr hid
        rw [hnone] at hsome
        cases hsome⟩ }
  kept := h.kept
  rooted := h.rooted

/-- An arena that has died stays dead. -/
theorem arena?_after_eq_none (h : s.Owned [] dead) (hlt : id < s.store.arenas.length)
    (hnone : s.store.arena? id = none) (more : List Step) :
    (s.after more).store.arena? id = none := by
  -- The steps that follow cannot take a share in it.
  have hmore := h.bury.after more
  rw [← Option.not_isSome_iff_eq_none, hmore.store.isSome_arena?_iff]
  exact (hmore.store.dead ⟨hlt, hnone⟩).2

end Owned

theorem owned_start : start.Owned [] fun _ => False := by
  have hempty : (Session.mk {} none [] [] []).Owned [] fun _ => False :=
    { store := { owners_eq := fun _ => rfl, dead := False.elim }
      kept := List.nodup_nil
      rooted := List.nodup_nil }
  have hcreate : (Session.mk (Store.create {}).1 none [] [] []).Owned [(Store.create {}).2]
      fun _ => False := ⟨hempty.store.create, hempty.kept, hempty.rooted⟩
  exact hcreate.held rfl

/-! ## Ownership -/

/-- When the arenas of a session are alive, what becomes of their rules, and what of the handles
that are left when they have died. -/
structure Ownership (s : Session) : Prop where
  /-- An arena is alive as long as the session holds it, keeps it, or has a rooted parser of it. -/
  alive {id : Nat} : (s.store.arena? id).isSome ↔
    s.held = some id ∨ (∃ name, Table.get? s.kept name = some id) ∨
      ∃ name g, Table.get? s.rooted name = some g ∧ g.arena = id
  /-- The next step takes and gives up what it should. -/
  sharing : s.Sharing
  /-- A handle is used on a text as the parser that it stands for, and nothing changes. -/
  parse {name : String} {h : Handle} (input : Text) : Table.get? s.handles name = some h →
    s.step (.parse name input) = (s, .parsed (s.store.parser h input).outcome)
  /-- The parser of a handle runs the body that is in the slot of its rule, if the arena is alive
  and the slot has one. -/
  runs {h : Handle} {a : Arena} {body : RuleBody} (input : Text) :
    s.store.arena? h.arena = some a → a.slots[h.slot]? = some (some body) →
      (s.store.parser h input).Agrees
        (body.grammar.parser (Store.bodyScope body.handles s.store.parser) input)
  /-- In all other cases it fails, with one warning. -/
  fails {h : Handle} (input : Text) :
    (∀ a body, s.store.arena? h.arena = some a → a.slots[h.slot]? ≠ some (some body)) →
      ∃ f e, s.store.parser h input = ⟨.failure f, [e]⟩ ∧
        f.message = "Recursive parser invoked before it was defined" ∧ e.notice.level = .warn
  /-- When an arena has died, its handles do not resolve any more, and they cannot be defined. -/
  dead {id : Nat} (more : List Step) : id < s.store.arenas.length → s.store.arena? id = none →
    (s.after more).store.arena? id = none ∧
      ∀ h : Handle, h.arena = id → (s.after more).store.body? h = none ∧
        ∀ name grammar, Table.get? (s.after more).handles name = some h →
          (s.after more).step (.define name (.ok grammar)) =
            (s.after more, .defineError .arenaDropped)

/-- After every run, an arena is alive just as long as it has owners, and death is final. -/
theorem ownership_after (steps : List Step) : (start.after steps).Ownership := by
  have hs : (start.after steps).Owned [] fun _ => False := owned_start.after steps
  generalize start.after steps = s at hs ⊢
  constructor
  case alive => exact hs.isSome_arena?_iff
  case sharing => exact s.sharing
  case parse =>
    intro name h input hh
    simp only [step, hh]
  case runs =>
    intro h a body input ha hslot
    have hbody : s.store.body? h = some body := by
      rw [Store.body?_eq, ha, Option.bind_some, hslot]
      rfl
    exact Store.parser_agrees hbody input
  case fails =>
    intro h input hnone
    have hbody : s.store.body? h = none := by
      refine Option.eq_none_iff_forall_not_mem.mpr fun body hbody => ?_
      obtain ⟨a, ha, hjoin⟩ := Option.bind_eq_some_iff.mp hbody
      exact hnone a body ha (Option.join_eq_some_iff.mp hjoin)
    exact ⟨.ofCause .undefinedRule, ⟨.undefinedRule, []⟩,
      congrFun (Store.parser_of_body?_eq_none hbody) input, rfl, rfl⟩
  case dead =>
    intro id more hlt hnone
    have hdead := hs.arena?_after_eq_none hlt hnone more
    refine ⟨hdead, ?_⟩
    rintro h rfl
    have hbody : (s.after more).store.body? h = none := by
      rw [Store.body?_eq, hdead]
      rfl
    refine ⟨hbody, fun name grammar hh => ?_⟩
    simp only [step, hh, Session.define, Store.define_eq, hdead]

/-- A rule that refers to itself does not keep its arena alive, and neither does its handle. -/
example :
    let s := start.after [.declare "rule", .define "rule" (.ok (.many (.rule "rule"))), .dropArena]
    (s.store.arena? 0).isSome = true ∧
      ((s.step (.dropRooted "rule")).1.store.arena? 0).isSome = false := ⟨rfl, rfl⟩

end Session

end Descent
