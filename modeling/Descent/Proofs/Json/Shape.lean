import Descent.Proofs.Json.Document

/-!
# The shape of values

How deep a value nests, and what holds of all the values in it. The value that a document denotes
is no deeper than the document, its numbers are finite, and its objects have no key twice. Equal
values are equally deep, and the numbers of both are finite or those of neither; a value is equal to
itself if they are.
-/

namespace Descent.Json

mutual

/-- How deep arrays and objects nest in a value. -/
def depth : Json → Nat
  | null | bool _ | number _ | string _ => 0
  | array items => depthItems items + 1
  | object members => depthMembers members + 1

def depthItems : List Json → Nat
  | [] => 0
  | v :: vs => max (depth v) (depthItems vs)

def depthMembers : List (String × Json) → Nat
  | [] => 0
  | (_, v) :: ms => max (depth v) (depthMembers ms)

end

mutual

/-- Something holds of a value and of all values in it. -/
def All (p : Json → Prop) : Json → Prop
  | null => p null
  | bool b => p (bool b)
  | number x => p (number x)
  | string s => p (string s)
  | array items => p (array items) ∧ AllItems p items
  | object members => p (object members) ∧ AllMembers p members

def AllItems (p : Json → Prop) : List Json → Prop
  | [] => True
  | v :: vs => All p v ∧ AllItems p vs

def AllMembers (p : Json → Prop) : List (String × Json) → Prop
  | [] => True
  | (_, v) :: ms => All p v ∧ AllMembers p ms

end

/-- A value that is a number is a finite one. -/
def IsFinite : Json → Prop
  | number x => x.isFinite = true
  | _ => True

/-- A value that is an object has no key twice. -/
def HasDistinctKeys : Json → Prop
  | object members => (members.map Prod.fst).Nodup
  | _ => True

variable {p : Json → Prop}

/-! ## Objects of denoted members -/

theorem allMembers_keepLast {ms : List (String × Json)} (h : AllMembers p ms) :
    AllMembers p (keepLast ms) := by
  induction ms with
  | nil => exact h
  | cons m ms ih =>
    obtain ⟨k, v⟩ := m
    obtain ⟨hv, hms⟩ := h
    rw [keepLast]
    split
    · exact ih hms
    · exact ⟨hv, ih hms⟩

theorem depthMembers_keepLast_le (ms : List (String × Json)) :
    depthMembers (keepLast ms) ≤ depthMembers ms := by
  induction ms with
  | nil => exact Nat.le_refl _
  | cons m ms ih =>
    obtain ⟨k, v⟩ := m
    rw [keepLast]
    split
    · exact Nat.le_trans ih (Nat.le_max_right _ _)
    · exact Nat.max_le.mpr ⟨Nat.le_max_left _ _, Nat.le_trans ih (Nat.le_max_right _ _)⟩

theorem keepLast_sublist (ms : List (String × Json)) : (keepLast ms).Sublist ms := by
  induction ms with
  | nil => exact List.Sublist.refl _
  | cons m ms ih =>
    obtain ⟨k, v⟩ := m
    rw [keepLast]
    split
    · exact ih.cons _
    · exact ih.cons_cons _

/-- No two members that are kept have the same key. -/
theorem nodup_keepLast (ms : List (String × Json)) : ((keepLast ms).map Prod.fst).Nodup := by
  induction ms with
  | nil => exact List.nodup_nil
  | cons m ms ih =>
    obtain ⟨k, v⟩ := m
    rw [keepLast]
    split
    · exact ih
    · next hk =>
      have hkeys := (keepLast_sublist ms).map Prod.fst
      exact List.nodup_cons.mpr ⟨fun hmem => hk (hkeys.subset hmem), ih⟩

/-- Of members with distinct keys, all are kept. -/
theorem keepLast_of_nodup {ms : List (String × Json)} (h : (ms.map Prod.fst).Nodup) :
    keepLast ms = ms := by
  induction ms with
  | nil => rfl
  | cons m ms ih =>
    obtain ⟨k, v⟩ := m
    rw [List.map_cons, List.nodup_cons] at h
    rw [keepLast, if_neg h.1, ih h.2]

/-! ## Denoted values -/

mutual

/-- What holds of every value with finite numbers and distinct keys holds of all values in one that
is denoted. -/
theorem Document.Denotes.all (hp : ∀ v, IsFinite v → HasDistinctKeys v → p v) {d : Document}
    {v : Json} (h : d.Denotes v) : v.All p := by
  match d with
  | .null | .bool _ =>
    obtain rfl := h
    exact hp _ trivial trivial
  | .number l =>
    obtain ⟨x, -, hx, rfl⟩ := h
    exact hp _ hx trivial
  | .string ps =>
    obtain ⟨s, -, rfl⟩ := h
    exact hp _ trivial trivial
  | .emptyArray _ =>
    obtain rfl := h
    exact ⟨hp _ trivial trivial, trivial⟩
  | .array es =>
    obtain ⟨vs, hvs, rfl⟩ := h
    exact ⟨hp _ trivial trivial, Elements.Denotes.all hp hvs⟩
  | .emptyObject _ =>
    obtain rfl := h
    exact ⟨hp _ trivial List.nodup_nil, trivial⟩
  | .object members =>
    obtain ⟨ms, hms, rfl⟩ := h
    exact ⟨hp _ trivial (nodup_keepLast ms), allMembers_keepLast (Members.Denotes.all hp hms)⟩

theorem Elements.Denotes.all (hp : ∀ v, IsFinite v → HasDistinctKeys v → p v) {es : Elements}
    {vs : List Json} (h : es.Denotes vs) : AllItems p vs := by
  match es with
  | .last _ value _ =>
    obtain ⟨v, hv, rfl⟩ := h
    exact ⟨Document.Denotes.all hp hv, trivial⟩
  | .more _ value _ rest =>
    obtain ⟨v, ws, hv, hws, rfl⟩ := h
    exact ⟨Document.Denotes.all hp hv, Elements.Denotes.all hp hws⟩

theorem Members.Denotes.all (hp : ∀ v, IsFinite v → HasDistinctKeys v → p v) {members : Members}
    {ms : List (String × Json)} (h : members.Denotes ms) : AllMembers p ms := by
  match members with
  | .last _ _ _ _ value _ =>
    obtain ⟨k, v, -, hv, rfl⟩ := h
    exact ⟨Document.Denotes.all hp hv, trivial⟩
  | .more _ _ _ _ value _ rest =>
    obtain ⟨k, v, ns, -, hv, hns, rfl⟩ := h
    exact ⟨Document.Denotes.all hp hv, Members.Denotes.all hp hns⟩

end

mutual

theorem Document.Denotes.depth_le {d : Document} {v : Json} (h : d.Denotes v) :
    v.depth ≤ d.depth := by
  match d with
  | .null | .bool _ | .emptyArray _ | .emptyObject _ =>
    obtain rfl := h
    simp [depth, depthItems, depthMembers]
  | .number l =>
    obtain ⟨x, -, -, rfl⟩ := h
    exact Nat.le_refl _
  | .string ps =>
    obtain ⟨s, -, rfl⟩ := h
    exact Nat.le_refl _
  | .array es =>
    obtain ⟨vs, hvs, rfl⟩ := h
    exact Nat.succ_le_succ (Elements.Denotes.depth_le hvs)
  | .object members =>
    obtain ⟨ms, hms, rfl⟩ := h
    exact Nat.succ_le_succ
      (Nat.le_trans (depthMembers_keepLast_le ms) (Members.Denotes.depth_le hms))

theorem Elements.Denotes.depth_le {es : Elements} {vs : List Json} (h : es.Denotes vs) :
    depthItems vs ≤ es.depth := by
  match es with
  | .last _ value _ =>
    obtain ⟨v, hv, rfl⟩ := h
    have := Document.Denotes.depth_le hv
    simpa [depthItems] using this
  | .more _ value _ rest =>
    obtain ⟨v, ws, hv, hws, rfl⟩ := h
    have := Document.Denotes.depth_le hv
    have := Elements.Denotes.depth_le hws
    rw [depthItems, Elements.depth]
    omega

theorem Members.Denotes.depth_le {members : Members} {ms : List (String × Json)}
    (h : members.Denotes ms) : depthMembers ms ≤ members.depth := by
  match members with
  | .last _ _ _ _ value _ =>
    obtain ⟨k, v, -, hv, rfl⟩ := h
    have := Document.Denotes.depth_le hv
    simpa [depthMembers] using this
  | .more _ _ _ _ value _ rest =>
    obtain ⟨k, v, ns, -, hv, hns, rfl⟩ := h
    have := Document.Denotes.depth_le hv
    have := Members.Denotes.depth_le hns
    rw [depthMembers, Members.depth]
    omega

end

/-! ## Equal values -/

theorem isFinite_iff_of_beq {x y : Binary64} (h : (x == y) = true) :
    x.isFinite = true ↔ y.isFinite = true := by
  have hxy : x.bits = y.bits ∨ x.magnitude = 0 ∧ y.magnitude = 0 := by
    have h' : Binary64.beq x y = true := h
    simp only [Binary64.beq, Bool.and_eq_true, Bool.or_eq_true, beq_iff_eq] at h'
    exact h'.2
  unfold Binary64.isFinite
  rcases hxy with hbits | ⟨hx, hy⟩
  · rw [Binary64.magnitude, Binary64.magnitude, hbits]
  · rw [hx, hy]

mutual

theorem same_shape_of_beq {v w : Json} (h : Json.beq v w = true) :
    v.depth = w.depth ∧ (v.All IsFinite ↔ w.All IsFinite) := by
  match v with
  | null => cases w with
    | null => exact ⟨rfl, Iff.rfl⟩
    | _ => cases h
  | bool a => cases w with
    | bool b => exact ⟨rfl, Iff.rfl⟩
    | _ => cases h
  | number x => cases w with
    | number y => exact ⟨rfl, isFinite_iff_of_beq h⟩
    | _ => cases h
  | string s => cases w with
    | string t => exact ⟨rfl, Iff.rfl⟩
    | _ => cases h
  | array vs => cases w with
    | array ws =>
      obtain ⟨hdepth, hfinite⟩ := same_shape_of_beqItems h
      exact ⟨congrArg (· + 1) hdepth, and_congr Iff.rfl hfinite⟩
    | _ => cases h
  | object ms => cases w with
    | object ns =>
      obtain ⟨hdepth, hfinite⟩ := same_shape_of_beqMembers h
      exact ⟨congrArg (· + 1) hdepth, and_congr Iff.rfl hfinite⟩
    | _ => cases h

theorem same_shape_of_beqItems {vs ws : List Json} (h : beqItems vs ws = true) :
    depthItems vs = depthItems ws ∧ (AllItems IsFinite vs ↔ AllItems IsFinite ws) := by
  match vs, ws with
  | [], [] => exact ⟨rfl, Iff.rfl⟩
  | v :: vs, w :: ws =>
    rw [beqItems, Bool.and_eq_true] at h
    obtain ⟨hdepth, hfinite⟩ := same_shape_of_beq h.1
    obtain ⟨hdepths, hfinites⟩ := same_shape_of_beqItems h.2
    rw [depthItems, depthItems, hdepth, hdepths]
    exact ⟨rfl, and_congr hfinite hfinites⟩

theorem same_shape_of_beqMembers {ms ns : List (String × Json)} (h : beqMembers ms ns = true) :
    depthMembers ms = depthMembers ns ∧ (AllMembers IsFinite ms ↔ AllMembers IsFinite ns) := by
  match ms, ns with
  | [], [] => exact ⟨rfl, Iff.rfl⟩
  | (k, v) :: ms, (l, w) :: ns =>
    rw [beqMembers, Bool.and_eq_true, Bool.and_eq_true] at h
    obtain ⟨hdepth, hfinite⟩ := same_shape_of_beq h.1.2
    obtain ⟨hdepths, hfinites⟩ := same_shape_of_beqMembers h.2
    rw [depthMembers, depthMembers, hdepth, hdepths]
    exact ⟨rfl, and_congr hfinite hfinites⟩

end

theorem beq_self_of_isFinite {x : Binary64} (h : x.isFinite = true) : (x == x) = true := by
  have hnan : x.isNaN = false := by
    have := of_decide_eq_true h
    exact decide_eq_false (by omega)
  show Binary64.beq x x = true
  simp [Binary64.beq, hnan]

mutual

/-- A value equals itself if its numbers are finite. -/
theorem beq_self {v : Json} (h : v.All IsFinite) : Json.beq v v = true := by
  match v with
  | null => rfl
  | bool b => exact beq_self_eq_true b
  | number x => exact beq_self_of_isFinite h
  | string s => exact beq_self_eq_true s
  | array vs => exact beqItems_self h.2
  | object ms => exact beqMembers_self h.2

theorem beqItems_self {vs : List Json} (h : AllItems IsFinite vs) : beqItems vs vs = true := by
  match vs with
  | [] => rfl
  | v :: vs => rw [beqItems, beq_self h.1, beqItems_self h.2, Bool.and_self]

theorem beqMembers_self {ms : List (String × Json)} (h : AllMembers IsFinite ms) :
    beqMembers ms ms = true := by
  match ms with
  | [] => rfl
  | (k, v) :: ms =>
    rw [beqMembers, beq_self h.1, beqMembers_self h.2, beq_self_eq_true, Bool.and_self,
      Bool.and_self]

end

end Descent.Json
