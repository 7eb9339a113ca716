import Descent.Parser.Recursion
import Descent.Proofs.Parser.Likeness
import Descent.Proofs.Parser.Termination
import Mathlib.Data.List.ProdSigma
import Mathlib.Data.Set.Card

/-!
# Rules are what their bodies say

The parser of a rule is defined by how deep calls may nest. A deeper nesting only lets more runs
end, and a run that ends stays as it is. On the suffixes of one text there are only so many calls of
the rules that have bodies, and a nesting that lets no call end that did not end before never will
again. So a nesting cuts no run short that would end, if it is as deep as the number of the rules
and the length of the text say (`Regular.upTo_eq_nested`), and the parser of a rule is its body with
the parsers of the rules in it (`Regular.upTo_agrees`). This goes for the rules of a group, and for
a single rule that refers to itself alone.
-/

namespace Descent

/-- Two runs come to the same: they end in the same way, if they end, and then with the same
events. -/
def Reply.Agrees {α : Type} (r r' : Reply α) : Prop :=
  r'.outcome = r.outcome ∧ (r.outcome ≠ .diverges → r' = r)

namespace Reply.Agrees

variable {α : Type} {r r' r'' : Reply α}

theorem refl (r : Reply α) : r.Agrees r := ⟨rfl, fun _ => rfl⟩

theorem symm (h : r.Agrees r') : r'.Agrees r := by
  obtain ⟨houtcome, hends⟩ := h
  exact ⟨houtcome.symm, fun hr' => (hends (houtcome ▸ hr')).symm⟩

theorem trans (h : r.Agrees r') (h' : r'.Agrees r'') : r.Agrees r'' := by
  refine ⟨h'.1.trans h.1, fun hr => ?_⟩
  obtain rfl : r' = r := h.2 hr
  exact h'.2 hr

end Reply.Agrees

/-! ## Runs that were cut short -/

namespace Likeness

/-- The first run is the second, or it was cut short. -/
def cutShort (s : Text) : Likeness where
  text := s
  words _ := True
  forms _ := True
  limits _ := True
  logs := Eq
  cut := True
  logs_nil := rfl
  logs_append := by
    rintro a b _ _ rfl rfl
    rfl
  logs_undefinedRule := rfl

variable {α : Type} {s t : Text}

namespace Runs

variable {r r' r'' : Reply α}

/-- A run that ended was not cut short. -/
theorem eq_of_ends (h : (cutShort s).Runs t r r') (hends : r.outcome ≠ .diverges) : r' = r := by
  obtain ⟨houtcome, hevents⟩ := h.agree.resolve_right fun hcut => hends hcut.2
  cases r
  cases r'
  cases houtcome
  cases hevents
  rfl

/-- A run that does not end may have been cut short. -/
theorem of_diverges {R : Likeness} (hcut : R.cut) (h : r.outcome = .diverges) : R.Runs t r r' where
  suffix ha := nomatch h.symm.trans ha
  allows hf := nomatch h.symm.trans hf
  akin := Or.inr ⟨hcut, h⟩

theorem trans (h : (cutShort s).Runs t r r') (h' : (cutShort s).Runs t r' r'') :
    (cutShort s).Runs t r r'' := by
  by_cases hr : r.outcome = .diverges
  · exact of_diverges trivial hr
  · obtain rfl : r' = r := h.eq_of_ends hr
    exact h'

/-- Where nothing was cut short, it does not matter which run is the first. -/
theorem swap (h : (cutShort s).Runs t r r')
    (hends : r'.outcome ≠ .diverges → r.outcome ≠ .diverges) : (cutShort s).Runs t r' r := by
  by_cases hr : r.outcome = .diverges
  · have hr' : r'.outcome = .diverges := not_imp_not.mp hends hr
    exact of_diverges trivial hr'
  · obtain rfl : r' = r := h.eq_of_ends hr
    exact h

/-- Of two runs neither was cut short where the other was not. -/
theorem agrees (h : (cutShort s).Runs t r r') (h' : (cutShort s).Runs t r' r) : r.Agrees r' := by
  by_cases hr : r.outcome = .diverges
  · have hr' : r'.outcome = .diverges := by
      by_contra hends
      exact hends (h'.eq_of_ends hends ▸ hr)
    exact ⟨hr'.trans hr.symm, fun hends => absurd hr hends⟩
  · obtain rfl : r' = r := h.eq_of_ends hr
    exact ⟨rfl, fun _ => rfl⟩

end Runs

theorem Parsers.trans {p q r : Parser α} (h : (cutShort s).Parsers p q)
    (h' : (cutShort s).Parsers q r) : (cutShort s).Parsers p r :=
  fun t ht => (h t ht).trans (h' t ht)

theorem Parsers.agrees {p q : Parser α} (h : (cutShort s).Parsers p q)
    (h' : (cutShort s).Parsers q p) : (p s).Agrees (q s) :=
  (h s (List.suffix_refl s)).agrees (h' s (List.suffix_refl s))

end Likeness

open Likeness

namespace Rules

variable {ι α : Type} {rules : Rules ι α} {names : List ι} {s t : Text} {n m k : Nat} {name : ι}

/-- Where calls are cut short, a rule is at most cut short itself. -/
def Regular (rules : Rules ι α) : Prop :=
  ∀ s name, (cutShort s).Bodies (rules.body name) (rules.body name)

/-- All rules that have bodies are in a list. -/
def DefinedIn (rules : Rules ι α) (names : List ι) : Prop :=
  ∀ name, (rules name).isSome → name ∈ names

/-- Calls of rules without bodies end where calls nest so deep. If all rules have bodies, there are
no such calls. -/
def GroundedAt (rules : Rules ι α) (k : Nat) : Prop := ∀ name, rules name = none → 0 < k

theorem body_of_some {b : (ι → Parser α) → Parser α} (hb : rules name = some b) :
    rules.body name = b := by
  rw [body, hb, Option.getD_some]

theorem nested_of_none (hb : rules name = none) (n : Nat) :
    rules.nested (n + 1) name = Parser.undefinedRule := by
  rw [nested_succ, body, hb, Option.getD_none]

theorem GroundedAt.ends (hk : rules.GroundedAt k) (hn : k ≤ n) (hb : rules name = none)
    (t : Text) : (rules.nested n name).Ends t := by
  obtain ⟨m, rfl⟩ : ∃ m, n = m + 1 := ⟨n - 1, by have := hk name hb; omega⟩
  rw [nested_of_none hb]
  exact Parser.ends_undefinedRule t

/-! ## Deeper nesting -/

/-- What ends where calls nest less deep is the same where they nest deeper. -/
theorem Regular.nested_of_le (hrules : rules.Regular) (s : Text) (h : n ≤ m) (name : ι) :
    (cutShort s).Parsers (rules.nested n name) (rules.nested m name) := by
  induction n generalizing m name with
  | zero => exact fun _ _ => .of_diverges trivial rfl
  | succ n ih =>
    obtain ⟨m, rfl⟩ : ∃ k, m = k + 1 := ⟨m - 1, by omega⟩
    rw [nested_succ, nested_succ]
    exact hrules s name _ _ (ih (Nat.le_of_succ_le_succ h))

theorem Regular.nested_eq_of_le (hrules : rules.Regular) (h : n ≤ m)
    (hends : (rules.nested n name).Ends s) : rules.nested m name s = rules.nested n name s :=
  (hrules.nested_of_le s h name s (List.suffix_refl s)).eq_of_ends hends

theorem Regular.ends_of_le (hrules : rules.Regular) (h : n ≤ m)
    (hends : (rules.nested n name).Ends s) : (rules.nested m name).Ends s := by
  rw [Parser.Ends, hrules.nested_eq_of_le h hends]
  exact hends

/-! ## Calls that end -/

/-- The calls of rules from a list, on suffixes of a text, that end where calls nest `n` deep. -/
def ended (rules : Rules ι α) (names : List ι) (s : Text) (n : Nat) : Set (ι × Text) :=
  {call | (call.1 ∈ names ∧ call.2 <:+ s) ∧ (rules.nested n call.1).Ends call.2}

theorem ended_subset (rules : Rules ι α) (names : List ι) (s : Text) (n : Nat) :
    rules.ended names s n ⊆ {call | call ∈ names ×ˢ s.tails} := by
  rintro ⟨name, t⟩ ⟨⟨hname, ht⟩, -⟩
  exact List.mem_product.mpr ⟨hname, (List.mem_tails t s).mpr ht⟩

theorem finite_ended (rules : Rules ι α) (names : List ι) (s : Text) (n : Nat) :
    (rules.ended names s n).Finite := (List.finite_toSet _).subset (rules.ended_subset names s n)

/-- There are no more calls than the rules and the suffixes of the text allow. -/
theorem ncard_ended_le (rules : Rules ι α) (names : List ι) (s : Text) (n : Nat) :
    (rules.ended names s n).ncard ≤ names.length * (s.length + 1) := by
  classical
  calc (rules.ended names s n).ncard
    _ ≤ {call | call ∈ names ×ˢ s.tails}.ncard :=
      Set.ncard_le_ncard (rules.ended_subset names s n) (List.finite_toSet _)
    _ ≤ (names ×ˢ s.tails).length := by
      rw [← List.coe_toFinset, Set.ncard_coe_finset]
      exact List.toFinset_card_le _
    _ = names.length * (s.length + 1) := by rw [List.length_product, List.length_tails]

theorem Regular.ended_subset_of_le (hrules : rules.Regular) (h : n ≤ m) :
    rules.ended names s n ⊆ rules.ended names s m :=
  fun _ ⟨hcall, hends⟩ => ⟨hcall, hrules.ends_of_le h hends⟩

/-- Where no further call ends, nothing was cut short. -/
theorem Regular.nested_of_ended (hrules : rules.Regular) (hnames : rules.DefinedIn names)
    (hk : rules.GroundedAt k) (hkn : k ≤ n) (hnm : n ≤ m)
    (h : rules.ended names s m ⊆ rules.ended names s n) (name : ι) :
    (cutShort s).Parsers (rules.nested m name) (rules.nested n name) := by
  intro t ht
  refine (hrules.nested_of_le s hnm name t ht).swap fun hends => ?_
  cases hb : rules name with
  -- A rule without a body need not be in the list.
  | none => exact hk.ends hkn hb t
  | some b =>
    have hname : name ∈ names := hnames name (by simp [hb])
    have hcall : (name, t) ∈ rules.ended names s n := h ⟨⟨hname, ht⟩, hends⟩
    exact hcall.2

/-- If one more level lets no further call end, then the next one does not either. -/
theorem Regular.ended_succ_subset (hrules : rules.Regular) (hnames : rules.DefinedIn names)
    (hk : rules.GroundedAt k) (hkn : k ≤ n)
    (h : rules.ended names s (n + 1) ⊆ rules.ended names s n) :
    rules.ended names s (n + 2) ⊆ rules.ended names s (n + 1) := by
  -- The body of a rule finds the same calls one level up, so it comes to the same there.
  have hcalls := hrules.nested_of_ended hnames hk hkn (Nat.le_succ n) h
  rintro ⟨name, t⟩ ⟨⟨hname, ht⟩, hends⟩
  refine ⟨⟨hname, ht⟩, ?_⟩
  show (rules.nested (n + 1) name t).outcome ≠ .diverges
  replace hends : (rules.nested (n + 2) name t).outcome ≠ .diverges := hends
  rw [nested_succ] at hends ⊢
  rw [(hrules s name _ _ hcalls t ht).eq_of_ends hends]
  exact hends

/-- The number of calls that end grows with each level until it is what it will stay. -/
theorem Regular.ended_subset_bound (hrules : rules.Regular) (hnames : rules.DefinedIn names)
    (hk : rules.GroundedAt k) (h : names.length * (s.length + 1) ≤ n) :
    rules.ended names s (n + k) ⊆ rules.ended names s (names.length * (s.length + 1) + k) := by
  have hle {i j : Nat} (hij : i ≤ j) : rules.ended names s (i + k) ⊆ rules.ended names s (j + k) :=
    hrules.ended_subset_of_le (Nat.add_le_add_right hij k)
  have hsucc (i : Nat) :
      (rules.ended names s (i + k)).ncard ≤ (rules.ended names s (i + 1 + k)).ncard :=
    Set.ncard_le_ncard (hle (Nat.le_succ i)) (rules.finite_ended ..)
  have hstays (i : Nat)
      (heq : (rules.ended names s (i + k)).ncard = (rules.ended names s (i + 1 + k)).ncard) :
      (rules.ended names s (i + 1 + k)).ncard = (rules.ended names s (i + 1 + 1 + k)).ncard := by
    have hsame : rules.ended names s (i + k) = rules.ended names s (i + 1 + k) :=
      Set.eq_of_subset_of_ncard_le (hle (Nat.le_succ i)) heq.ge (rules.finite_ended ..)
    refine le_antisymm (hsucc _) (Set.ncard_le_ncard ?_ (rules.finite_ended ..))
    simp only [Nat.succ_add] at hsame ⊢
    exact hrules.ended_succ_subset hnames hk (Nat.le_add_left k i) hsame.ge
  -- A number that grows until it stays, and that is bounded, has stopped to grow at the bound.
  have hncard := Nat.stabilises_of_monotone (monotone_nat_of_le_succ hsucc)
    (fun i => rules.ncard_ended_le names s (i + k)) hstays h
  exact (Set.eq_of_subset_of_ncard_le (hle h) hncard.le (rules.finite_ended ..)).ge

/-- Some nesting is deep enough for every call on a text that ends at all. -/
theorem Regular.ends_of_nested (hrules : rules.Regular) (hnames : rules.DefinedIn names)
    (hk : rules.GroundedAt k) (hends : (rules.nested n name).Ends s) :
    (rules.nested (names.length * (s.length + 1) + k) name).Ends s := by
  cases hb : rules name with
  | none => exact hk.ends (Nat.le_add_left ..) hb s
  | some b =>
    have hname : name ∈ names := hnames name (by simp [hb])
    have hdeep : (rules.nested (n + names.length * (s.length + 1) + k) name).Ends s :=
      hrules.ends_of_le (by omega) hends
    have hcall : (name, s) ∈ rules.ended names s (n + names.length * (s.length + 1) + k) :=
      ⟨⟨hname, List.suffix_refl s⟩, hdeep⟩
    exact (hrules.ended_subset_bound hnames hk (Nat.le_add_left _ n) hcall).2

/-! ## The parsers of rules -/

variable {depth : Text → Nat}

/-- The parsers of rules whose calls on a text nest at most as deep as is given for the text. -/
def upTo (rules : Rules ι α) (depth : Text → Nat) (name : ι) : Parser α :=
  fun s => rules.nested (depth s) name s

/-- So deep a nesting cuts no call short that would end. -/
def DeepEnough (rules : Rules ι α) (depth : Text → Nat) : Prop :=
  ∃ names k, rules.DefinedIn names ∧ rules.GroundedAt k ∧
    ∀ s, names.length * (s.length + 1) + k ≤ depth s

/-- A run that ends where calls nest so deep or less deep is that of the parser of the rule. -/
theorem Regular.upTo_eq_nested (hrules : rules.Regular) (hdepth : rules.DeepEnough depth)
    (hends : (rules.nested n name).Ends s) : rules.upTo depth name s = rules.nested n name s := by
  obtain ⟨names, k, hnames, hk, hle⟩ := hdepth
  have hparser : (rules.nested (depth s) name).Ends s :=
    hrules.ends_of_le (hle s) (hrules.ends_of_nested hnames hk hends)
  rcases Nat.le_total n (depth s) with h | h
  · exact hrules.nested_eq_of_le h hends
  · exact (hrules.nested_eq_of_le h hparser).symm

theorem Regular.nested_upTo (hrules : rules.Regular) (hdepth : rules.DeepEnough depth) (s : Text)
    (n : Nat) (name : ι) : (cutShort s).Parsers (rules.nested n name) (rules.upTo depth name) := by
  intro t ht
  by_cases hends : (rules.nested n name).Ends t
  · rw [hrules.upTo_eq_nested hdepth hends]
    exact hrules.nested_of_le s (Nat.le_refl n) name t ht
  · exact .of_diverges trivial (not_not.mp hends)

theorem Regular.cutShort_upTo (hrules : rules.Regular) (depth : Text → Nat) (s : Text) (name : ι) :
    (cutShort s).Parsers (rules.upTo depth name) (rules.upTo depth name) :=
  fun t ht => hrules.nested_of_le s (Nat.le_refl (depth t)) name t ht

/-- On the suffixes of a text, one nesting is deep enough for all rules. -/
theorem Regular.exists_upTo_nested (hrules : rules.Regular) (hdepth : rules.DeepEnough depth)
    (s : Text) :
    ∃ n, ∀ name, (cutShort s).Parsers (rules.upTo depth name) (rules.nested n name) := by
  have ⟨names, k, hnames, hk, _⟩ := hdepth
  refine ⟨names.length * (s.length + 1) + k, fun name t ht => ?_⟩
  by_cases hends : (rules.nested (depth t) name).Ends t
  · have hlevel : names.length * (t.length + 1) + k ≤ names.length * (s.length + 1) + k :=
      Nat.add_le_add_right (Nat.mul_le_mul_left _ (Nat.succ_le_succ ht.length_le)) k
    have hdeep := hrules.ends_of_le hlevel (hrules.ends_of_nested hnames hk hends)
    rw [← hrules.upTo_eq_nested hdepth hdeep]
    exact hrules.nested_of_le s (Nat.le_refl (depth t)) name t ht
  · exact .of_diverges trivial (not_not.mp hends)

theorem Regular.upTo_body (hrules : rules.Regular) (hdepth : rules.DeepEnough depth) (s : Text)
    (name : ι) :
    (cutShort s).Parsers (rules.upTo depth name) (rules.body name (rules.upTo depth)) := by
  obtain ⟨n, hn⟩ := hrules.exists_upTo_nested hdepth s
  have hbody : (cutShort s).Parsers (rules.nested (n + 1) name)
      (rules.body name (rules.upTo depth)) := by
    rw [nested_succ]
    exact hrules s name _ _ (hrules.nested_upTo hdepth s n)
  exact (hn name).trans ((hrules.nested_of_le s (Nat.le_succ n) name).trans hbody)

theorem Regular.body_upTo (hrules : rules.Regular) (hdepth : rules.DeepEnough depth) (s : Text)
    (name : ι) :
    (cutShort s).Parsers (rules.body name (rules.upTo depth)) (rules.upTo depth name) := by
  obtain ⟨n, hn⟩ := hrules.exists_upTo_nested hdepth s
  have hbody : (cutShort s).Parsers (rules.body name (rules.upTo depth))
      (rules.nested (n + 1) name) := by
    rw [nested_succ]
    exact hrules s name _ _ hn
  exact hbody.trans (hrules.nested_upTo hdepth s (n + 1) name)

/-- The parser of a rule is its body, in which the rules are their parsers. -/
theorem Regular.upTo_agrees (hrules : rules.Regular) (hdepth : rules.DeepEnough depth) (name : ι)
    (s : Text) : (rules.upTo depth name s).Agrees (rules.body name (rules.upTo depth) s) :=
  (hrules.upTo_body hdepth s name).agrees (hrules.body_upTo hdepth s name)

/-- It does not matter how much deeper calls may nest. -/
theorem Regular.upTo_agrees_upTo (hrules : rules.Regular) {depth' : Text → Nat}
    (hdepth : rules.DeepEnough depth) (hdepth' : rules.DeepEnough depth') (s : Text) (name : ι) :
    (rules.upTo depth name s).Agrees (rules.upTo depth' name s) := by
  obtain ⟨n, hn⟩ := hrules.exists_upTo_nested hdepth s
  obtain ⟨m, hm⟩ := hrules.exists_upTo_nested hdepth' s
  have hforth := (hn name).trans (hrules.nested_upTo hdepth' s n name)
  exact hforth.agrees ((hm name).trans (hrules.nested_upTo hdepth s m name))

/-! ### A rule with its parser for a body -/

section Update

variable [DecidableEq ι] {p : Parser α}

theorem body_update_self (rules : Rules ι α) (name : ι) (p : Parser α) :
    body (Function.update rules name (some fun _ => p)) name = fun _ => p :=
  body_of_some (Function.update_self ..)

theorem body_update_of_ne {other : ι} (h : other ≠ name) :
    body (Function.update rules name (some fun _ => p)) other = rules.body other := by
  rw [body, body, Function.update_of_ne h]

theorem Regular.update (hrules : rules.Regular) (hp : ∀ s, (cutShort s).Parsers p p) (name : ι) :
    Regular (Function.update rules name (some fun _ => p)) := by
  intro s other
  by_cases h : other = name
  · subst h
    rw [body_update_self]
    exact fun _ _ _ => hp s
  · rw [body_update_of_ne h]
    exact hrules s other

theorem deepEnough_update (hdepth : rules.DeepEnough depth) (hname : (rules name).isSome) :
    DeepEnough (Function.update rules name (some fun _ => p)) depth := by
  obtain ⟨names, k, hnames, hk, hle⟩ := hdepth
  refine ⟨names, k, fun other hother => ?_, fun other hother => ?_, hle⟩
  · by_cases h : other = name
    · exact h ▸ hnames name hname
    · exact hnames other (by rwa [Function.update_of_ne h] at hother)
  · by_cases h : other = name
    · subst h
      rw [Function.update_self] at hother
      cases hother
    · exact hk other (by rwa [Function.update_of_ne h] at hother)

/-- Where a rule has its own parser for a body, no rule does more than it did. -/
theorem Regular.nested_update_upTo (hrules : rules.Regular) (hdepth : rules.DeepEnough depth)
    (name : ι) (s : Text) (n : Nat) (other : ι) :
    (cutShort s).Parsers
      (nested (Function.update rules name (some fun _ => rules.upTo depth name)) n other)
      (rules.upTo depth other) := by
  induction n generalizing other with
  | zero => exact fun _ _ => .of_diverges trivial rfl
  | succ n ih =>
    rw [nested_succ]
    by_cases h : other = name
    · subst h
      rw [body_update_self]
      exact hrules.cutShort_upTo depth s other
    · rw [body_update_of_ne h]
      exact (hrules s other _ _ ih).trans (hrules.body_upTo hdepth s other)

/-- Where a rule has its own parser for a body, no rule does less than it did. -/
theorem Regular.nested_nested_update (hrules : rules.Regular) (hdepth : rules.DeepEnough depth)
    (name : ι) (s : Text) (n : Nat) (other : ι) :
    (cutShort s).Parsers (rules.nested n other)
      (nested (Function.update rules name (some fun _ => rules.upTo depth name)) n other) := by
  induction n generalizing other with
  | zero => exact fun _ _ => .of_diverges trivial rfl
  | succ n ih =>
    by_cases h : other = name
    · subst h
      have hself :
          nested (Function.update rules other (some fun _ => rules.upTo depth other)) (n + 1)
            other = rules.upTo depth other := by rw [nested_succ, body_update_self]
      rw [hself]
      exact hrules.nested_upTo hdepth s (n + 1) other
    · rw [nested_succ, nested_succ, body_update_of_ne h]
      exact hrules s other _ _ ih

/-- To give a rule its own parser for a body changes no rule. -/
theorem Regular.upTo_update (hrules : rules.Regular) (hdepth : rules.DeepEnough depth)
    (hname : (rules name).isSome) (s : Text) (other : ι) :
    (upTo (Function.update rules name (some fun _ => rules.upTo depth name)) depth other
      s).Agrees (rules.upTo depth other s) := by
  have hregular := hrules.update (fun s => hrules.cutShort_upTo depth s name) name
  have hdepth' := deepEnough_update (p := rules.upTo depth name) hdepth hname
  obtain ⟨n, hn⟩ := hrules.exists_upTo_nested hdepth s
  obtain ⟨m, hm⟩ := hregular.exists_upTo_nested hdepth' s
  have hforth := (hm other).trans (hrules.nested_update_upTo hdepth name s m other)
  have hback := (hn other).trans (hrules.nested_nested_update hdepth name s n other)
  exact hforth.agrees (hback.trans (hregular.nested_upTo hdepth' s n other))

end Update

/-! ### Rules of a group -/

theorem parser_eq_upTo (rules : Rules ι α) (count : Nat) :
    rules.parser count = rules.upTo fun s => count * (s.length + 1) + 1 := rfl

theorem deepEnough_count {count : Nat} (hnames : rules.DefinedIn names)
    (hcount : names.length ≤ count) :
    rules.DeepEnough fun s => count * (s.length + 1) + 1 :=
  ⟨names, 1, hnames, fun _ _ => Nat.one_pos,
    fun _ => Nat.succ_le_succ (Nat.mul_le_mul_right _ hcount)⟩

/-! ### A rule that refers to itself -/

/-- One rule, with the parser that it has for itself. -/
def single (body : Parser α → Parser α) : Rules Unit α := fun _ => some fun call => body (call ())

variable {body : Parser α → Parser α}

theorem nested_single (body : Parser α → Parser α) (n : Nat) :
    (single body).nested n () = Parser.nested body n := by
  induction n with
  | zero => rfl
  | succ n ih =>
    funext s
    rw [nested, Parser.nested, ← ih]
    rfl

theorem fix_eq_upTo (body : Parser α → Parser α) :
    Parser.fix body = (single body).upTo (fun s => s.length + 1) () := by
  funext s
  rw [Parser.fix, upTo, nested_single]

theorem deepEnough_single (h : ∀ s : Text, s.length + 1 ≤ depth s) :
    (single body).DeepEnough depth := by
  have hground : (single body).GroundedAt 0 := by
    intro name hnone
    cases hnone
  refine ⟨[()], 0, fun _ _ => List.mem_singleton_self (), hground, fun s => ?_⟩
  simpa using h s

theorem regular_single
    (h : ∀ s p q, (cutShort s).Parsers p q → (cutShort s).Parsers (body p) (body q)) :
    (single body).Regular :=
  fun s _ _ _ hcall => h s _ _ (hcall ())

end Rules

end Descent
