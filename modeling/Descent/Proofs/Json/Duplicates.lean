import Descent.Proofs.Json.Nesting
import Descent.Proofs.Json.Shape
import Descent.Proofs.Json.Written

/-!
# Duplicate keys

An object has one member for each key that was inserted: the last that was, with the others before
and behind it as they were inserted last (`LastOccurrences`). For the text of an object the keys are
compared as the strings that they denote, however they are spelled (`parse_objectText`). The object
is one level more than the deepest of its values, so with values of 128 levels it is refused.
-/

namespace Descent.Json

open Descent.Parser

variable {ps : List (String × Json)} {p m : String × Json} {i : Nat}

/-! ## Last occurrences -/

/-- The member is the one at the index, and none with its key comes after it. -/
def IsLast (ps : List (String × Json)) (i : Nat) (m : String × Json) : Prop :=
  ps[i]? = some m ∧ ∀ j n, i < j → ps[j]? = some n → n.1 ≠ m.1

/-- One member for each key, with the value that was given to it last, in the order in which the
keys were last given a value. -/
structure LastOccurrences (ps kept : List (String × Json)) : Prop where
  distinct : (kept.map Prod.fst).Nodup
  keys (k : String) : k ∈ kept.map Prod.fst ↔ k ∈ ps.map Prod.fst
  members (m : String × Json) : m ∈ kept ↔ ∃ i, IsLast ps i m
  order : kept.Pairwise fun m n => ∀ i j, IsLast ps i m → IsLast ps j n → i < j

theorem IsLast.mem_keys (h : IsLast ps i m) : m.1 ∈ ps.map Prod.fst :=
  List.mem_map.mpr ⟨m, List.mem_of_getElem? h.1, rfl⟩

theorem isLast_zero : IsLast (p :: ps) 0 m ↔ m = p ∧ p.1 ∉ ps.map Prod.fst := by
  constructor
  · rintro ⟨hm, hlast⟩
    obtain rfl : p = m := Option.some.inj hm
    refine ⟨rfl, fun hmem => ?_⟩
    obtain ⟨n, hn, hkey⟩ := List.mem_map.mp hmem
    obtain ⟨j, hj⟩ := List.mem_iff_getElem?.mp hn
    exact hlast (j + 1) n (Nat.succ_pos j) hj hkey
  · rintro ⟨rfl, hkey⟩
    refine ⟨rfl, fun j n hj hn heq => ?_⟩
    cases j with
    | zero => exact absurd hj (Nat.lt_irrefl 0)
    | succ j => exact hkey (List.mem_map.mpr ⟨n, List.mem_of_getElem? hn, heq⟩)

theorem isLast_succ : IsLast (p :: ps) (i + 1) m ↔ IsLast ps i m := by
  refine and_congr Iff.rfl ⟨fun h j n hj hn => ?_, fun h j n hj hn => ?_⟩
  · exact h (j + 1) n (Nat.succ_lt_succ hj) hn
  · cases j with
    | zero => exact absurd hj (Nat.not_lt_zero _)
    | succ j => exact h j n (Nat.lt_of_succ_lt_succ hj) hn

theorem exists_isLast_cons :
    (∃ i, IsLast (p :: ps) i m) ↔ (m = p ∧ p.1 ∉ ps.map Prod.fst) ∨ ∃ i, IsLast ps i m := by
  rw [← Nat.or_exists_add_one]
  simp only [isLast_zero, isLast_succ]

theorem mem_keys_keepLast (ps : List (String × Json)) (k : String) :
    k ∈ (keepLast ps).map Prod.fst ↔ k ∈ ps.map Prod.fst := by
  induction ps with
  | nil => exact Iff.rfl
  | cons p ps ih =>
    obtain ⟨key, v⟩ := p
    rw [keepLast]
    split
    · next h =>
      rw [ih, List.map_cons, List.mem_cons]
      constructor
      · exact Or.inr
      · rintro (rfl | hk)
        · exact h
        · exact hk
    · simp only [List.map_cons, List.mem_cons, ih]

theorem mem_keepLast_iff (ps : List (String × Json)) (m : String × Json) :
    m ∈ keepLast ps ↔ ∃ i, IsLast ps i m := by
  induction ps with
  | nil => simp [keepLast, IsLast]
  | cons p ps ih =>
    obtain ⟨key, v⟩ := p
    rw [exists_isLast_cons, keepLast]
    split
    · next h => simp [ih, h]
    · next h => simp [ih, h]

/-- A member whose key comes after the first member is not the first. -/
theorem IsLast.of_cons (h : IsLast (p :: ps) i m) (hkey : m.1 ∈ ps.map Prod.fst) :
    ∃ j, i = j + 1 ∧ IsLast ps j m := by
  cases i with
  | zero =>
    obtain ⟨rfl, hp⟩ := isLast_zero.mp h
    exact absurd hkey hp
  | succ j => exact ⟨j, rfl, isLast_succ.mp h⟩

theorem pairwise_keepLast (ps : List (String × Json)) :
    (keepLast ps).Pairwise fun m n => ∀ i j, IsLast ps i m → IsLast ps j n → i < j := by
  induction ps with
  | nil => exact List.Pairwise.nil
  | cons p ps ih =>
    obtain ⟨key, v⟩ := p
    have hkeys {n : String × Json} (hn : n ∈ keepLast ps) : n.1 ∈ ps.map Prod.fst :=
      List.mem_map_of_mem ((keepLast_sublist ps).subset hn)
    -- The members that are kept of the others keep their order, each index being one more.
    have hothers : (keepLast ps).Pairwise fun m n =>
        ∀ i j, IsLast ((key, v) :: ps) i m → IsLast ((key, v) :: ps) j n → i < j := by
      refine ih.imp_of_mem fun {m n} hm hn hmn i j hi hj => ?_
      obtain ⟨i, rfl, hlast⟩ := hi.of_cons (hkeys hm)
      obtain ⟨j, rfl, hlast'⟩ := hj.of_cons (hkeys hn)
      exact Nat.succ_lt_succ (hmn i j hlast hlast')
    rw [keepLast]
    split
    · exact hothers
    · next h =>
      refine List.pairwise_cons.mpr ⟨fun n hn i j hi hj => ?_, hothers⟩
      obtain ⟨j, rfl, -⟩ := hj.of_cons (hkeys hn)
      cases i with
      | zero => exact Nat.succ_pos j
      | succ i => exact absurd (isLast_succ.mp hi).mem_keys h

theorem lastOccurrences_keepLast (ps : List (String × Json)) : LastOccurrences ps (keepLast ps) :=
  ⟨nodup_keepLast ps, mem_keys_keepLast ps, mem_keepLast_iff ps, pairwise_keepLast ps⟩

/-! ## Objects as they are written -/

/-- A member of an object as it is written. -/
structure WrittenMember where
  beforeKey : Gap
  key : List Piece
  afterKey : Gap
  before : Gap
  value : Document
  after : Gap

namespace WrittenMember

def text (m : WrittenMember) : Text :=
  m.beforeKey.1 ++ quoted m.key ++ m.afterKey.1 ++ ':' :: (m.before.1 ++ m.value.text ++ m.after.1)

/-- The key and the value of a member. -/
def Denotes (m : WrittenMember) (p : String × Json) : Prop :=
  DenotesString m.key p.1 ∧ m.value.Denotes p.2

end WrittenMember

/-- The text of an object with the given members, or with blanks if there are none. -/
def objectText (gap : Gap) : List WrittenMember → Text
  | [] => '\x7b' :: (gap.1 ++ ['\x7d'])
  | ms => '\x7b' :: ([','].intercalate (ms.map WrittenMember.text) ++ ['\x7d'])

/-- One or more members in a document. -/
def Members.ofWritten (m : WrittenMember) : List WrittenMember → Members
  | [] => .last m.beforeKey m.key m.afterKey m.before m.value m.after
  | n :: ms => .more m.beforeKey m.key m.afterKey m.before m.value m.after (ofWritten n ms)

/-- The object with the given members. -/
def objectDocument (gap : Gap) : List WrittenMember → Document
  | [] => .emptyObject gap
  | m :: ms => .object (Members.ofWritten m ms)

theorem text_ofWritten (m : WrittenMember) (ms : List WrittenMember) :
    (Members.ofWritten m ms).text = [','].intercalate ((m :: ms).map WrittenMember.text) := by
  induction ms generalizing m with
  | nil => simp [Members.ofWritten, WrittenMember.text]
  | cons n ms ih =>
    rw [Members.ofWritten, Members.text, ih]
    simp [WrittenMember.text, List.intercalate]

theorem text_objectDocument (gap : Gap) (ms : List WrittenMember) :
    (objectDocument gap ms).text = objectText gap ms := by
  cases ms with
  | nil => rfl
  | cons m ms =>
    show '\x7b' :: ((Members.ofWritten m ms).text ++ ['\x7d']) = _
    rw [text_ofWritten]
    rfl

theorem depth_ofWritten_le {n : Nat} (m : WrittenMember) (ms : List WrittenMember)
    (h : ∀ w ∈ m :: ms, w.value.depth ≤ n) : (Members.ofWritten m ms).depth ≤ n := by
  induction ms generalizing m with
  | nil => exact h m List.mem_cons_self
  | cons w ms ih =>
    obtain ⟨hm, hms⟩ := List.forall_mem_cons.mp h
    exact Nat.max_le.mpr ⟨hm, ih w hms⟩

theorem denotes_ofWritten {m : WrittenMember} {ms : List WrittenMember}
    (h : List.Forall₂ WrittenMember.Denotes (m :: ms) ps) :
    (Members.ofWritten m ms).Denotes ps := by
  induction ms generalizing m ps with
  | nil =>
    rcases h with _ | ⟨⟨hkey, hvalue⟩, ⟨⟩⟩
    exact ⟨_, _, hkey, hvalue, rfl⟩
  | cons n ms ih =>
    rcases h with _ | ⟨⟨hkey, hvalue⟩, hrest⟩
    exact ⟨_, _, _, hkey, hvalue, ih hrest, rfl⟩

theorem denotes_objectDocument (gap : Gap) {ms : List WrittenMember}
    (h : List.Forall₂ WrittenMember.Denotes ms ps) :
    (objectDocument gap ms).Denotes (.object (keepLast ps)) := by
  cases ms with
  | nil =>
    cases h
    rfl
  | cons m ms => exact ⟨ps, denotes_ofWritten h, rfl⟩

theorem parse_objectText (gap : Gap) {ms : List WrittenMember}
    (h : List.Forall₂ WrittenMember.Denotes ms ps) (hdepth : ∀ m ∈ ms, m.value.depth ≤ 127) :
    parse (objectText gap ms) = .complete (.object (keepLast ps)) := by
  have hdocument : (objectDocument gap ms).depth ≤ 128 := by
    cases ms with
    | nil => exact Nat.le_of_ble_eq_true rfl
    | cons m ms => exact Nat.succ_le_succ (depth_ofWritten_le m ms hdepth)
  have hparse := parse_document noGap noGap (denotes_objectDocument gap h) hdocument
  rw [← text_objectDocument]
  simpa [noGap] using hparse

/-! ## Nested values -/

theorem text_nestedArrays (n : Nat) :
    (nestedArrays n).text = List.replicate (n + 1) '[' ++ List.replicate (n + 1) ']' := by
  induction n with
  | zero => rfl
  | succ n ih =>
    have hopening : List.replicate (n + 2) '[' = '[' :: List.replicate (n + 1) '[' :=
      List.replicate_succ
    have hclosing : List.replicate (n + 2) ']' = List.replicate (n + 1) ']' ++ [']'] :=
      List.replicate_succ'
    rw [hopening, hclosing]
    simp [nestedArrays, ih]

theorem exists_denotes_nestedArrays (n : Nat) : ∃ v, (nestedArrays n).Denotes v := by
  induction n with
  | zero => exact ⟨.array [], rfl⟩
  | succ n ih =>
    obtain ⟨v, hv⟩ := ih
    exact ⟨.array [v], [v], ⟨v, hv, rfl⟩, rfl⟩

/-- A document of more than 128 levels is refused. -/
theorem parse_ne_complete {d : Document} (h : 128 < d.depth) (v : Json) :
    parse d.text ≠ .complete v := by
  intro hparse
  have hread : parser.Reads (noGap.1 ++ (d.text ++ [])) v [] := by
    have hcomplete := parseComplete_eq_complete_iff.mp hparse
    simpa [noGap] using hcomplete
  have haccepts : Scan.start.accepts (d.text ++ []) = true := by
    by_contra hrefused
    rw [Reads, outcome_parser_document, if_neg hrefused] at hread
    cases hread
  have hdepth := depth_le_of_accepts haccepts
  omega

/-! ## Members with the same key -/

/-- An object that is made by inserting members has the last occurrences of their keys, and so has
one that is read from its text, whatever its keys are written like, if no value in it has more than
127 levels. -/
theorem duplicate_keys :
    (∀ ps : List (String × Json), ∃ kept, ofMembers ps = .object kept ∧ LastOccurrences ps kept) ∧
    ∀ (gap : Gap) (ms : List WrittenMember) (ps : List (String × Json)),
      List.Forall₂ WrittenMember.Denotes ms ps → (∀ m ∈ ms, m.value.depth ≤ 127) →
      ∃ kept, parse (objectText gap ms) = .complete (.object kept) ∧ LastOccurrences ps kept ∧
        ofMembers ps = .object kept := by
  refine ⟨fun ps => ?_, fun gap ms ps h hdepth => ?_⟩
  · exact ⟨keepLast ps, ofMembers_eq ps, lastOccurrences_keepLast ps⟩
  · exact ⟨keepLast ps, parse_objectText gap h hdepth, lastOccurrences_keepLast ps,
      ofMembers_eq ps⟩

theorem duplicate_keys_escaped :
    let a : Piece := .plain 'a' (by decide)
    let b : Piece := .plain 'b' (by decide)
    let escaped : Piece := .unit ⟨[('0', 0), ('0', 0), ('6', 6), ('1', 1)], by decide⟩
    let ms : List WrittenMember := [⟨noGap, [a], noGap, noGap, .null, noGap⟩,
      ⟨noGap, [b], noGap, noGap, .bool true, noGap⟩,
      ⟨noGap, [escaped], noGap, noGap, .bool false, noGap⟩]
    let ps : List (String × Json) := [("a", .null), ("b", .bool true), ("a", .bool false)]
    List.Forall₂ WrittenMember.Denotes ms ps ∧ (∀ m ∈ ms, m.value.depth ≤ 127) ∧
      parse (objectText noGap ms) = .complete (.object [("b", .bool true), ("a", .bool false)]) ∧
      LastOccurrences ps [("b", .bool true), ("a", .bool false)] := by
  intro a b escaped ms ps
  have hdenotes : List.Forall₂ WrittenMember.Denotes ms ps :=
    .cons ⟨rfl, rfl⟩ (.cons ⟨rfl, rfl⟩ (.cons ⟨rfl, rfl⟩ .nil))
  have hdepth : ∀ m ∈ ms, m.value.depth ≤ 127 := by simp [ms]
  obtain ⟨kept, hparse, hlast, hinserted⟩ := duplicate_keys.2 noGap ms ps hdenotes hdepth
  have hkept : ofMembers ps = .object [("b", .bool true), ("a", .bool false)] := rfl
  obtain rfl := Json.object.inj (hkept.symm.trans hinserted)
  exact ⟨hdenotes, hdepth, hparse, hlast⟩

/-- A value of 128 levels is read by itself, but not as the only value of an object. -/
theorem parse_objectText_nested :
    let value : Text := List.replicate 128 '[' ++ List.replicate 128 ']'
    let a : Piece := .plain 'a' (by decide)
    let m : WrittenMember := ⟨noGap, [a], noGap, noGap, nestedArrays 127, noGap⟩
    m.value.text = value ∧ (∃ v, parse value = .complete v ∧ m.Denotes ("a", v)) ∧
      objectText noGap [m] = ['\x7b', '"', 'a', '"', ':'] ++ value ++ ['\x7d'] ∧
      ∀ v, parse (objectText noGap [m]) ≠ .complete v := by
  intro value a m
  have htext : m.value.text = value := text_nestedArrays 127
  have hlevels : m.value.depth = 128 := depth_nestedArrays 127
  obtain ⟨v, hv⟩ := exists_denotes_nestedArrays 127
  have hparse : parse value = .complete v := by
    have hcomplete := parse_document noGap noGap hv hlevels.le
    rw [← htext]
    simpa [noGap] using hcomplete
  have hkey : DenotesString [a] "a" := by
    rfl
  refine ⟨htext, ⟨v, hparse, hkey, hv⟩, ?_, fun w => ?_⟩
  · rw [← htext]
    simp [objectText, WrittenMember.text, noGap, List.intercalate, quoted, a, m, Piece.text]
  · have hdepth : 128 < (objectDocument noGap [m]).depth := by
      show 128 < m.value.depth + 1
      rw [hlevels]
      exact Nat.lt_succ_self 128
    rw [← text_objectDocument]
    exact parse_ne_complete hdepth w

end Descent.Json
