import Descent.Proofs.Json.Tokens

/-!
# Values

The rule for values reads documents. Whatever it reads is a document with the blanks after it, and
the value is the one that the document denotes (`value_sound`); a document that denotes a value is
read, whatever follows it, as long as that goes on neither with the blanks nor with a number at its
end (`value_complete`).

Soundness is an induction on how deep calls of the rule may nest, and goes for any parser of the
values inside. Completeness is an induction on the document, for as many nested calls as it is deep.
-/

namespace Descent.Json

open Descent.Parser

variable {s r : Text} {p : Parser Json}

/-! ## Arrays and objects -/

/-- Inserting members one after another keeps the last of those with the same key. -/
theorem insertMembers_eq (ms ns : List (String × Json)) :
    insertMembers ms ns = ms.filter (fun m => m.1 ∉ ns.map Prod.fst) ++ keepLast ns := by
  induction ns generalizing ms with
  | nil =>
    rw [insertMembers, keepLast, List.foldl_nil, List.append_nil]
    exact (List.filter_eq_self.mpr (by simp)).symm
  | cons n ns ih =>
    obtain ⟨k, v⟩ := n
    have hfilter : (ms.filter fun m => m.1 != k).filter (fun m => m.1 ∉ ns.map Prod.fst) =
        ms.filter fun m => m.1 ∉ ((k, v) :: ns).map Prod.fst := by
      rw [List.filter_filter]
      congr 1
      funext m
      rw [Bool.eq_iff_iff]
      simp [and_comm]
    -- The member goes to the end, and stays there unless its key comes once more.
    show insertMembers (insertMember ms k v) ns = _
    rw [ih, insertMember, List.filter_append, hfilter, List.append_assoc, keepLast]
    congr 1
    by_cases h : k ∈ ns.map Prod.fst
    · rw [if_pos h, List.filter_cons_of_neg (by simpa using h), List.filter_nil, List.nil_append]
    · rw [if_neg h, List.filter_cons_of_pos (by simpa using h), List.filter_nil,
        List.singleton_append]

theorem ofMembers_eq (ms : List (String × Json)) : ofMembers ms = .object (keepLast ms) := by
  rw [ofMembers, insertMembers_eq, List.filter_nil, List.nil_append]

theorem reads_arrayOf {v : Json} :
    (arrayOf p).Reads s v r ↔
      ∃ (before : Gap) (t : Text) (vs : List Json) (after : Gap),
        s = '[' :: (before.1 ++ t) ∧ t.Avoids Lexeme.isBlank ∧
          (p.sepBy (symbol ',')).Reads t vs (']' :: (after.1 ++ r)) ∧
            r.Avoids Lexeme.isBlank ∧ v = .array vs := by
  rw [arrayOf, reads_map]
  simp only [reads_bracket, reads_symbol]
  constructor
  · intro h
    obtain ⟨vs, ⟨_, t, _, _, ⟨rfl, before, rfl, ht⟩, hvs, rfl, after, rfl, hr⟩, rfl⟩ := h
    exact ⟨before, t, vs, after, rfl, ht, hvs, hr, rfl⟩
  · intro h
    obtain ⟨before, t, vs, after, rfl, ht, hvs, hr, rfl⟩ := h
    exact ⟨vs, ⟨_, t, _, _, ⟨rfl, before, rfl, ht⟩, hvs, rfl, after, rfl, hr⟩, rfl⟩

theorem reads_objectOf {v : Json} :
    (objectOf p).Reads s v r ↔
      ∃ (before : Gap) (t : Text) (ms : List (String × Json)) (after : Gap),
        s = '\x7b' :: (before.1 ++ t) ∧ t.Avoids Lexeme.isBlank ∧
          ((member p).sepBy (symbol ',')).Reads t ms ('\x7d' :: (after.1 ++ r)) ∧
            r.Avoids Lexeme.isBlank ∧ v = .object (keepLast ms) := by
  rw [objectOf, reads_map]
  simp only [reads_bracket, reads_symbol, ofMembers_eq]
  constructor
  · intro h
    obtain ⟨ms, ⟨_, t, _, _, ⟨rfl, before, rfl, ht⟩, hms, rfl, after, rfl, hr⟩, rfl⟩ := h
    exact ⟨before, t, ms, after, rfl, ht, hms, hr, rfl⟩
  · intro h
    obtain ⟨before, t, ms, after, rfl, ht, hms, hr, rfl⟩ := h
    exact ⟨ms, ⟨_, t, _, _, ⟨rfl, before, rfl, ht⟩, hms, rfl, after, rfl, hr⟩, rfl⟩

/-! ## Soundness -/

/-- What a parser reads is a document and the blanks after it, and the value is the one that the
document denotes. -/
def ReadsDocuments (p : Parser Json) : Prop :=
  ∀ {s v r}, p.Reads s v r →
    ∃ (d : Document) (after : Gap), s = d.text ++ (after.1 ++ r) ∧ d.Denotes v ∧
      r.Avoids Lexeme.isBlank

/-- A document takes at least a character. -/
theorem Document.text_ne_nil (d : Document) : d.text ≠ [] := by
  cases d with
  | null => simp [Document.text]
  | bool b => cases b <;> simp [Document.text]
  | number l => exact l.text_ne_nil
  | string ps => simp [Document.text, quoted]
  | emptyArray | array | emptyObject | object => simp [Document.text]

theorem ReadsDocuments.progresses (hp : ReadsDocuments p) : p.Progresses := by
  intro s v r h
  obtain ⟨d, after, rfl, -, -⟩ := hp h
  have hpos := List.length_pos_iff.mpr d.text_ne_nil
  rw [List.length_append, List.length_append]
  omega

/-- Separated values are the elements of an array, with the blanks before the first of them. -/
theorem exists_elements (hp : ReadsDocuments p) {vs : List Json}
    (h : Separated p (symbol ',') s vs r) (before : Gap) :
    ∃ es : Elements, before.1 ++ s = es.text ++ r ∧ es.Denotes vs := by
  induction h generalizing before with
  | last ha =>
    obtain ⟨d, after, rfl, hd, -⟩ := hp ha
    exact ⟨.last before d after, by simp [Elements.text], _, hd, rfl⟩
  | more ha hsep _ ih =>
    obtain ⟨d, after, rfl, hd, -⟩ := hp ha
    obtain ⟨-, gap, rfl, -⟩ := reads_symbol.mp hsep
    obtain ⟨es, htext, hes⟩ := ih gap
    exact ⟨.more before d after es, by simp [Elements.text, htext], _, _, hd, hes, rfl⟩

/-- A member of an object as it is read. -/
theorem reads_member {m : String × Json} :
    (member p).Reads s m r ↔
      ∃ (ps : List Piece) (afterKey before : Gap) (t : Text),
        s = quoted ps ++ (afterKey.1 ++ ':' :: (before.1 ++ t)) ∧ DenotesString ps m.1 ∧
          t.Avoids Lexeme.isBlank ∧ p.Reads t m.2 r := by
  rw [member, reads_both]
  simp only [reads_thenSkip, reads_token, reads_stringLiteral, reads_symbol]
  constructor
  · intro h
    obtain ⟨t, ⟨_, _, ⟨afterKey, ⟨ps, rfl, hkey⟩, -⟩, rfl, before, rfl, ht⟩, hvalue⟩ := h
    exact ⟨ps, afterKey, before, t, rfl, hkey, ht, hvalue⟩
  · intro h
    obtain ⟨ps, afterKey, before, t, rfl, hkey, ht, hvalue⟩ := h
    exact ⟨t, ⟨_, ':', ⟨afterKey, ⟨ps, rfl, hkey⟩, Text.avoids_cons.mpr rfl⟩, rfl, before, rfl, ht⟩,
      hvalue⟩

theorem exists_members (hp : ReadsDocuments p) {ms : List (String × Json)}
    (h : Separated (member p) (symbol ',') s ms r) (beforeKey : Gap) :
    ∃ members : Members, beforeKey.1 ++ s = members.text ++ r ∧ members.Denotes ms := by
  induction h generalizing beforeKey with
  | last ha =>
    obtain ⟨ps, afterKey, before, t, rfl, hkey, -, hvalue⟩ := reads_member.mp ha
    obtain ⟨d, after, rfl, hd, -⟩ := hp hvalue
    exact ⟨.last beforeKey ps afterKey before d after, by simp [Members.text], _, _, hkey, hd, rfl⟩
  | more ha hsep _ ih =>
    obtain ⟨ps, afterKey, before, t, rfl, hkey, -, hvalue⟩ := reads_member.mp ha
    obtain ⟨d, after, rfl, hd, -⟩ := hp hvalue
    obtain ⟨-, gap, rfl, -⟩ := reads_symbol.mp hsep
    obtain ⟨members, htext, hmembers⟩ := ih gap
    exact ⟨.more beforeKey ps afterKey before d after members, by simp [Members.text, htext],
      _, _, _, hkey, hd, hmembers, rfl⟩

theorem arrayOf_sound (hp : ReadsDocuments p) : ReadsDocuments (arrayOf p) := by
  intro s v r h
  obtain ⟨before, t, vs, after, rfl, -, hvs, hr, rfl⟩ := reads_arrayOf.mp h
  rcases reads_sepBy.mp hvs with hvs | ⟨-, rfl, rfl⟩
  · obtain ⟨es, htext, hes⟩ := exists_elements hp (sepBy1_sound hvs).1 before
    exact ⟨.array es, after, by simp [htext], ⟨_, hes, rfl⟩, hr⟩
  · exact ⟨.emptyArray before, after, by simp, rfl, hr⟩

theorem objectOf_sound (hp : ReadsDocuments p) : ReadsDocuments (objectOf p) := by
  intro s v r h
  obtain ⟨before, t, ms, after, rfl, -, hms, hr, rfl⟩ := reads_objectOf.mp h
  rcases reads_sepBy.mp hms with hms | ⟨-, rfl, rfl⟩
  · obtain ⟨members, htext, hmembers⟩ := exists_members hp (sepBy1_sound hms).1 before
    exact ⟨.object members, after, by simp [htext], ⟨_, hmembers, rfl⟩, hr⟩
  · exact ⟨.emptyObject before, after, by simp, rfl, hr⟩

theorem valueBody_sound (hp : ReadsDocuments p) : ReadsDocuments (valueBody p) := by
  intro s v r h
  simp only [valueBody, reads_traced, reads_choice_cons, not_reads_choice_nil, and_false,
    or_false, reads_map, reads_token, reads_stringLiteral, reads_keyword] at h
  rcases h with h | ⟨-, h | ⟨-, h | ⟨-, h | ⟨-, h | ⟨-, h | ⟨-, h⟩⟩⟩⟩⟩⟩
  · exact objectOf_sound hp h
  · exact arrayOf_sound hp h
  · obtain ⟨_, ⟨after, ⟨ps, rfl, hps⟩, hr⟩, rfl⟩ := h
    exact ⟨.string ps, after, rfl, ⟨_, hps, rfl⟩, hr⟩
  · obtain ⟨_, ⟨after, hx, hr⟩, rfl⟩ := h
    obtain ⟨l, rfl, hl⟩ := numeral_sound hx
    exact ⟨.number l, after, rfl, ⟨_, hl.1, hl.2, rfl⟩, hr⟩
  · obtain ⟨rfl, after, rfl, hr⟩ := h
    exact ⟨.bool true, after, by rw [Document.text], by rw [Document.Denotes], hr⟩
  · obtain ⟨rfl, after, rfl, hr⟩ := h
    exact ⟨.bool false, after, by rw [Document.text], by rw [Document.Denotes], hr⟩
  · obtain ⟨rfl, after, rfl, hr⟩ := h
    exact ⟨.null, after, by rw [Document.text], by rw [Document.Denotes], hr⟩

theorem nested_sound (n : Nat) : ReadsDocuments (nested valueBody n) := by
  induction n with
  | zero =>
    intro s v r h
    exact absurd h not_reads_nested_zero
  | succ n ih =>
    intro s v r h
    exact valueBody_sound ih (reads_nested_succ.mp h)

theorem value_sound : ReadsDocuments value := by
  intro s v r h
  rw [value, reads_fix] at h
  exact nested_sound (s.length + 1) h

/-! ## Completeness -/

theorem Document.avoids_isBlank (d : Document) (r : Text) :
    Text.Avoids (d.text ++ r) Lexeme.isBlank := by
  cases d with
  | bool b => cases b <;> exact Text.avoids_cons.mpr rfl
  | number l => exact l.avoids_text not_isBlank_of_startsNumber r
  | null | string | emptyArray | array | emptyObject | object => exact Text.avoids_cons.mpr rfl

/-- What follows a document does not go on with it: no blanks after those that belong to it, and
nothing that goes on with a number at its end. -/
def Document.Stops (d : Document) (after : Gap) (r : Text) : Prop :=
  r.Avoids Lexeme.isBlank ∧ ∀ l, d = .number l → Text.Avoids (after.1 ++ r) continuesNumber

/-- A number ends where blanks begin. -/
theorem avoids_continuesNumber (gap : Gap) (h : gap.1 = [] → r.Avoids continuesNumber) :
    Text.Avoids (gap.1 ++ r) continuesNumber := by
  obtain ⟨t, ht⟩ := gap
  cases t with
  | nil => exact h rfl
  | cons c t =>
    rw [List.cons_append, Text.avoids_cons]
    rcases ht c List.mem_cons_self with rfl | rfl | rfl | rfl <;> rfl

theorem Document.stops_of_avoids (d : Document) (after : Gap)
    (hr : r.Avoids Lexeme.isBlank) (hnumber : r.Avoids continuesNumber) : d.Stops after r :=
  ⟨hr, fun _ _ => avoids_continuesNumber after fun _ => hnumber⟩

theorem Document.stops_nil (d : Document) (after : Gap) : d.Stops after [] :=
  d.stops_of_avoids after Text.avoids_nil Text.avoids_nil

/-- Nothing of a value goes on in front of the next one. -/
theorem Document.stops_comma (d : Document) (after : Gap) (t : Text) : d.Stops after (',' :: t) :=
  d.stops_of_avoids after (Text.avoids_cons.mpr rfl) (Text.avoids_cons.mpr rfl)

/-- A rule fails at a mark that begins no value. -/
theorem fails_valueBody {c : Char} (hmark : c = ']' ∨ c = '\x7d') :
    (valueBody p).Fails (c :: r) := by
  simp only [valueBody, fails_traced, fails_choice_cons, fails_choice_nil, and_true, fails_map]
  rcases hmark with rfl | rfl <;>
    exact ⟨fails_objectOf (Text.avoids_cons.mpr rfl), fails_arrayOf (Text.avoids_cons.mpr rfl),
      Fails.token (fails_stringLiteral (Text.avoids_cons.mpr rfl)),
      Fails.token (fails_numeral (Text.avoids_cons.mpr rfl)),
      fails_keyword (by simp), fails_keyword (by simp), fails_keyword (by simp)⟩

theorem fails_separator {α : Type} {q : Parser α} {c : Char} (hc : (c == ',') = false) :
    ((symbol ',').skipThen q).Fails (c :: r) := by
  rw [fails_skipThen]
  exact Or.inl (fails_symbol (Text.avoids_cons.mpr hc))

/-! The alternatives before the one that reads a document fail at its first character. -/

theorem valueBody_object {v : Json} (h : (objectOf p).Reads s v r) :
    (valueBody p).Reads s v r := by
  rw [valueBody, reads_traced, reads_choice_cons]
  exact Or.inl h

theorem valueBody_array {v : Json} (h : (arrayOf p).Reads ('[' :: s) v r) :
    (valueBody p).Reads ('[' :: s) v r := by
  simp only [valueBody, reads_traced, reads_choice_cons]
  exact Or.inr ⟨fails_objectOf (Text.avoids_cons.mpr rfl), Or.inl h⟩

theorem valueBody_string {ps : List Piece} {v : String} (hv : DenotesString ps v) (after : Gap)
    (hr : r.Avoids Lexeme.isBlank) :
    (valueBody p).Reads (quoted ps ++ (after.1 ++ r)) (.string v) r := by
  simp only [valueBody, reads_traced, reads_choice_cons, reads_map, reads_token,
    reads_stringLiteral]
  exact Or.inr ⟨fails_objectOf (Text.avoids_cons.mpr rfl), Or.inr
    ⟨fails_arrayOf (Text.avoids_cons.mpr rfl), Or.inl ⟨v, ⟨after, ⟨ps, rfl, hv⟩, hr⟩, rfl⟩⟩⟩

theorem valueBody_number {l : NumberLiteral} {x : Binary64}
    (hx : Binary64.ofLiteral? l.text = some x) (hfinite : x.isFinite = true) {after : Gap}
    (hr : r.Avoids Lexeme.isBlank) (hnumber : Text.Avoids (after.1 ++ r) continuesNumber) :
    (valueBody p).Reads (l.text ++ (after.1 ++ r)) (.number x) r := by
  have hmark {c : Char} (hc : startsNumber c = false) :
      Text.Avoids (l.text ++ (after.1 ++ r)) (· == c) := by
    refine l.avoids_text (fun d hd => ?_) _
    rw [beq_eq_false_iff_ne]
    rintro rfl
    rw [hc] at hd
    cases hd
  simp only [valueBody, reads_traced, reads_choice_cons, reads_map, reads_token, fails_map]
  exact Or.inr ⟨fails_objectOf (hmark rfl), Or.inr ⟨fails_arrayOf (hmark rfl), Or.inr
    ⟨Fails.token (fails_stringLiteral (hmark rfl)), Or.inl
      ⟨x, ⟨after, numeral_complete hx hfinite hnumber, hr⟩, rfl⟩⟩⟩⟩

theorem valueBody_keyword {word : String} {v : Json} (hword : (word, v) ∈
    [("true", Json.bool true), ("false", Json.bool false), ("null", Json.null)]) (after : Gap)
    (hr : r.Avoids Lexeme.isBlank) :
    (valueBody p).Reads (word.toList ++ (after.1 ++ r)) v r := by
  have hread : (keyword word v).Reads (word.toList ++ (after.1 ++ r)) v r :=
    reads_keyword.mpr ⟨rfl, after, rfl, hr⟩
  simp only [valueBody, reads_traced, reads_choice_cons, fails_map]
  simp only [List.mem_cons, Prod.mk.injEq, List.not_mem_nil, or_false] at hword
  rcases hword with ⟨rfl, rfl⟩ | ⟨rfl, rfl⟩ | ⟨rfl, rfl⟩ <;>
    refine Or.inr ⟨fails_objectOf (Text.avoids_cons.mpr rfl), Or.inr
      ⟨fails_arrayOf (Text.avoids_cons.mpr rfl), Or.inr
        ⟨Fails.token (fails_stringLiteral (Text.avoids_cons.mpr rfl)), Or.inr
          ⟨Fails.token (fails_numeral (Text.avoids_cons.mpr rfl)), ?_⟩⟩⟩⟩
  · exact Or.inl hread
  · exact Or.inr ⟨fails_keyword (by simp), Or.inl hread⟩
  · exact Or.inr ⟨fails_keyword (by simp), Or.inr ⟨fails_keyword (by simp), Or.inl hread⟩⟩

theorem progresses_member (hp : ReadsDocuments p) : (member p).Progresses := by
  intro s m r h
  obtain ⟨ps, afterKey, before, t, rfl, -, -, hvalue⟩ := reads_member.mp h
  have hlt : r.length < t.length := hp.progresses hvalue
  simp only [List.length_append, List.length_cons]
  omega

theorem progresses_separator (n : Nat) :
    ((symbol ',').skipThen (nested valueBody n)).Progresses :=
  Progresses.skipThen (progresses_symbol ',')
    (Progresses.nonGrowing (ReadsDocuments.progresses (nested_sound n)))

theorem progresses_memberSeparator (n : Nat) :
    ((symbol ',').skipThen (member (nested valueBody n))).Progresses :=
  Progresses.skipThen (progresses_symbol ',')
    (Progresses.nonGrowing (progresses_member (nested_sound n)))

mutual

theorem nested_complete {n : Nat} {d : Document} {v : Json} {after : Gap} {r : Text}
    (hd : d.Denotes v) (hn : d.depth < n) (hr : d.Stops after r) :
    (nested valueBody n).Reads (d.text ++ (after.1 ++ r)) v r := by
  -- One call of the rule is for the document itself, the others are for what is in it.
  obtain ⟨n, rfl⟩ : ∃ m, n = m + 1 := ⟨n - 1, by omega⟩
  rw [reads_nested_succ]
  match d with
  | .null =>
    obtain rfl : v = .null := hd
    exact valueBody_keyword (by simp) after hr.1
  | .bool b =>
    obtain rfl : v = .bool b := hd
    cases b with
    | true => exact valueBody_keyword (by simp) after hr.1
    | false => exact valueBody_keyword (by simp) after hr.1
  | .number l =>
    obtain ⟨x, hx, hfinite, rfl⟩ := hd
    exact valueBody_number hx hfinite hr.1 (hr.2 l rfl)
  | .string ps =>
    obtain ⟨v, hv, rfl⟩ := hd
    exact valueBody_string hv after hr.1
  | .emptyArray gap =>
    obtain rfl : v = .array [] := hd
    -- The rule is tried at the closing bracket, so there has to be a call left for it.
    obtain ⟨n, rfl⟩ : ∃ m, n = m + 1 := ⟨n - 1, by rw [Document.depth] at hn; omega⟩
    have hread : (arrayOf (nested valueBody (n + 1))).Reads
        ('[' :: (gap.1 ++ ']' :: (after.1 ++ r))) (.array []) r :=
      reads_arrayOf.mpr ⟨gap, ']' :: (after.1 ++ r), [], after, rfl, Text.avoids_cons.mpr rfl,
        reads_sepBy.mpr (Or.inr ⟨fails_nested_succ.mpr (fails_valueBody (Or.inl rfl)), rfl, rfl⟩),
        hr.1, rfl⟩
    simpa using valueBody_array hread
  | .array es =>
    obtain ⟨vs, hes, rfl⟩ := hd
    obtain ⟨before, t, htext, ht, hseparated⟩ := elements_complete (r := ']' :: (after.1 ++ r)) hes
      (Nat.lt_of_succ_lt_succ hn) (Text.avoids_cons.mpr rfl) (Text.avoids_cons.mpr rfl)
    have hread : (arrayOf (nested valueBody n)).Reads ('[' :: (before.1 ++ t)) (.array vs) r :=
      reads_arrayOf.mpr ⟨before, t, vs, after, rfl, ht, reads_sepBy.mpr (Or.inl
        ((reads_sepBy1 (progresses_separator n)).mpr ⟨hseparated, fails_separator rfl⟩)), hr.1, rfl⟩
    simpa [htext] using valueBody_array hread
  | .emptyObject gap =>
    obtain rfl : v = .object [] := hd
    have hread : (objectOf (nested valueBody n)).Reads
        ('\x7b' :: (gap.1 ++ '\x7d' :: (after.1 ++ r))) (.object []) r :=
      reads_objectOf.mpr ⟨gap, '\x7d' :: (after.1 ++ r), [], after, rfl, Text.avoids_cons.mpr rfl,
        reads_sepBy.mpr (Or.inr ⟨fails_member (Text.avoids_cons.mpr rfl), rfl, rfl⟩), hr.1, rfl⟩
    simpa using valueBody_object hread
  | .object members =>
    obtain ⟨ms, hms, rfl⟩ := hd
    obtain ⟨before, t, htext, ht, hseparated⟩ := members_complete
      (r := '\x7d' :: (after.1 ++ r)) hms (Nat.lt_of_succ_lt_succ hn) (Text.avoids_cons.mpr rfl)
      (Text.avoids_cons.mpr rfl)
    have hread : (objectOf (nested valueBody n)).Reads ('\x7b' :: (before.1 ++ t))
        (.object (keepLast ms)) r :=
      reads_objectOf.mpr ⟨before, t, ms, after, rfl, ht, reads_sepBy.mpr (Or.inl
        ((reads_sepBy1 (progresses_memberSeparator n)).mpr
          ⟨hseparated, fails_separator rfl⟩)), hr.1, rfl⟩
    simpa [htext] using valueBody_object hread

theorem elements_complete {n : Nat} {es : Elements} {vs : List Json} {r : Text}
    (hes : es.Denotes vs) (hn : es.depth < n) (hblank : r.Avoids Lexeme.isBlank)
    (hnumber : r.Avoids continuesNumber) :
    ∃ (before : Gap) (t : Text), es.text ++ r = before.1 ++ t ∧ t.Avoids Lexeme.isBlank ∧
      Separated (nested valueBody n) (symbol ',') t vs r := by
  match es with
  | .last before value after =>
    obtain ⟨v, hv, rfl⟩ := hes
    refine ⟨before, value.text ++ (after.1 ++ r), by simp, value.avoids_isBlank _, .last ?_⟩
    exact nested_complete hv hn (value.stops_of_avoids after hblank hnumber)
  | .more before value after rest =>
    obtain ⟨v, ws, hv, hws, rfl⟩ := hes
    rw [Elements.depth, Nat.max_lt] at hn
    obtain ⟨gap, t, htext, ht, hseparated⟩ := elements_complete hws hn.2 hblank hnumber
    refine ⟨before, value.text ++ (after.1 ++ ',' :: (gap.1 ++ t)), by simp [htext],
      value.avoids_isBlank _, .more ?_ (reads_symbol.mpr ⟨rfl, gap, rfl, ht⟩) hseparated⟩
    exact nested_complete hv hn.1 (value.stops_comma after _)

theorem members_complete {n : Nat} {members : Members} {ms : List (String × Json)} {r : Text}
    (hms : members.Denotes ms) (hn : members.depth < n) (hblank : r.Avoids Lexeme.isBlank)
    (hnumber : r.Avoids continuesNumber) :
    ∃ (before : Gap) (t : Text), members.text ++ r = before.1 ++ t ∧ t.Avoids Lexeme.isBlank ∧
      Separated (member (nested valueBody n)) (symbol ',') t ms r := by
  match members with
  | .last beforeKey key afterKey before value after =>
    obtain ⟨k, v, hkey, hv, rfl⟩ := hms
    have hvalue : (nested valueBody n).Reads (value.text ++ (after.1 ++ r)) v r :=
      nested_complete hv hn (value.stops_of_avoids after hblank hnumber)
    refine ⟨beforeKey, _, ?_, ?_, .last (reads_member.mpr
      ⟨key, afterKey, before, _, rfl, hkey, value.avoids_isBlank _, hvalue⟩)⟩
    · simp
    · exact Text.avoids_cons.mpr rfl
  | .more beforeKey key afterKey before value after rest =>
    obtain ⟨k, v, ns, hkey, hv, hns, rfl⟩ := hms
    rw [Members.depth, Nat.max_lt] at hn
    obtain ⟨gap, t, htext, ht, hseparated⟩ := members_complete hns hn.2 hblank hnumber
    have hvalue : (nested valueBody n).Reads (value.text ++ (after.1 ++ ',' :: (gap.1 ++ t))) v
        (',' :: (gap.1 ++ t)) :=
      nested_complete hv hn.1 (value.stops_comma after _)
    refine ⟨beforeKey, _, ?_, ?_, .more (reads_member.mpr
      ⟨key, afterKey, before, _, rfl, hkey, value.avoids_isBlank _, hvalue⟩)
      (reads_symbol.mpr ⟨rfl, gap, rfl, ht⟩) hseparated⟩
    · simp [htext]
    · exact Text.avoids_cons.mpr rfl

end

mutual

/-- Every bracket that nests takes a character. -/
theorem Document.depth_le_length (d : Document) : d.depth ≤ d.text.length := by
  match d with
  | .null | .bool _ | .number _ | .string _ => exact Nat.zero_le _
  | .emptyArray gap | .emptyObject gap => simp
  | .array es =>
    have := es.depth_le_length
    simp
    omega
  | .object ms =>
    have := ms.depth_le_length
    simp
    omega

theorem Elements.depth_le_length (es : Elements) : es.depth ≤ es.text.length := by
  match es with
  | .last _ value _ =>
    have := value.depth_le_length
    simp
    omega
  | .more _ value _ rest =>
    have := value.depth_le_length
    have := rest.depth_le_length
    simp
    omega

theorem Members.depth_le_length (ms : Members) : ms.depth ≤ ms.text.length := by
  match ms with
  | .last _ _ _ _ value _ =>
    have := value.depth_le_length
    simp
    omega
  | .more _ _ _ _ value _ rest =>
    have := value.depth_le_length
    have := rest.depth_le_length
    simp
    omega

end

theorem value_complete {d : Document} {v : Json} {after : Gap} (hd : d.Denotes v)
    (hr : d.Stops after r) : value.Reads (d.text ++ (after.1 ++ r)) v r := by
  rw [value, reads_fix]
  refine nested_complete hd ?_ hr
  have hdepth := d.depth_le_length
  rw [List.length_append]
  omega

end Descent.Json
