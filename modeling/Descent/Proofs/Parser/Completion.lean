import Descent.Parser.Completion
import Descent.Proofs.Parser.Composition

/-!
# Reading a whole text

What is left after a value is the end of the text it was read from, so the offset at which a value
ended is the number of bytes before what is left, and no subtraction goes below zero. Reading a
whole text then says no more and no less than reading a value and wanting the text to end there.
-/

namespace Descent

/-! ## Bytes -/

namespace Text

theorem byteLength_eq_size (t : Text) : t.byteLength = t.utf8Encode.size := by
  have h (n : Nat) : t.foldl (fun bytes c => bytes + c.utf8Size) n = n + t.utf8Encode.size := by
    induction t generalizing n with
    | nil => rfl
    | cons c t ih =>
      rw [List.foldl_cons, ih, List.utf8Encode_cons, ByteArray.size_append, Nat.add_assoc,
        List.utf8Encode_singleton, List.size_toByteArray, String.length_utf8EncodeChar]
  simpa [byteLength] using h 0

theorem byteLength_append (s t : Text) : (s ++ t).byteLength = s.byteLength + t.byteLength := by
  simp only [byteLength_eq_size, List.utf8Encode_append, ByteArray.size_append]

/-- A text begins with the bytes of its first part. -/
theorem extract_utf8Encode_append (s t : Text) :
    (s ++ t).utf8Encode.extract 0 s.byteLength = s.utf8Encode := by
  rw [byteLength_eq_size, List.utf8Encode_append, ByteArray.extract_append_size_left,
    ByteArray.extract_zero_size]

end Text

namespace Parser

variable {α : Type} {p : Parser α} {s r : Text} {a : α}

/-! ## The end of the text -/

theorem reads_thenSkip_ending : (p.thenSkip ending).Reads s a r ↔ p.Reads s a [] ∧ r = [] := by
  rw [reads_thenSkip]
  constructor
  · intro h
    obtain ⟨t, ⟨⟩, ha, hend⟩ := h
    cases t with
    | nil =>
      cases hend
      exact ⟨ha, rfl⟩
    | cons => cases hend
  · intro h
    obtain ⟨ha, rfl⟩ := h
    exact ⟨[], (), ha, rfl⟩

/-- Text that is left over is what the failure quotes. -/
theorem Reads.outcome_thenSkip_ending (h : p.Reads s a r) (hr : r ≠ []) :
    (p.thenSkip ending s).outcome = .failure (Cause.trailing r) := by
  have hp : (p s).outcome = .success a r := h
  cases r with
  | nil => exact absurd rfl hr
  | cons c r =>
    simp only [thenSkip, Reply.next, hp]
    rfl

/-! ## Completion -/

theorem parseComplete_eq_rejected_iff {f : Failure} :
    p.parseComplete s = .rejected f ↔ (p s).outcome = .failure f := by
  rcases h : (p s).outcome with ⟨b, t⟩ | g | _
  · cases t <;> simp [parseComplete, complete, h]
  · simp [parseComplete, complete, h]
  · simp [parseComplete, complete, h]

theorem parseComplete_eq_incomplete_iff {offset : Nat} :
    p.parseComplete s = .incomplete offset r ↔
      (∃ a, p.Reads s a r) ∧ r ≠ [] ∧ offset = s.byteLength - r.byteLength := by
  rcases h : (p s).outcome with ⟨b, t⟩ | g | _
  · cases t with
    | nil =>
      simp only [parseComplete, complete, h, Reads]
      constructor
      · rintro ⟨⟩
      · rintro ⟨⟨a, ⟨⟩⟩, hr, -⟩
        exact absurd rfl hr
    | cons c t =>
      simp only [parseComplete, complete, h, Reads]
      constructor
      · rintro ⟨⟩
        exact ⟨⟨b, rfl⟩, List.cons_ne_nil c t, rfl⟩
      · rintro ⟨⟨a, ⟨⟩⟩, -, rfl⟩
        rfl
  · simp [parseComplete, complete, h, Reads]
  · simp [parseComplete, complete, h, Reads]

/-- Where text is left over, the offset is that of its first byte. -/
theorem Composed.parseComplete_of_reads {silent : Bool} (hp : p.Composed silent)
    (h : p.Reads s a r) (hr : r ≠ []) :
    ∃ before : Text, s = before ++ r ∧ p.parseComplete s = .incomplete before.byteLength r := by
  obtain ⟨before, rfl⟩ := hp.suffix h
  refine ⟨before, rfl, ?_⟩
  have hread : (p (before ++ r)).outcome = .success a r := h
  have hoffset : Text.byteLength (before ++ r) - r.byteLength = Text.byteLength before := by
    rw [Text.byteLength_append, Nat.add_sub_cancel]
  cases r with
  | nil => exact absurd rfl hr
  | cons c r => simp [parseComplete, complete, hread, hoffset]

/-- What is left takes no more bytes than there were. -/
theorem Composed.byteLength_le {silent : Bool} (hp : p.Composed silent) (h : p.Reads s a r) :
    r.byteLength ≤ s.byteLength := by
  obtain ⟨before, rfl⟩ := hp.suffix h
  rw [Text.byteLength_append]
  omega

/-- A run that ends and is neither complete nor rejected leaves text over. -/
theorem Composed.exists_incomplete {silent : Bool} (hp : p.Composed silent)
    (hends : (p s).outcome ≠ .diverges) (hcomplete : ∀ a, p.parseComplete s ≠ .complete a)
    (hrejected : ∀ f, p.parseComplete s ≠ .rejected f) :
    ∃ (before remaining : Text) (a : α), p.Reads s a remaining ∧ remaining ≠ [] ∧
      s = before ++ remaining ∧ p.parseComplete s = .incomplete before.byteLength remaining := by
  rcases h : (p s).outcome with ⟨a, r⟩ | f | _
  · have hr : r ≠ [] := by
      rintro rfl
      exact hcomplete a (parseComplete_eq_complete_iff.mpr h)
    obtain ⟨before, hs, hincomplete⟩ := hp.parseComplete_of_reads h hr
    exact ⟨before, r, a, h, hr, hs, hincomplete⟩
  · exact absurd (parseComplete_eq_rejected_iff.mpr h) (hrejected f)
  · exact absurd h hends

end Parser
end Descent
