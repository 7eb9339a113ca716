/-!
# Text and snippets of it

The text that parsers read, as its characters in order. Two measures of it appear in diagnostics:
the *snippet*, which quotes the beginning of a text and stays short however long the text is, and
the length in UTF-8 bytes, by which offsets are counted.
-/

namespace Descent

/-- Text as its characters in order: what a parser reads, and what it leaves behind. -/
abbrev Text : Type := List Char

namespace Text

/-- The number of characters that a snippet quotes. -/
def snippetLength : Nat := 10

/-- The beginning of a text as a diagnostic quotes it: the text itself when it has at most
`snippetLength` characters, and otherwise its first `snippetLength` characters and three dots. -/
def snippet (t : Text) : String :=
  if (t.drop snippetLength).isEmpty then String.ofList t
  else String.ofList (t.take snippetLength) ++ "..."

/-- A short text is its own snippet. -/
theorem snippet_of_length_le {t : Text} (h : t.length ≤ snippetLength) :
    t.snippet = String.ofList t := by
  simp [snippet, List.drop_eq_nil_of_le h]

/-- The snippet of a long text is cut. -/
theorem snippet_of_lt_length {t : Text} (h : snippetLength < t.length) :
    t.snippet = String.ofList (t.take snippetLength) ++ "..." := by
  have hd : t.drop snippetLength ≠ [] := by
    intro hn
    have := List.drop_eq_nil_iff.1 hn
    omega
  simp [snippet, List.isEmpty_iff, hd]

/-- The number of bytes that the UTF-8 encoding of a text takes. -/
def byteLength (t : Text) : Nat :=
  t.foldl (fun bytes c => bytes + c.utf8Size) 0

end Text
end Descent
