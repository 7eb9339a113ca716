/-!
# Sets of characters

A set of characters is written as the code points at which membership changes, in increasing order:
the first is the first member, the second the first character after it that is not a member, and so
on. Tables of character properties have this form.
-/

namespace Descent

/-- A set of characters, given by where membership changes. -/
structure CharSet where
  boundaries : List Nat
deriving DecidableEq, Inhabited

namespace CharSet

/-- Whether a code point is a member, knowing whether the code points before the given boundaries
are. -/
def containsFrom (inside : Bool) (code : Nat) : List Nat → Bool
  | [] => inside
  | boundary :: rest => if code < boundary then inside else containsFrom (!inside) code rest

def contains (s : CharSet) (c : Char) : Bool := containsFrom false c.toNat s.boundaries

end CharSet
end Descent
