import Descent.Numeral

/-!
# Semantic versions

A version has three numbers, and lists of identifiers for the pre-release and for the build. The
type does not restrict the identifiers; the grammar does.
-/

namespace Descent

/-- A semantic version. -/
structure Version where
  major : UInt64
  minor : UInt64
  patch : UInt64
  /-- The identifiers after `-`. -/
  preRelease : List String := []
  /-- The identifiers after `+`. -/
  build : List String := []
deriving DecidableEq, Inhabited

namespace Version

def isPreRelease (v : Version) : Bool := !v.preRelease.isEmpty

/-- A list of identifiers with dots between them, after a mark; nothing if the list is empty. -/
def writeIdentifiers (mark : Char) : List String → List Char
  | [] => []
  | identifiers => mark :: ['.'].intercalate (identifiers.map String.toList)

/-- The text of a version, as its characters. -/
def write (v : Version) : List Char :=
  Numeral.ofNat v.major.toNat ++ '.' :: Numeral.ofNat v.minor.toNat ++ '.' ::
    Numeral.ofNat v.patch.toNat ++ writeIdentifiers '-' v.preRelease ++
    writeIdentifiers '+' v.build

def render (v : Version) : String := String.ofList v.write

end Version
end Descent
