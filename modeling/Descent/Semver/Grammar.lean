import Descent.Lexeme
import Descent.Parser.Completion
import Descent.Semver.Basic

/-!
# The version grammar

Version strings as a grammar of ordered alternatives. An identifier of a pre-release is tried as one
with a letter or a hyphen in it before it is tried as a number, so that digits at its beginning do
not cut it short. A separator after which no identifier follows is left behind.
-/

namespace Descent.Version

open Descent.Parser

/-! ## Identifiers -/

def positiveDigit : Parser Char := satisfy fun c => '1' ≤ c && c ≤ '9'

def nonDigit : Parser Char := Lexeme.letter.orElse (char '-')

def identifierChar : Parser Char := Lexeme.digit.orElse nonDigit

/-- A zero, or digits that do not begin with one. -/
def numericIdentifier : Parser String :=
  (literal "0").orElse
    ((positiveDigit.both (many Lexeme.digit)).map fun (first, rest) =>
      String.ofList (first :: rest))

/-- Characters of identifiers with one among them that is no digit. -/
def alphanumericIdentifier : Parser String :=
  (((many Lexeme.digit).both nonDigit).both (many identifierChar)).map
    fun ((leading, c), rest) => String.ofList (leading ++ c :: rest)

def preReleaseIdentifiers : Parser (List String) :=
  (alphanumericIdentifier.orElse numericIdentifier).sepBy1 (char '.')

def buildIdentifiers : Parser (List String) :=
  (alphanumericIdentifier.orElse (Lexeme.digits.map String.ofList)).sepBy1 (char '.')

/-! ## Versions -/

def coreNumber : Parser UInt64 :=
  numericIdentifier.convert fun digits =>
    (Lexeme.convertNumeral (.unsigned 64) digits.toList).map fun n => UInt64.ofNat n.toNat

/-- The three numbers, with dots between them. -/
def core : Parser (UInt64 × UInt64 × UInt64) :=
  ((((coreNumber.thenSkip (char '.')).both coreNumber).thenSkip (char '.')).both coreNumber).map
    fun ((major, minor), patch) => (major, minor, patch)

/-- The name of the rule for versions in events. -/
def versionName : String := "semver"

/-- A version. More text may follow. -/
def parser : Parser Version :=
  traced versionName
    (((core.both ((char '-').skipThen preReleaseIdentifiers).optional).both
      ((char '+').skipThen buildIdentifiers).optional).map
        fun (((major, minor, patch), preRelease), build) =>
          { major, minor, patch, preRelease := preRelease.getD [], build := build.getD [] })

def parse (input : Text) : Completion Version := parser.parseComplete input

end Descent.Version
