import Descent.Binary64.Basic

/-!
# JSON documents

The values that JSON texts denote. The members of an object are in order and their keys are
distinct as long as objects are made by insertion; inserting a key again replaces its value and
moves it to the end.
-/

namespace Descent

/-- A JSON value. -/
inductive Json where
  | null
  | bool (value : Bool)
  | number (value : Binary64)
  | string (value : String)
  | array (items : List Json)
  | object (members : List (String × Json))
deriving Inhabited

namespace Json

/-! ## Objects -/

/-- Insert a member after all others. Another member with its key is dropped. -/
def insertMember (members : List (String × Json)) (key : String) (value : Json) :
    List (String × Json) :=
  members.filter (fun member => member.1 != key) ++ [(key, value)]

/-- Insert members one after another, from the first on. -/
def insertMembers (members : List (String × Json)) (added : List (String × Json)) :
    List (String × Json) :=
  added.foldl (fun members member => insertMember members member.1 member.2) members

/-- The object made by inserting members one after another. -/
def ofMembers (members : List (String × Json)) : Json := object (insertMembers [] members)

/-! ## Views -/

def members? : Json → Option (List (String × Json))
  | object members => some members
  | _ => none

def items? : Json → Option (List Json)
  | array items => some items
  | _ => none

def string? : Json → Option String
  | string value => some value
  | _ => none

/-! ## Equality -/

mutual

/-- Equality of values. Numbers are compared as numbers, objects member by member in order. -/
protected def beq : Json → Json → Bool
  | null, null => true
  | bool a, bool b => a == b
  | number x, number y => x == y
  | string s, string t => s == t
  | array xs, array ys => beqItems xs ys
  | object xs, object ys => beqMembers xs ys
  | _, _ => false

def beqItems : List Json → List Json → Bool
  | [], [] => true
  | x :: xs, y :: ys => Json.beq x y && beqItems xs ys
  | _, _ => false

def beqMembers : List (String × Json) → List (String × Json) → Bool
  | [], [] => true
  | (k, x) :: xs, (l, y) :: ys => k == l && Json.beq x y && beqMembers xs ys
  | _, _ => false

end

instance : BEq Json := ⟨Json.beq⟩

end Json
end Descent
