/-
  DesignMarkup/Json/Value.lean
  ============================
  **JSON values.**  A number keeps apart whether it was an integer within 64 bits
  or a double.  An object is the list of its members in ascending order of their
  keys, each key once: `insertMember` keeps it so, a later member taking the place
  of an earlier one of the same key.
-/

namespace DesignMarkup.Json

/-- A number: an integer that fits 64 bits, or a double. -/
inductive Number where
  | integer (value : Int)
  | float (value : Float)
deriving Repr, Inhabited

def Number.toFloat : Number → Float
  | .integer (.ofNat n) => Float.ofNat n
  | .integer (.negSucc n) => -(Float.ofNat (n + 1))
  | .float x => x

inductive Value where
  | null
  | boolean (value : Bool)
  | number (value : Number)
  | string (value : String)
  | array (items : List Value)
  | object (members : List (String × Value))
deriving Inhabited

/-- Put a member in its place among members in ascending order of keys. -/
def insertMember {α : Type} (key : String) (value : α) :
    List (String × α) → List (String × α)
  | [] => [(key, value)]
  | (k, v) :: rest =>
    if key < k then (key, value) :: (k, v) :: rest
    else if key = k then (key, value) :: rest
    else (k, v) :: insertMember key value rest

/-- The members of a list of key and value pairs, the last of equal keys winning. -/
def sortMembers {α : Type} (pairs : List (String × α)) : List (String × α) :=
  pairs.foldl (fun members pair => insertMember pair.1 pair.2 members) []

end DesignMarkup.Json
