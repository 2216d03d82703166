/-!
# JSON values

Integers and decimals are different values (`2` and `2.0`), and an object keeps its members in the
order in which their keys first appeared.
-/

namespace LineCalc

/-- A JSON value. -/
inductive Json
  | null
  | bool (b : Bool)
  | integer (n : Int)
  | decimal (x : Float)
  | string (s : String)
  | array (items : List Json)
  | object (members : List (String × Json))
deriving Inhabited

namespace Json

/-- The members of an object. -/
def members? : Json → Option (List (String × Json))
  | object ms => some ms
  | _ => none

/-- A member of an object. -/
def get? (j : Json) (key : String) : Option Json :=
  match j with
  | object ms => ms.lookup key
  | _ => none

/-- The value is one that counts as true: not null, false, zero or without content. -/
def truthy : Json → Bool
  | null => false
  | bool b => b
  | integer n => n != 0
  | decimal x => x != 0
  | string s => !s.isEmpty
  | array items => !items.isEmpty
  | object ms => !ms.isEmpty

end Json

end LineCalc
