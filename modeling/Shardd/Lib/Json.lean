import Mathlib.Tactic.Common

/-!
# JSON values

A value is as a parser leaves it; the entries of an object are looked up by their keys.
-/

namespace Shardd

inductive Json
  | null
  | bool (b : Bool)
  | posInt (n : UInt64)
  | negInt (n : Int64)
  /-- A number that is no integer of 64 bits, by its text. -/
  | float (text : String)
  | string (s : String)
  | array (items : List Json)
  | object (entries : List (String × Json))

namespace Json

def get (key : String) : Json → Option Json
  | object entries => (entries.find? (·.1 = key)).map (·.2)
  | _ => none

def asStr : Json → Option String
  | string s => some s
  | _ => none

def asU64 : Json → Option UInt64
  | posInt n => some n
  | _ => none

def asArray : Json → Option (List Json)
  | array items => some items
  | _ => none

/-- The text under a key. -/
def text (key : String) (j : Json) : Option String := (j.get key).bind asStr

end Json

end Shardd
