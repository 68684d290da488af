/-!
The values of a TOML document.
-/

namespace ReplicaRing.Toml

inductive Value where
  | string (text : String)
  | integer (n : Int)
  | float (x : Float)
  | boolean (b : Bool)
  /-- A date, a time or both, as it is written. -/
  | datetime (literal : String)
  | array (items : List Value)
  | table (fields : List (String × Value))
  deriving Inhabited

end ReplicaRing.Toml
