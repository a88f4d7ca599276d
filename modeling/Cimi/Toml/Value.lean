/-!
# TOML values

A TOML document is a table.  Settings are texts and whole numbers, so of a value of another kind
only the kind is kept.
-/

namespace Cimi.Toml

/-- A TOML value. -/
inductive Value where
  | string (text : String)
  | integer (n : Int)
  /-- A number with a fraction or an exponent, an infinity, or no number. -/
  | real
  | boolean
  /-- A date, a time of day, or both. -/
  | moment
  | array (items : List Value)
  | table (fields : List (String × Value))
deriving Repr

end Cimi.Toml
