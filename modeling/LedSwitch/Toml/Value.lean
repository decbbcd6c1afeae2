import LedSwitch.Decimal.Binary64
import LedSwitch.Keyed
import LedSwitch.Toml.DateTime

/-!
The values of a TOML document.
-/

namespace LedSwitch.Toml

/-- A value. The entries of a table stand in the order of their keys. -/
inductive Value where
  | boolean (value : Bool)
  | integer (value : Int64)
  | float (value : Binary64)
  | string (text : String)
  | moment (moment : DateTime)
  | array (elements : List Value)
  | table (entries : List (String × Value))
  deriving Inhabited

/-- The values of a table by their keys. -/
abbrev Table := Keyed Value

/-- The truth value that a value is, if it is one. -/
def Value.bool? : Value → Option Bool
  | .boolean value => some value
  | _ => none

/-- The key by which a table stands for a date or time: a table that begins with it holds the text of one. -/
def momentKey : String := "$__toml_private_datetime"

end LedSwitch.Toml
