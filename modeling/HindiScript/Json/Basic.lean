/-!
# JSON values

The values of a settings file. An object keeps its fields in the order in which their names first
came, and each name once.
-/

namespace HindiScript

/-- A JSON value. Numbers with a point or an exponent are doubles (`float`), all others are integers (`int`). -/
inductive Json where
  | null
  | bool (value : Bool)
  | int (value : Int)
  | float (value : Float)
  | str (text : String)
  | arr (items : List Json)
  | obj (fields : List (String × Json))
  deriving Inhabited

namespace Json

/-- The name of the kind of value. -/
def kind : Json → String
  | null => "NoneType"
  | bool _ => "bool"
  | int _ => "int"
  | float _ => "float"
  | str _ => "str"
  | arr _ => "list"
  | obj _ => "dict"

/-- The value counts as not given: it is null, false, zero or empty. -/
def isUnset : Json → Bool
  | null => true
  | bool value => !value
  | int value => value = 0
  | float value => value == 0.0
  | str text => text.isEmpty
  | arr items => items.isEmpty
  | obj fields => fields.isEmpty

end Json

end HindiScript
