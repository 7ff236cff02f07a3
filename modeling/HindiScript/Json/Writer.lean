import HindiScript.Decimal.Shortest
import HindiScript.Json.Basic
import HindiScript.Json.Quote

/-!
# Writing JSON values

Three ways to write a value: `encode` as JSON in ASCII, `display` as it is shown in a message, and
`outline` as an indented listing.
-/

namespace HindiScript.Json

/-! ## As JSON -/

/-- Doubles in JSON text. -/
def encodedFloat : Decimal.Format := ⟨"NaN", "Infinity"⟩

mutual

/-- The value as JSON in ASCII, with a space after each comma and colon. -/
def encode : Json → String
  | null => "null"
  | bool value => if value then "true" else "false"
  | int value => toString value
  | float value => Decimal.write encodedFloat value
  | str text => quoteAscii text
  | arr items => "[" ++ ", ".intercalate (encodeItems items) ++ "]"
  | obj fields => "\x7b" ++ ", ".intercalate (encodeFields fields) ++ "\x7d"

def encodeItems : List Json → List String
  | [] => []
  | item :: rest => encode item :: encodeItems rest

def encodeFields : List (String × Json) → List String
  | [] => []
  | (name, value) :: rest => (quoteAscii name ++ ": " ++ encode value) :: encodeFields rest

end

/-! ## As shown in a message -/

/-- Doubles in a message. -/
def displayedFloat : Decimal.Format := ⟨"nan", "inf"⟩

mutual

/-- The value as it is shown inside another one: texts in quotes, by `Text.quoted`. -/
def display : Json → String
  | null => "None"
  | bool value => if value then "True" else "False"
  | int value => toString value
  | float value => Decimal.write displayedFloat value
  | str text => Text.quoted text
  | arr items => "[" ++ ", ".intercalate (displayItems items) ++ "]"
  | obj fields => "\x7b" ++ ", ".intercalate (displayFields fields) ++ "\x7d"

def displayItems : List Json → List String
  | [] => []
  | item :: rest => display item :: displayItems rest

def displayFields : List (String × Json) → List String
  | [] => []
  | (name, value) :: rest => (Text.quoted name ++ ": " ++ display value) :: displayFields rest

end

/-- The value as it is shown by itself: a text as it is, all else by `display`. -/
def plain : Json → String
  | str text => text
  | value => display value

/-! ## As a listing -/

/-- The value has lines of its own in an `outline`. -/
def isNested : Json → Bool
  | arr items => !items.isEmpty
  | obj fields => !fields.isEmpty
  | _ => false

/-- Two blanks for each level above zero. -/
def margin (depth : Int) : String := String.ofList (List.replicate (2 * depth.toNat) ' ')

mutual

/-- The value as a listing: a field by its name, an item by a dash, and what they hold one level deeper. The `depth`
may start below zero. -/
def outline (depth : Int) : Json → String
  | arr items => "\n".intercalate (outlineItems depth items)
  | obj fields => "\n".intercalate (outlineFields depth fields)
  | value => margin depth ++ value.plain

def outlineItems (depth : Int) : List Json → List String
  | [] => []
  | item :: rest => (margin depth ++ "-") :: outline (depth + 1) item :: outlineItems depth rest

def outlineFields (depth : Int) : List (String × Json) → List String
  | [] => []
  | (name, value) :: rest =>
    if value.isNested then
      (margin depth ++ name ++ ":") :: outline (depth + 1) value :: outlineFields depth rest
    else
      (margin depth ++ name ++ ": " ++ value.plain) :: outlineFields depth rest

end

end HindiScript.Json
