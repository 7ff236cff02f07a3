import HindiScript.Json.Writer

/-!
# Settings of the generated program

What a generated program is told about fetching: the base of relative addresses, and headers that every
request carries.
-/

namespace HindiScript

/-- The settings for fetching. -/
structure Settings where
  baseUrl : String := ""
  headers : Option (List (String × Json)) := none
  deriving Inhabited

namespace Settings

/-- Settings with these `headers`; an empty list is the same as none. -/
def ofParts (baseUrl : String) (headers : Option (List (String × Json))) : Settings :=
  { baseUrl, headers := headers.filter (!·.isEmpty) }

/-- The headers as a value, null if there are none. -/
def headersValue (s : Settings) : Json :=
  match s.headers with
  | some fields => .obj fields
  | none => .null

def display (s : Settings) : String :=
  "FetchConfig(base_url=" ++ Text.quoted s.baseUrl ++ ", default_headers=" ++ s.headersValue.display ++ ")"

end Settings

end HindiScript
