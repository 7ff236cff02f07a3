import HindiScript.Json.Reader
import HindiScript.Settings.Basic

/-!
# Where settings come from

Settings come from environment variables, then from a file in the working directory, then from defaults.
What is malformed is passed over with a notice.
-/

namespace HindiScript.Settings

/-- The name of the settings file. -/
def fileName : String := "shar.config.json"

/-- The variable that holds the base of relative addresses. -/
def baseUrlVariable : String := "SHAR_BASE_URL"

/-- The variable that holds headers, as JSON. -/
def headersVariable : String := "SHAR_DEFAULT_HEADERS"

/-- What stands in the place of the settings file. -/
inductive Source where
  | absent
  /-- Something that cannot be opened or is no text. -/
  | unreadable
  | text (content : String)
  deriving DecidableEq, Repr

/-- Something malformed that was passed over. -/
inductive Notice where
  /-- The file is not readable as JSON. -/
  | unreadableFile
  /-- The file holds something other than an object. -/
  | notAnObject
  /-- The variable for headers is not readable as JSON. -/
  | badVariable
  /-- The headers are something other than an object. -/
  | badHeaders (kind : String)
  deriving DecidableEq, Repr

/-- The text of a notice about the file of `path`. The `reason` why something is not readable is told by whoever read
it. -/
def Notice.message (path reason : String) : Notice → String
  | unreadableFile => "ignoring unreadable config " ++ path ++ ": " ++ reason
  | notAnObject => "ignoring config " ++ path ++ ": top level must be an object"
  | badVariable => "ignoring " ++ headersVariable ++ ": " ++ reason
  | badHeaders kind => "default headers must be an object, got " ++ kind

/-- The fields of the settings file. -/
def fileFields : Source → List (String × Json) × List Notice
  | .absent => ([], [])
  | .unreadable => ([], [.unreadableFile])
  | .text content =>
    match Json.parse content with
    | none => ([], [.unreadableFile])
    | some (.obj fields) => (fields, [])
    | some _ => ([], [.notAnObject])

/-- The field of this `name`, if it counts as given (`Json.isUnset`). -/
def given? (fields : List (String × Json)) (name : String) : Option Json :=
  (fields.lookup name).filter (!·.isUnset)

/-- The variable of this `name`, if it is not empty. -/
def envValue? (env : List (String × String)) (name : String) : Option String :=
  (env.lookup name).filter (· ≠ "")

/-- The base of relative addresses: `baseUrlVariable`, or else the field of the file. -/
def baseUrlFrom (env : List (String × String)) (fields : List (String × Json)) : String :=
  match envValue? env baseUrlVariable with
  | some url => url
  | none => (given? fields "baseUrl").elim "" Json.plain

/-- The value that is to be the headers: that of `headersVariable` if there is one, even if it is malformed. -/
def headersFrom (env : List (String × String)) (fields : List (String × Json)) :
    Option Json × List Notice :=
  match envValue? env headersVariable with
  | none => (given? fields "defaultHeaders", [])
  | some content =>
    match Json.parse content with
    | none => (none, [.badVariable])
    | some .null => (none, [])
    | some value => (some value, [])

/-- The headers, which are an object. -/
def headerFields : Option Json → Option (List (String × Json)) × List Notice
  | none => (none, [])
  | some (.obj fields) => (some fields, [])
  | some value => (none, [.badHeaders value.kind])

/-- The settings that `file` and `env` give, and what was passed over. -/
def load (file : Source) (env : List (String × String)) : Settings × List Notice :=
  let (fields, fileNotices) := fileFields file
  let (value, valueNotices) := headersFrom env fields
  let (headers, headerNotices) := headerFields value
  (ofParts (baseUrlFrom env fields) headers, fileNotices ++ valueNotices ++ headerNotices)

end HindiScript.Settings
