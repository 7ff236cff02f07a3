import HindiScript.Proofs.Json.Encoding
import HindiScript.Settings.Load

/-!
# Malformed headers in the environment

The headers come from a variable if it is set, and else from the settings file. What a variable holds is passed over if it is
no JSON object, but the variable still stands before the file: the headers of the file are lost, and only the base of
addresses is what it would be without the variable. `load_malformed_variable` says so, and when this makes no difference.
-/

namespace HindiScript.Settings

variable {env : List (String × String)} {content : String}

/-- The text is no JSON, or JSON other than an object. -/
def Malformed (content : String) : Prop := ∀ fields, Json.parse content ≠ some (.obj fields)

/-- `env` without the variable `name`. -/
def unset (name : String) (env : List (String × String)) : List (String × String) := env.filter (·.1 ≠ name)

/-- `file` holds an object, and in it `headers`: an object that is not empty. -/
def GivesHeaders (file : Source) (headers : List (String × Json)) : Prop :=
  ∃ content fields, file = .text content ∧ Json.parse content = some (.obj fields) ∧
    fields.lookup "defaultHeaders" = some (.obj headers) ∧ headers ≠ []

/-! ## Variables -/

theorem lookup_unset_self (name : String) (env : List (String × String)) : (unset name env).lookup name = none := by
  refine List.lookup_eq_none_iff.2 fun e he => ?_
  have hne : e.1 ≠ name := by simpa using (List.mem_filter.1 he).2
  exact bne_iff_ne.2 hne.symm

theorem lookup_unset_other {name name' : String} (h : name' ≠ name) (env : List (String × String)) :
    (unset name env).lookup name' = env.lookup name' :=
  Registry.lookup_filter (fun _ => decide_eq_true h) env

theorem baseUrlFrom_unset (env : List (String × String)) (fields : List (String × Json)) :
    baseUrlFrom (unset headersVariable env) fields = baseUrlFrom env fields := by
  have hname : baseUrlVariable ≠ headersVariable := by decide
  rw [baseUrlFrom, envValue?, lookup_unset_other hname, baseUrlFrom, envValue?]

/-! ## Headers -/

theorem headers_load (file : Source) (env : List (String × String)) :
    (load file env).1.headers = (headerFields (headersFrom env (fileFields file).1).1).1.filter (!·.isEmpty) := rfl

theorem headerFields_eq_some_iff {value : Option Json} {headers : List (String × Json)} :
    (headerFields value).1 = some headers ↔ value = some (.obj headers) := by
  cases value with
  | none => simp [headerFields]
  | some value => cases value <;> simp [headerFields]

theorem given?_eq_some_obj_iff {fields headers : List (String × Json)} {name : String} :
    given? fields name = some (.obj headers) ↔ fields.lookup name = some (.obj headers) ∧ headers ≠ [] := by
  simp [given?, Option.filter_eq_some_iff, Json.isUnset]

theorem lookup_fileFields_eq_some_iff {file : Source} {name : String} {value : Json} :
    (fileFields file).1.lookup name = some value ↔
      ∃ content fields, file = .text content ∧ Json.parse content = some (.obj fields) ∧
        fields.lookup name = some value := by
  cases file with
  | absent => simp [fileFields]
  | unreadable => simp [fileFields]
  | text content =>
    cases hparse : Json.parse content with
    | none => simp [fileFields, hparse]
    | some read => cases read <;> simp [fileFields, hparse]

/-- Without the variable the headers are those of the file. -/
theorem headers_load_eq_some_iff (h : envValue? env headersVariable = none) {file : Source}
    {headers : List (String × Json)} : (load file env).1.headers = some headers ↔ GivesHeaders file headers := by
  rw [headers_load, headersFrom, h, Option.filter_eq_some_iff, headerFields_eq_some_iff, given?_eq_some_obj_iff,
    lookup_fileFields_eq_some_iff]
  constructor
  · rintro ⟨⟨⟨content, fields, hfile, hparse, hlookup⟩, hne⟩, -⟩
    exact ⟨content, fields, hfile, hparse, hlookup, hne⟩
  · rintro ⟨content, fields, hfile, hparse, hlookup, hne⟩
    exact ⟨⟨⟨content, fields, hfile, hparse, hlookup⟩, hne⟩, by simpa using hne⟩

/-- With a malformed variable there are no headers, whatever the file says. -/
theorem headers_load_of_malformed (h : envValue? env headersVariable = some content) (hbad : Malformed content)
    (file : Source) : (load file env).1.headers = none := by
  have hnone : (headerFields (headersFrom env (fileFields file).1).1).1 = none := by
    refine Option.eq_none_iff_forall_ne_some.2 fun headers hheaders => ?_
    rw [headerFields_eq_some_iff, headersFrom, h] at hheaders
    -- Of what can be read, only an object would come through as the headers.
    cases hparse : Json.parse content with
    | none => simp [hparse] at hheaders
    | some value =>
      cases value with
      | obj fields => exact hbad fields hparse
      | _ => simp [hparse] at hheaders
  rw [headers_load, hnone, Option.filter_none]

/-- If `headersVariable` is malformed, the base of addresses is what it is without the variable, but the headers are
only if the variable is empty: any other text in it takes away the headers that the file gives. So `load` ignores the
variable exactly if it is empty or the file gives no headers. -/
theorem load_malformed_variable (hset : env.lookup headersVariable = some content) (hbad : Malformed content)
    (file : Source) :
    let settings := (load file env).1
    let ignoring := (load file (unset headersVariable env)).1
    settings.baseUrl = ignoring.baseUrl ∧
      settings.headers = (if content = "" then ignoring.headers else none) ∧
      (∀ headers, ignoring.headers = some headers ↔ GivesHeaders file headers) ∧
      (settings.baseUrl = ignoring.baseUrl ∧ settings.headers = ignoring.headers ↔
        content = "" ∨ ∀ headers, ¬ GivesHeaders file headers) := by
  intro settings ignoring
  have hbase : settings.baseUrl = ignoring.baseUrl := (baseUrlFrom_unset env _).symm
  have hunset : envValue? (unset headersVariable env) headersVariable = none := by
    rw [envValue?, lookup_unset_self, Option.filter_none]
  have hgiven (headers : List (String × Json)) : ignoring.headers = some headers ↔ GivesHeaders file headers :=
    headers_load_eq_some_iff hunset
  have hheaders : settings.headers = if content = "" then ignoring.headers else none := by
    split
    · next hempty =>
      have henv : envValue? env headersVariable = none := by simp [envValue?, hset, hempty]
      refine Option.ext fun headers => ?_
      rw [hgiven, ← headers_load_eq_some_iff henv]
    · next hne =>
      have henv : envValue? env headersVariable = some content := by simp [envValue?, hset, hne]
      exact headers_load_of_malformed henv hbad file
  refine ⟨hbase, hheaders, hgiven, ?_⟩
  rw [hheaders]
  by_cases hempty : content = ""
  · simp [hempty, hbase]
  · have hnone : none = ignoring.headers ↔ ∀ headers, ¬ GivesHeaders file headers := by
      simp only [← hgiven]
      exact eq_comm.trans Option.eq_none_iff_forall_ne_some
    simp [hempty, hbase, hnone]

/-- A settings file with one header. -/
def headerFile : String := "\x7b\"defaultHeaders\": \x7b\"a\": 1\x7d\x7d"

theorem parse_headerFile : Json.parse headerFile = some (.obj [("defaultHeaders", .obj [("a", .int 1)])]) := by
  have htext : headerFile = Json.encode (.obj [("defaultHeaders", .obj [("a", .int 1)])]) := by decide +kernel
  rw [htext]
  refine Json.parse_encode ⟨by decide, ⟨by decide, ?_, trivial⟩, trivial⟩
  show (Nat.toDigits 10 1).length ≤ Json.maxDigits
  decide

theorem givesHeaders_headerFile : GivesHeaders (.text headerFile) [("a", .int 1)] :=
  ⟨headerFile, _, rfl, parse_headerFile, rfl, List.cons_ne_nil _ _⟩

theorem malformed_array : Malformed "[null]" := by
  have htext : "[null]" = Json.encode (.arr [.null]) := by decide +kernel
  intro fields hparse
  rw [htext, Json.parse_encode (j := .arr [.null]) ⟨trivial, trivial⟩] at hparse
  cases hparse

theorem load_malformed_variable_array :
    Malformed "[null]" ∧ GivesHeaders (.text headerFile) [("a", .int 1)] ∧
      (load (.text headerFile) [(baseUrlVariable, "/api"), (headersVariable, "[null]")]).1.headers = none ∧
      (load .absent [(baseUrlVariable, "/api"), (headersVariable, "[null]")]).1.baseUrl =
        (load .absent (unset headersVariable [(baseUrlVariable, "/api"), (headersVariable, "[null]")])).1.baseUrl := by
  have hset : [(baseUrlVariable, "/api"), (headersVariable, "[null]")].lookup headersVariable = some "[null]" := by decide
  refine ⟨malformed_array, givesHeaders_headerFile, ?_, (load_malformed_variable hset malformed_array .absent).1⟩
  exact (load_malformed_variable hset malformed_array (.text headerFile)).2.1

/-- A brace that is not closed takes away the header that `headerFile` gives. -/
theorem headers_lost_brace :
    Malformed "\x7bbad" ∧
      (load (.text headerFile) [(headersVariable, "\x7bbad")]).1.headers = none ∧
      (load (.text headerFile) (unset headersVariable [(headersVariable, "\x7bbad")])).1.headers =
        some [("a", .int 1)] := by
  have hparse : (Json.parse "\x7bbad").isNone = true := by decide +kernel
  have hbad : Malformed "\x7bbad" := by
    intro fields hfields
    rw [hfields] at hparse
    cases hparse
  refine ⟨hbad, headers_load_of_malformed (by decide) hbad _, ?_⟩
  exact (headers_load_eq_some_iff (by decide)).2 givesHeaders_headerFile

end HindiScript.Settings
