import HindiScript.Token.Cursor

/-!
# What happens in a build

A build notes what it does: steps, which are of interest when something goes wrong, and warnings about
imports. It ends with an error only if a file cannot be turned into tokens or the program to build is not
there.
-/

namespace HindiScript.Bundle

/-! ## Warnings -/

/-- A doubt about an import. -/
inductive Warning where
  /-- An import stands below the top level. -/
  | nested (line : Option Int)
  /-- An import names no source. -/
  | noSource (line : Option Int)
  /-- The source of an import is not there. -/
  | notFound (source : String)
  /-- A module imports one that waits for it. -/
  | circular (path : String)
  /-- An imported file cannot be opened. -/
  | unreadable (path : String)
  /-- A name is bound by an earlier import already. -/
  | duplicate (name source : String)
  /-- An imported name is not exported. -/
  | notExported (source name : String)
  deriving DecidableEq, Repr

/-- A line in a message. -/
def lineText (line : Option Int) : String := line.elim "None" toString

def Warning.message : Warning → String
  | nested line => "Import ignored: only top-level imports are resolved (line " ++ lineText line ++ ")"
  | noSource line => "Import without a source path (line " ++ lineText line ++ ")"
  | notFound source => "Imported file not found: " ++ source
  | circular path => "Circular import ignored: " ++ path
  | unreadable path => "Cannot read imported file: " ++ path
  | duplicate name source => "Duplicate import binding '" ++ name ++ "' from " ++ source
  | notExported source name => "Module " ++ source ++ " does not export '" ++ name ++ "'"

/-- The words that `Warning.message` starts with for a warning of this kind. -/
def Warning.stem : Warning → String
  | nested _ => "Import ignored:"
  | noSource _ => "Import without a source path"
  | notFound _ => "Imported file not found:"
  | circular _ => "Circular import ignored:"
  | unreadable _ => "Cannot read imported file:"
  | duplicate .. => "Duplicate import binding "
  | notExported .. => "Module "

def Warning.stems : List String :=
  ["Import ignored:", "Import without a source path", "Imported file not found:", "Circular import ignored:",
    "Cannot read imported file:", "Duplicate import binding ", "Module "]

/-- `Warning.message` starts with the text. -/
def Warning.startsWith (w : Warning) (start : String) : Bool := start.toList.isPrefixOf w.message.toList

theorem Warning.stem_mem (w : Warning) : w.stem ∈ stems := by cases w <;> simp [stem, stems]

theorem Warning.startsWith_stem (w : Warning) : w.startsWith w.stem = true := by
  unfold startsWith
  rw [List.isPrefixOf_iff_prefix]
  cases w <;> unfold message stem <;> simp only [String.append_assoc] <;> rw [String.toList_append] <;>
    refine List.IsPrefix.trans ?_ (List.prefix_append ..) <;> decide +kernel

/-- No stem starts with another one, so a text starts with the stem of its kind only. -/
theorem Warning.startsWith_iff {start : String} (hs : start ∈ stems) (w : Warning) :
    w.startsWith start = true ↔ w.stem = start := by
  constructor
  · intro h
    have apart : ∀ a ∈ stems, ∀ b ∈ stems, a.toList <+: b.toList → a = b := by decide +kernel
    rcases List.prefix_or_prefix_of_prefix (List.isPrefixOf_iff_prefix.1 h)
      (List.isPrefixOf_iff_prefix.1 w.startsWith_stem) with hp | hp
    · exact (apart _ hs _ w.stem_mem hp).symm
    · exact apart _ w.stem_mem _ hs hp
  · rintro rfl
    exact w.startsWith_stem

/-! ## Events -/

/-- Something that a build notes. -/
inductive Event where
  | specLoaded (path : String)
  | started (label : String)
  | parsed (label : String) (statements : Nat)
  | cached (path : String)
  | compiled (name : String)
  | done (modules hits : Nat)
  | warned (warning : Warning)
  deriving DecidableEq, Repr

namespace Event

/-- The warning that an event is. -/
def warning? : Event → Option Warning
  | warned warning => some warning
  | _ => none

/-- The text of an event. How long the step took, in milliseconds, is told by whoever kept it, in `elapsed`. -/
def message (elapsed : String) : Event → String
  | specLoaded path => "loaded type spec " ++ path
  | started label => "build start: " ++ label
  | parsed label statements =>
    "parsed " ++ label ++ " in " ++ elapsed ++ "ms (" ++ toString statements ++ " statements)"
  | cached path => "using cached module: " ++ path
  | compiled name => "compiled module " ++ name ++ " in " ++ elapsed ++ "ms"
  | done modules hits =>
    "build done in " ++ elapsed ++ "ms: " ++ toString modules ++ " module(s), " ++ toString hits
      ++ " cache hit(s)"
  | warned warning => warning.message

end Event

/-! ## Errors -/

/-- The text of an error about `path`, with or without a reason. -/
def importError (path : String) (reason : Option String) : String :=
  match reason with
  | some reason =>
    if reason = "" then "Import error: \"" ++ path ++ "\""
    else "Import error: " ++ reason ++ " \"" ++ path ++ "\""
  | none => "Import error: \"" ++ path ++ "\""

/-- Why a build ends without a result. -/
inductive Failure where
  /-- The program to build is not there. -/
  | rootNotFound (path : String)
  /-- A file holds a number that is too long. -/
  | badToken (error : Cursor.ReadError)
  /-- A file is no text. -/
  | undecodable (path : String)
  /-- A module was finished twice. -/
  | alreadyCached (path : String)
  /-- Modules are nested more deeply than there are files. -/
  | tooDeep
  deriving DecidableEq, Repr

def Failure.message : Failure → String
  | rootNotFound path => importError path (some "file not found")
  | badToken error => error.message
  | undecodable path => "not a text: " ++ path
  | alreadyCached path => Text.quoted ("module already cached: " ++ path)
  | tooDeep => "modules are nested too deeply"

end HindiScript.Bundle
