import HindiScript.Registry

/-!
# Files

The files that a build can see, by their paths. A path may exist and yet not be readable.
-/

namespace HindiScript.Bundle

/-- What a file holds. -/
inductive Content where
  | text (source : String)
  /-- Bytes that are no text. -/
  | undecodable
  deriving DecidableEq, Repr

/-- Files by their paths, and the paths that exist but cannot be opened. -/
structure Files where
  contents : Registry Content := {}
  unreadable : List String := []
  deriving Inhabited

namespace Files

/-- The path has a file, be it one that cannot be opened. -/
def exists? (files : Files) (path : String) : Bool :=
  files.contents.contains path || path ∈ files.unreadable

/-- What the file of `path` holds, if it can be opened. -/
def read? (files : Files) (path : String) : Option Content :=
  if path ∈ files.unreadable then none else files.contents.find? path

/-- The files with the text `source` written to `path`. -/
def write (files : Files) (path source : String) : Files :=
  { files with contents := files.contents.insert path (.text source) }

def erase (files : Files) (path : String) : Files :=
  { files with contents := files.contents.erase path }

end Files

end HindiScript.Bundle
