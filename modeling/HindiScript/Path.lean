import HindiScript.Text.Lines

/-!
# Paths

Paths as texts with slashes. `canonical` gives each file one name: absolute, without empty, `.` and `..`
parts. A path that starts with exactly two slashes keeps both.
-/

namespace HindiScript.Path

/-! ## Parts of a path -/

def isAbsolute (path : String) : Bool := path.toList.head? = some '/'

/-- `path` behind the directory `dir`; an absolute path stands by itself. -/
def join (dir path : String) : String :=
  if isAbsolute path then path
  else if dir = "" || dir.toList.getLast? = some '/' then dir ++ path
  else dir ++ "/" ++ path

/-- The characters behind the last slash. -/
def nameChars (cs : List Char) : List Char := (cs.reverse.takeWhile (· ≠ '/')).reverse

/-- The last part of a path. -/
def fileName (path : String) : String := String.ofList (nameChars path.toList)

/-- The directory of a path: what stands before its last part, without the slashes at the end unless it is
nothing but slashes. -/
def directory (path : String) : String :=
  let head := path.toList.take (path.toList.length - (nameChars path.toList).length)
  if head.all (· = '/') then String.ofList head
  else String.ofList (head.reverse.dropWhile (· = '/')).reverse

/-- `path` without the extension of its last part. Dots at the start of a name start no extension. -/
def withoutExtension (path : String) : String :=
  let cs := path.toList
  let name := nameChars cs
  let extension := (name.reverse.takeWhile (· ≠ '.')).length + 1
  if '.' ∈ name && (name.take (name.length - extension)).any (· ≠ '.') then
    String.ofList (cs.take (cs.length - extension))
  else path

/-! ## One name for each file -/

/-- The slashes that a path starts with, of which two are kept and three or more count as one. -/
def rootSlashes : List Char → List Char
  | '/' :: '/' :: '/' :: _ => ['/']
  | '/' :: '/' :: _ => ['/', '/']
  | '/' :: _ => ['/']
  | _ => []

/-- The parts of a path, the last one first, with one part more. A `..` takes away the part before it;
there is nothing above the root. -/
def addPart (absolute : Bool) (parts : List (List Char)) (part : List Char) : List (List Char) :=
  if part = [] || part = ['.'] then parts
  else if part = ['.', '.'] then
    match parts with
    | [] => if absolute then [] else [part]
    | last :: before => if last = ['.', '.'] then part :: parts else before
  else part :: parts

/-- The path without empty and `.` parts, and with `..` only at its start. -/
def normalize (path : String) : String :=
  let cs := path.toList
  let root := rootSlashes cs
  let parts := ((Text.pieces '/' cs).foldl (addPart (!root.isEmpty)) []).reverse
  let result := root ++ ['/'].intercalate parts
  if result.isEmpty then "." else String.ofList result

/-- The one name of `path`, seen from the working directory `cwd`: joined, then normalised. -/
def canonical (cwd path : String) : String := normalize (normalize (join cwd path))

end HindiScript.Path
