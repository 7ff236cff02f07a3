import HindiScript.Bundle.Files
import HindiScript.Path
import HindiScript.Text.Quoted

/-!
# Disks

Directories and files as an operating system keeps them. A path is followed part by part, so `no/../a` is
there only if `no` is, and nothing is inside a file. Texts are kept as UTF-8; when a file is read, each kind
of line end becomes a line feed.
-/

namespace HindiScript

/-- What a path leads to. -/
inductive Disk.Entry where
  | directory
  | file (bytes : ByteArray)
  deriving Inhabited

/-- Entries by the parts of their paths. The root needs no entry. -/
structure Disk where
  entries : List (List String × Disk.Entry) := []
  cwd : List String := []
  deriving Inhabited

namespace Disk

/-- Why a path cannot be opened. -/
inductive Problem where
  | notFound
  | notADirectory
  | isADirectory
  | nameTooLong
  deriving DecidableEq, Repr

def Problem.code : Problem → Nat × String
  | notFound => (2, "No such file or directory")
  | notADirectory => (20, "Not a directory")
  | isADirectory => (21, "Is a directory")
  | nameTooLong => (36, "File name too long")

/-- The text of a problem with `path`. -/
def Problem.message (p : Problem) (path : String) : String :=
  "[Errno " ++ toString p.code.1 ++ "] " ++ p.code.2 ++ ": " ++ Text.quoted path

def Problem.kind : Problem → String
  | notFound => "FileNotFoundError"
  | notADirectory => "NotADirectoryError"
  | isADirectory => "IsADirectoryError"
  | nameTooLong => "OSError"

/-! ## Following a path -/

def find? (disk : Disk) (place : List String) : Option Entry :=
  if place.isEmpty then some .directory else disk.entries.lookup place

def isDirectory (disk : Disk) (place : List String) : Bool :=
  match disk.find? place with
  | some .directory => true
  | _ => false

/-- The most bytes that a part of a path may have. -/
def maxNameBytes : Nat := 255

/-- The place that the parts of a path lead to from another one. Every place on the way has to be a directory, and a
part has at most `maxNameBytes` bytes. -/
def walk (disk : Disk) : List String → List String → Except Problem (List String)
  | place, [] => .ok place
  | place, part :: rest =>
    if !disk.isDirectory place then .error .notADirectory
    else if part = "" || part = "." then disk.walk place rest
    else if part = ".." then disk.walk place.dropLast rest
    else if maxNameBytes < part.utf8ByteSize then .error .nameTooLong
    else if (disk.find? (place ++ [part])).isNone then .error .notFound
    else disk.walk (place ++ [part]) rest

/-- The parts of a path. -/
def partsOf (path : String) : List String := (Text.pieces '/' path.toList).map String.ofList

/-- Where following `path` starts: at the root or in the working directory. -/
def startOf (disk : Disk) (path : String) : List String :=
  if Path.isAbsolute path then [] else disk.cwd

/-- The place that `path` leads to. -/
def place (disk : Disk) (path : String) : Except Problem (List String) :=
  if path = "" then .error .notFound else disk.walk (disk.startOf path) (partsOf path)

/-- `path` leads to something. -/
def exists? (disk : Disk) (path : String) : Bool :=
  match disk.place path with
  | .ok _ => true
  | .error _ => false

/-- `path` leads to a file. -/
def isFile (disk : Disk) (path : String) : Bool :=
  match disk.place path with
  | .ok place => !disk.isDirectory place
  | .error _ => false

/-! ## Reading and writing -/

/-- The text with a line feed for each line end. -/
def unifyLineEnds : List Char → List Char
  | [] => []
  | '\r' :: '\n' :: rest => '\n' :: unifyLineEnds rest
  | c :: rest => (if c = '\r' then '\n' else c) :: unifyLineEnds rest

/-- The bytes as a text, if they are one. -/
def decode (bytes : ByteArray) : Bundle.Content :=
  match String.fromUTF8? bytes with
  | some text => .text (String.ofList (unifyLineEnds text.toList))
  | none => .undecodable

/-- What the file of `path` holds. -/
def read (disk : Disk) (path : String) : Except Problem Bundle.Content := do
  let place ← disk.place path
  match disk.find? place with
  | some (.file bytes) => return decode bytes
  | some .directory => throw .isADirectory
  | none => throw .notFound

/-- The place where a file of `path` would be written. A path that ends in a slash names no file. -/
def target (disk : Disk) (path : String) : Except Problem (List String) := do
  if path = "" then
    throw .notFound
  let parts := partsOf path
  match parts.reverse.dropWhile (· = "") with
  | [] => throw .isADirectory
  | name :: before =>
    let dir ← disk.walk (disk.startOf path) before.reverse
    if !disk.isDirectory dir then
      throw .notADirectory
    else if name = "." || name = ".." || parts.getLast? = some "" then
      throw .isADirectory
    else if maxNameBytes < name.utf8ByteSize then
      throw .nameTooLong
    else if disk.isDirectory (dir ++ [name]) then
      throw .isADirectory
    else
      return dir ++ [name]

/-- The disk with `entry` put in `place`. -/
def put (disk : Disk) (place : List String) (entry : Entry) : Disk :=
  { disk with entries := (place, entry) :: disk.entries.filter (·.1 ≠ place) }

/-- The disk with the directories on the way to `place`. -/
def makeWay (disk : Disk) (place : List String) : Disk :=
  (List.range (place.length + 1)).foldl (fun disk n =>
    if (disk.find? (place.take n)).isNone then disk.put (place.take n) .directory else disk) disk

/-- The path of a place. -/
def pathOf (place : List String) : String := "/" ++ "/".intercalate place

/-- The files of the disk by their one name. A path that starts with two slashes leads to the same file as with one.
-/
def files (disk : Disk) : Bundle.Files where
  contents := Registry.ofList (disk.entries.flatMap fun (place, entry) =>
    match entry with
    | .file bytes => [(pathOf place, decode bytes), ("/" ++ pathOf place, decode bytes)]
    | .directory => [])

end Disk

end HindiScript
