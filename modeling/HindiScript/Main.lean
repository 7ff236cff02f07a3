import HindiScript.Command

/-!
# The program

Copies from the operating system what a command can look at, runs the command on the copy, and prints and
writes what the command gives.
-/

namespace HindiScript.Command

/-! ## What a command can look at -/

/-- The places that following a path goes through. -/
def placesOn (disk : Disk) (path : String) : List (List String) :=
  let step (place : List String) (part : String) : List String :=
    if part = "" || part = "." then place
    else if part = ".." then place.dropLast
    else place ++ [part]
  let parts := Disk.partsOf path
  (List.range (parts.length + 1)).map fun n => (parts.take n).foldl step (disk.startOf path)

/-- The paths at which the imports of the program `source` in the file of `path` may be found. -/
def importPaths (ws : Bundle.Workspace) (path source : String) : List String :=
  match parseText source with
  | .error _ => []
  | .ok program => program.body.flatMap fun
    | .importDecl _ (some wanted) _ =>
      let first := Bundle.candidate ws wanted (some path)
      [first, first ++ ws.extension]
    | _ => []

def copyPlace (disk : Disk) (place : List String) : IO Disk := do
  if (disk.find? place).isSome then
    return disk
  try
    let real ← IO.FS.realPath (Disk.pathOf place)
    if ← real.isDir then
      return disk.put place .directory
    else
      return disk.put place (.file (← IO.FS.readBinFile real))
  catch _ => return disk

/-- Copies what `path` leads to and what is on the way there. -/
def copyPath (disk : Disk) (path : String) : IO Disk := (placesOn disk path).foldlM copyPlace disk

/-- Copies the files of the paths and, from file to file, what they import. -/
partial def copyImports (cwd : String) (seen : List String) (disk : Disk) : List String → IO Disk
  | [] => return disk
  | path :: rest => do
    if path ∈ seen then
      copyImports cwd seen disk rest
    else
      let disk ← copyPath disk path
      let further :=
        match disk.read path with
        | .ok (.text source) => importPaths { cwd } path source
        | _ => []
      copyImports cwd (path :: seen) disk (further ++ rest)

/-- Copies what a command with these arguments can look at. -/
def copyMachine (args : List String) : IO Machine := do
  let here ← IO.FS.realPath "."
  let cwd := (Disk.partsOf here.toString).filter (· ≠ "")
  let env ← [Settings.baseUrlVariable, Settings.headersVariable].filterMapM fun name => do
    return (← IO.getEnv name).map fun value => (name, value)
  let empty : Machine := ⟨{ cwd }, env⟩
  let mut disk ← [empty.cwd, empty.settingsPath].foldlM copyPath empty.disk
  if let some a := Arguments.parse args then
    disk ← (a.words.drop 1 ++ a.out.toList).foldlM copyPath disk
    for path in a.words.drop 1 do
      let root := Path.canonical empty.cwd path
      disk ← copyPath disk (Bundle.specPath root)
      disk ← copyImports empty.cwd [] disk [root]
  return ⟨disk, env⟩

/-! ## Telling the outcome -/

/-- The text of an error that ends a command. -/
def Crash.message : Crash → String
  | badToken error => error.message
  | undecodable => "the file is no text"
  | internal failure => failure.message

/-- Prints and writes what a command left in its `Console`. -/
def display (debug : Bool) (settingsPath elapsed : String) (console : Console) : IO Unit := do
  IO.print console.out
  for line in console.messages do
    if let some text := line.render debug settingsPath elapsed "not readable as JSON" then
      IO.eprintln text
  for (place, text) in console.written do
    IO.FS.writeFile (Disk.pathOf place) text

end HindiScript.Command

open HindiScript

/-- Runs the command that the arguments ask for. -/
def main (args : List String) : IO UInt32 := do
  let started ← IO.monoMsNow
  let machine ← Command.copyMachine args
  let (code, console) :=
    match Command.run machine args {} with
    | .ok code console => (code, console)
    | .error crash console =>
      (1, { console with messages := console.messages ++ [Command.errorLine crash.message] })
  let elapsed := toString ((← IO.monoMsNow) - started) ++ ".0"
  Command.display (args.contains "--debug") machine.settingsPath elapsed console
  return UInt32.ofNat code
