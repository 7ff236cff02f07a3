import HindiScript.Bundle.Event
import HindiScript.Bundle.Files
import HindiScript.Bundle.Module
import HindiScript.Path
import HindiScript.Script.FetchHelper
import HindiScript.Typing.Check

/-!
# Builds

A build compiles a program and all it imports into one text: the helper that fetches, the modules in the
order in which they are finished, the bindings of the imported names, and the program. A module is compiled
once however often it is imported; an import of a module that is being compiled is passed over.

`load` goes at most as deep as there are files: each module that is being compiled is a readable file that
none of the modules around it is.
-/

namespace HindiScript.Bundle

/-! ## State -/

/-- What a build works with. -/
structure Workspace where
  files : Files := {}
  cwd : String := "/work"
  settings : Settings := {}
  extension : String := ".shar"
  deriving Inhabited

/-- Where a build stands: the finished modules in `cache`, the paths in `loading` that are being compiled, what was
noted in `journal`, and every path that was read. -/
structure State where
  cache : Cache := {}
  loading : List String := []
  journal : List Event := []
  reads : List String := []
  deriving Inhabited

/-- The warnings that were noted. -/
def State.warnings (s : State) : List Warning := s.journal.filterMap Event.warning?

/-- A step of a build. The `State` is kept when it fails. -/
abbrev BuildM := EStateM Failure State

def note (event : Event) : BuildM Unit := modify fun s => { s with journal := s.journal ++ [event] }

def warn (warning : Warning) : BuildM Unit := note (.warned warning)

/-- Reads the file of `path`, and notes in `reads` that it did. -/
def readText (files : Files) (path : String) : BuildM (Option String) := do
  modify fun s => { s with reads := s.reads ++ [path] }
  match files.read? path with
  | some (.text source) => return some source
  | some .undecodable => throw (.undecodable path)
  | none => return none

/-- Does `act` while `path` counts as being compiled, and takes `path` off again also if `act` fails. -/
def whileLoading {α : Type} (path : String) (act : BuildM α) : BuildM α := fun s =>
  match act { s with loading := path :: s.loading } with
  | .ok a s => .ok a { s with loading := s.loading.erase path }
  | .error e s => .error e { s with loading := s.loading.erase path }

/-- Reads a program from its text, and notes it under `label`. -/
def parseSource (source label : String) : BuildM Node := do
  match parseText source with
  | .ok program =>
    note (.parsed label program.body.length)
    return program
  | .error e => throw (.badToken e)

/-! ## Imports -/

/-- The path that an import asks for first: `source`, seen from the directory of `importer` or else from the working
directory. -/
def candidate (ws : Workspace) (source : String) (importer : Option String) : String :=
  let base :=
    match importer with
    | some importer => if importer = "" then ws.cwd else Path.directory importer
    | none => ws.cwd
  Path.canonical ws.cwd (Path.join base source)

/-- The file that an import means: its `candidate`, or else that path with the extension of `ws`. -/
def resolve (ws : Workspace) (source : String) (importer : Option String) : Option String :=
  let path := candidate ws source importer
  if ws.files.exists? path then some path
  else if ws.files.exists? (path ++ ws.extension) then some (path ++ ws.extension)
  else none

/-- A name bound to an export of a module. -/
structure Binding where
  name : String
  varName : String
  deriving DecidableEq, Repr

def Binding.text (b : Binding) : String :=
  "const " ++ b.name ++ " = " ++ b.varName ++ "[\"" ++ b.name ++ "\"];"

/-- Binds the names that an import of `m` lists, behind those that are bound. The first import of a name counts. -/
def bindNames (source : String) (m : Module) : List Binding → List String → BuildM (List Binding)
  | bound, [] => return bound
  | bound, name :: rest => do
    if name ∈ bound.map (·.name) then
      warn (.duplicate name source)
      bindNames source m bound rest
    else
      if name ∉ m.exports then
        warn (.notExported source name)
      bindNames source m (bound ++ [⟨name, m.varName⟩]) rest

/-- Runs `load` for what a statement imports, and binds the names it lists behind `bound`. -/
def linkStatement (ws : Workspace) (load : String → BuildM (Option Module)) (importer : Option String)
    (bound : List Binding) : Node → BuildM (List Binding)
  | .importDecl line source names => do
    match source.filter (· ≠ "") with
    | none =>
      warn (.noSource line)
      return bound
    | some source =>
      match resolve ws source importer with
      | none =>
        warn (.notFound source)
        return bound
      | some path =>
        match ← load path with
        | none => return bound
        | some m => bindNames source m bound (names.getD [])
  | _ => return bound

/-- `linkStatement` for statements, one after the other. -/
def linkEach (ws : Workspace) (load : String → BuildM (Option Module)) (importer : Option String) :
    List Binding → List Node → BuildM (List Binding)
  | bound, [] => return bound
  | bound, statement :: rest => do
    let bound ← linkStatement ws load importer bound statement
    linkEach ws load importer bound rest

/-- Warns of each import in `Node.nestedImports`: these are not resolved. -/
def warnNested : List Node → BuildM Unit
  | [] => return ()
  | node :: rest => do
    warn (.nested node.line)
    warnNested rest

/-- Runs `load` for what `program` imports, and gives the names it binds. -/
def link (ws : Workspace) (load : String → BuildM (Option Module)) (program : Node)
    (importer : Option String) : BuildM (List Binding) := do
  warnNested program.nestedImports
  linkEach ws load importer [] program.body

/-! ## Modules -/

/-- What the names of the variables of modules start with. -/
def varStem : String := "__shar_mod_"

/-- Compiles the module of `path` from its text; `load` gives the modules it imports. -/
def compileModule (ws : Workspace) (load : String → BuildM (Option Module)) (path source : String) :
    BuildM Module := do
  let program ← parseSource source path
  let bindings ← link ws load program (some path)
  let stripped := program.withoutImports
  let output := Text.joinLines (bindings.map Binding.text ++ [stripped.text])
  let s ← get
  let m : Module := ⟨path, stripped, output, varStem ++ toString s.cache.size⟩
  match s.cache.add? m with
  | none => throw (.alreadyCached path)
  | some cache =>
    set { s with cache }
    note (.compiled (Path.fileName path))
    return m

/-- The module of `path`: the one in the cache, or else a new one. There is none if `path` is being compiled or cannot
be read. -/
def loadWith (ws : Workspace) (load : String → BuildM (Option Module)) (path : String) :
    BuildM (Option Module) := do
  let s ← get
  match s.cache.get path with
  | (some m, cache) =>
    set { s with cache }
    note (.cached path)
    return some m
  | (none, _) =>
    if path ∈ s.loading then
      warn (.circular path)
      return none
    else
      match ← readText ws.files path with
      | none =>
        warn (.unreadable path)
        return none
      | some source =>
        let m ← whileLoading path (compileModule ws load path source)
        return some m

/-- The module of a path, with modules inside modules up to a depth: `loadWith`, tied to itself. -/
def load (ws : Workspace) : Nat → String → BuildM (Option Module)
  | 0 => loadWith ws fun _ => throw .tooDeep
  | depth + 1 => loadWith ws (load ws depth)

/-- A depth for `load` that no build exceeds. -/
def Workspace.depth (ws : Workspace) : Nat := ws.files.contents.size

/-! ## Results -/

/-- What a build gives. A program that is no file has no path; without a spec no types are checked. -/
structure Result where
  path : Option String
  program : Node
  output : String
  modules : List Module
  warnings : List Warning
  types : Option Typing.Findings
  deriving Inhabited

def Result.hasTypeErrors (r : Result) : Bool := r.types.any (!·.ok)

/-- The parts of a generated program: the helper that fetches, the functions of its modules, the statements of
`bindings`, and `main`. -/
def sections (ws : Workspace) (modules : List Module) (bindings : List Binding) (main : String) :
    List String :=
  ws.settings.helperText :: modules.map Module.wrapper ++ bindings.map Binding.text ++ [main]

/-- `link` for the program of a build; its file, if there is one, counts as being compiled meanwhile. -/
def linkRoot (ws : Workspace) (program : Node) (root : Option String) : BuildM (List Binding) :=
  match root with
  | some root => whileLoading root (link ws (load ws ws.depth) program (some root))
  | none => link ws (load ws ws.depth) program none

/-- Builds a program from its text. The `cache` and the paths in `loading` that an earlier build left are dropped
first. -/
def build (ws : Workspace) (source : String) (root : Option String) (spec : Option Typing.Spec) :
    BuildM Result := do
  modify fun s => { s with cache := {}, loading := [] }
  let label := root.getD "<source>"
  note (.started label)
  let program ← parseSource source label
  let bindings ← linkRoot ws program root
  let s ← get
  let modules := s.cache.modules.values
  let output := Text.joinLines (sections ws modules bindings program.withoutImports.text) ++ "\n"
  note (.done modules.length s.cache.hits)
  return {
    path := root
    program
    output
    modules
    warnings := s.warnings
    types := spec.map fun spec => Typing.check spec program }

/-- The ending of the file that holds the types for a program. -/
def specExtension : String := ".shari"

/-- The path of the spec of a program: that of the program, with `specExtension` for its extension. -/
def specPath (root : String) : String := Path.withoutExtension root ++ specExtension

/-- The spec in the file of `specPath`, if there is one. -/
def readSpec (ws : Workspace) (root : String) : BuildM (Option Typing.Spec) := do
  let path := specPath root
  if ws.files.exists? path then
    match ← readText ws.files path with
    | some text =>
      note (.specLoaded path)
      return some (Typing.Spec.parse text)
    | none => return none
  else return none

/-- Builds the program of the file of `path`. -/
def compileFile (ws : Workspace) (path : String) (checkTypes : Bool) : BuildM Result := do
  modify fun s => { s with journal := [] }
  let root := Path.canonical ws.cwd path
  let source ← if ws.files.exists? root then readText ws.files root else pure none
  match source with
  | none => throw (.rootNotFound path)
  | some source =>
    let spec ← if checkTypes then readSpec ws root else pure none
    build ws source (some root) spec

/-- Builds a program that is no file; its imports are seen from the working directory. -/
def compileSource (ws : Workspace) (source : String) (spec : Option Typing.Spec) : BuildM Result := do
  modify fun s => { s with journal := [] }
  build ws source none spec

end HindiScript.Bundle
