import HindiScript.Bundle.Build
import HindiScript.Disk
import HindiScript.Settings.Load
import HindiScript.Tree.Outline

/-!
# The command line

The four commands: list the tokens of a program, show its tree, build it, check its types. A command is a
function from the disk, the environment and the arguments to what is printed, what is written and how it
ends.
-/

namespace HindiScript.Command

/-! ## Output -/

/-- A line for the person at the terminal. -/
inductive Line where
  | text (content : String)
  | notice (notice : Settings.Notice)
  | event (event : Bundle.Event)

/-- An error that ends a command without an exit code. -/
inductive Crash where
  | badToken (error : Cursor.ReadError)
  | undecodable
  | internal (failure : Bundle.Failure)
  deriving DecidableEq, Repr

/-- What a command has printed and written so far. -/
structure Console where
  /-- Ordinary output. -/
  out : String := ""
  /-- Messages, one a line. -/
  messages : List Line := []
  /-- Files with their new texts, by the parts of their paths. -/
  written : List (List String × String) := []

/-- A command that is under way. Its `Console` is kept when it ends early. -/
abbrev CommandM := EStateM Crash Console

/-- Prints `text` without a line end. -/
def put (text : String) : CommandM Unit := modify fun c => { c with out := c.out ++ text }

def say (text : String) : CommandM Unit := put (text ++ "\n")

def tell (lines : List Line) : CommandM Unit :=
  modify fun c => { c with messages := c.messages ++ lines }

/-! ## Texts -/

def red : String := "\x1b[31m"
def green : String := "\x1b[32m"
def yellow : String := "\x1b[33m"
def reset : String := "\x1b[0m"

/-- A text in a colour. -/
def coloured (colour text : String) : String := colour ++ text ++ reset

/-- A warning, marked as one. -/
def warningLine (message : String) : Line := .text (coloured yellow "warning:" ++ " " ++ message)

/-- An error, marked as one. -/
def errorLine (message : String) : Line := .text (coloured red "error:" ++ " " ++ message)

/-- How the commands are used. -/
def usage : String :=
  "\n".intercalate ["Usage:",
    "  shar tokens <file.shar>",
    "  shar parse <file.shar>",
    "  shar build <file.shar> [--out <file.js>]",
    "  shar check <file.shar>",
    "  (optional) --debug to show Python traceback and debug logs"]

/-- A line of the log. -/
def logLine (level component message : String) : String :=
  "[shar] " ++ level ++ " " ++ component ++ ": " ++ message

/-- What a message looks like. Steps of a build are shown only under `debug`. How long a step took (`elapsed`) and why
something is not readable (`reason`) is told by whoever knows. -/
def Line.render (debug : Bool) (settingsPath elapsed reason : String) : Line → Option String
  | text content => some content
  | notice n => some (logLine "WARNING" "config" (n.message settingsPath reason))
  | event e =>
    match e.warning? with
    | some w => some (logLine "WARNING" "resolver" w.message)
    | none => if debug then some (logLine "DEBUG" "resolver" (e.message elapsed)) else none

/-! ## Arguments -/

/-- The options and the words of a command line. -/
structure Arguments where
  debug : Bool
  out : Option String
  words : List String

/-- Takes `option` and the value behind it out of the arguments. Without a value it is refused. -/
def takeOption (option : String) (args : List String) : Option (Option String × List String) :=
  match args.span (· ≠ option) with
  | (_, []) => some (none, args)
  | (_, [_]) => none
  | (before, _ :: value :: after) => some (some value, before ++ after)

/-- The arguments, unless `--out` has no value. -/
def Arguments.parse (args : List String) : Option Arguments :=
  let debug := args.contains "--debug"
  (takeOption "--out" (args.erase "--debug")).map fun (out, words) => ⟨debug, out, words⟩

/-! ## Commands -/

/-- What a command runs on. -/
structure Machine where
  disk : Disk
  env : List (String × String)

def Machine.cwd (m : Machine) : String := Disk.pathOf m.disk.cwd

def Machine.settingsPath (m : Machine) : String := Path.join m.cwd Settings.fileName

/-- The settings file of the current directory. -/
def Machine.settingsSource (m : Machine) : Settings.Source :=
  if m.disk.exists? m.settingsPath then
    match m.disk.read m.settingsPath with
    | .ok (.text content) => .text content
    | _ => .unreadable
  else .absent

/-- Reports a problem that the command expected, and ends with an exit code. -/
def fail (debug : Bool) (kind message : String) : CommandM Nat := do
  if debug then
    tell [.text "Traceback (most recent call last):", .text (kind ++ ": " ++ message)]
  else
    tell [errorLine message]
  return 1

/-- The text of a file. -/
def source (m : Machine) (path : String) : CommandM (Except Disk.Problem String) := do
  match m.disk.read path with
  | .ok (.text content) => return .ok content
  | .ok .undecodable => throw .undecodable
  | .error p => return .error p

/-- Lists the tokens of a program, up to one that cannot be read. -/
def listTokens (text : String) : CommandM Unit := do
  let scan := (Cursor.start text).scan
  put (String.join (scan.tokens.map fun tok =>
    toString tok.line ++ ":" ++ toString tok.column ++ "  " ++ tok.display ++ "\n"))
  match scan.failure with
  | some e => throw (.badToken e)
  | none => return ()

/-- Shows the tree of a program. -/
def showTree (text : String) : CommandM Unit := do
  match parseText text with
  | .ok program => say program.outline
  | .error e => throw (.badToken e)

/-- Builds a program and tells what was found. -/
def buildProgram (m : Machine) (path : String) : CommandM (Except String Bundle.Result) := do
  let (settings, notices) := Settings.load m.settingsSource m.env
  tell (notices.map .notice)
  let ws : Bundle.Workspace := { files := m.disk.files, cwd := m.cwd, settings }
  match Bundle.compileFile ws path true {} with
  | .ok result s =>
    tell (s.journal.map .event)
    tell (result.warnings.map fun w => warningLine w.message)
    let types := result.types.getD {}
    tell (types.warnings.map fun w => warningLine w.message)
    tell (types.errors.map fun e => errorLine e.message)
    return .ok result
  | .error e s =>
    tell (s.journal.map .event)
    match e with
    | .rootNotFound _ => return .error e.message
    | .badToken error => throw (.badToken error)
    | .undecodable _ => throw .undecodable
    | _ => throw (.internal e)

/-- How an error of a build is named. -/
def buildErrorKind : String := "errors.SharImportError"

/-- Builds the program of `path`, and prints it or writes it to `out`. -/
def build (m : Machine) (debug : Bool) (path : String) (out : Option String) : CommandM Nat := do
  match ← buildProgram m path with
  | .error message => fail debug buildErrorKind message
  | .ok result =>
    let finish : CommandM Nat := do
      if result.hasTypeErrors then
        tell [.text (coloured red "type errors found; do not run this output")]
        return 1
      else return 0
    match out.filter (· ≠ "") with
    | some out =>
      match m.disk.target out with
      | .error p => fail debug p.kind (p.message out)
      | .ok place =>
        modify fun c => { c with written := c.written ++ [(place, result.output)] }
        say (coloured green "wrote" ++ " " ++ out)
        finish
    | none =>
      put result.output
      finish

/-- Checks the types of the program of `path`. -/
def check (m : Machine) (debug : Bool) (path : String) : CommandM Nat := do
  match ← buildProgram m path with
  | .error message => fail debug buildErrorKind message
  | .ok result =>
    if result.types.isNone then
      say ("no type spec found for " ++ path)
      return 0
    else if result.hasTypeErrors then
      return 1
    else
      say (coloured green "ok")
      return 0

/-- Does `act` with the text of the file of `path`. -/
def withSource (m : Machine) (debug : Bool) (path : String) (act : String → CommandM Unit) :
    CommandM Nat := do
  match ← source m path with
  | .ok text =>
    act text
    return 0
  | .error p => fail debug p.kind (p.message path)

/-- Runs the command that `args` ask for, and gives the exit code. -/
def run (m : Machine) (args : List String) : CommandM Nat := do
  match Arguments.parse args with
  | none =>
    say "--out expects a path"
    return 1
  | some a =>
    match a.words with
    | [command, path] =>
      if !m.disk.isFile path then
        tell [errorLine ("file not found: " ++ path)]
        return 1
      else if command = "tokens" then
        withSource m a.debug path listTokens
      else if command = "parse" then
        withSource m a.debug path showTree
      else if command = "build" then
        build m a.debug path a.out
      else if command = "check" then
        check m a.debug path
      else
        say ("Unknown command: " ++ command)
        say usage
        return 1
    | _ =>
      say usage
      return 1

end HindiScript.Command
