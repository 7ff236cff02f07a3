import HindiScript.Registry
import HindiScript.Script.Text

/-!
# Modules

A module is an imported program that has been written as JavaScript. A cache keeps the modules of one
build, each path once, in the order in which they were finished.
-/

namespace HindiScript

namespace Node

/-- The names that a program exports at its top level, each once, in the order of their first export. -/
def exports (program : Node) : List String :=
  (program.body.flatMap exportedNames).foldl (fun names name =>
    if name ∈ names then names else names ++ [name]) []

/-- The program without the imports at its top level, which a build resolves. -/
def withoutImports (program : Node) : Node := .program none (program.body.filter (!·.isImport))

/-- The imports below the top level, which are never resolved. -/
def nestedImports (program : Node) : List Node :=
  (program.body.flatMap descendants).filter isImport

end Node

namespace Bundle

/-- A compiled module: the one name of its file (`path`), its program without imports, the text that it runs, and the
variable that holds its exports. -/
structure Module where
  path : String
  program : Node
  output : String
  varName : String
  deriving Inhabited

namespace Module

def exports (m : Module) : List String := m.program.exports

/-- How a module is shown. -/
def display (m : Module) : String :=
  "CompiledModule(" ++ Text.quoted m.path ++ ", var=" ++ m.varName ++ ", exports="
    ++ Text.quotedList m.exports ++ ")"

/-- The function that runs the `output` of a module, and the variable `varName` that takes its exports. -/
def wrapper (m : Module) : String :=
  "const " ++ m.varName ++ " = (function()\x7b var " ++ exportsName ++ " = \x7b\x7d;\n" ++ m.output
    ++ "\nreturn " ++ exportsName ++ "; \x7d)();"

end Module

/-- The modules of a build by their paths, and how often one was found there again (`hits`). -/
structure Cache where
  modules : Registry Module := {}
  hits : Nat := 0
  deriving Inhabited

namespace Cache

/-- The module of `path`. Finding it counts as a hit. -/
def get (c : Cache) (path : String) : Option Module × Cache :=
  match c.modules.find? path with
  | some m => (some m, { c with hits := c.hits + 1 })
  | none => (none, c)

/-- The cache with `m` added, unless there is a module of the same path. -/
def add? (c : Cache) (m : Module) : Option Cache :=
  if c.modules.contains m.path then none
  else some { c with modules := c.modules.insert m.path m }

def size (c : Cache) : Nat := c.modules.size

end Cache

end Bundle

end HindiScript
