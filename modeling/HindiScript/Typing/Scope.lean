import HindiScript.Registry

/-!
# Scopes

A scope binds names to types. An environment is a scope inside other scopes: a name is looked up from the
inside out, and declared in the innermost scope only. `ScopeTree` keeps many environments that share
their outer scopes, so that a later declaration in an outer scope is seen from the inner ones.
-/

namespace HindiScript.Typing

/-- The names that are bound in one scope; a binding may be without a type. `declared` are those that a
declaration of a variable bound. -/
structure Scope where
  bindings : Registry (Option String) := {}
  declared : List String := []
  deriving DecidableEq, Repr, Inhabited

/-- A scope and the scopes around it, the nearest first. -/
structure Env where
  scope : Scope := {}
  outer : List Scope := []
  deriving DecidableEq, Repr, Inhabited

namespace Env

/-- A new scope inside the environment. -/
def child (env : Env) : Env := ⟨{}, env.scope :: env.outer⟩

/-- Binds `name` in the innermost scope, and with it an outer binding is no longer seen. -/
def declare (env : Env) (name : String) (type : Option String) : Env :=
  { env with scope := { env.scope with bindings := env.scope.bindings.insert name type } }

/-- Binds names in the innermost scope, one after the other. -/
def declareAll (env : Env) (types : List (String × String)) : Env :=
  types.foldl (fun env (name, type) => env.declare name (some type)) env

/-- Notes in `declared` that a variable is declared in the innermost scope. -/
def addVariable (env : Env) (name : String) : Env :=
  { env with scope := { env.scope with declared := name :: env.scope.declared } }

/-- The type of the nearest binding of a name. -/
def lookup (env : Env) (name : String) : Option String :=
  ((env.scope :: env.outer).findSome? (·.bindings.find? name)).join

@[simp] theorem lookup_child (env : Env) (name : String) : env.child.lookup name = env.lookup name :=
  rfl

@[simp] theorem lookup_addVariable (env : Env) (name name' : String) :
    (env.addVariable name).lookup name' = env.lookup name' := rfl

theorem lookup_declare (env : Env) (name name' : String) (type : Option String) :
    (env.declare name type).lookup name' = if name' = name then type else env.lookup name' := by
  simp only [lookup, declare, List.findSome?_cons, Registry.find?_insert]
  by_cases h : name' = name <;> simp [h]

end Env

@[simp] theorem declared_declareAll (env : Env) (types : List (String × String)) :
    (env.declareAll types).scope.declared = env.scope.declared := by
  unfold Env.declareAll
  induction types generalizing env with
  | nil => rfl
  | cons type rest ih => exact ih _

@[simp] theorem outer_declareAll (env : Env) (types : List (String × String)) :
    (env.declareAll types).outer = env.outer := by
  unfold Env.declareAll
  induction types generalizing env with
  | nil => rfl
  | cons type rest ih => exact ih _

/-- Scopes, each with the number of the scope around it. -/
structure ScopeTree where
  scopes : List (Scope × Option Nat) := [({}, none)]
  deriving DecidableEq, Repr

namespace ScopeTree

/-- The scope of the number `i` and the scopes around it, the nearest first. -/
def chain (t : ScopeTree) (i : Nat) : List Scope :=
  match t.scopes[i]? with
  | none => []
  | some (scope, none) => [scope]
  | some (scope, some parent) => if parent < i then scope :: t.chain parent else [scope]
termination_by i

/-- The `chain` of `i` as an environment. -/
def env (t : ScopeTree) (i : Nat) : Env :=
  match t.chain i with
  | [] => {}
  | scope :: outer => ⟨scope, outer⟩

/-- A new scope inside the one of `i`, and its own number. -/
def child (t : ScopeTree) (i : Nat) : ScopeTree × Nat :=
  (⟨t.scopes ++ [(({} : Scope), some i)]⟩, t.scopes.length)

/-- Binds `name` in the scope of `i`. -/
def declare (t : ScopeTree) (i : Nat) (name : String) (type : Option String) : ScopeTree :=
  ⟨t.scopes.modify i fun (scope, parent) =>
    ({ scope with bindings := scope.bindings.insert name type }, parent)⟩

/-- The type of the nearest binding of `name`, seen from the scope of `i`. -/
def lookup (t : ScopeTree) (i : Nat) (name : String) : Option String := (t.env i).lookup name

/-- The names that the scope of `i` binds itself. -/
def bindings (t : ScopeTree) (i : Nat) : Registry (Option String) := (t.env i).scope.bindings

end ScopeTree

end HindiScript.Typing
