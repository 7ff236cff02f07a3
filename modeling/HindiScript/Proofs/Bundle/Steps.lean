import HindiScript.Bundle.Build

/-!
# The steps of a build

What each function of a build does to the state, in equations: what is noted, which file a statement imports
(`Workspace.target?`), how a statement is linked (`linkStatement_of_target`) and how a module is loaded
(`loadWith_of_fresh`). Other modules rest on these equations and do not look into the functions.
-/

namespace HindiScript.Bundle

/-! ## Steps one after the other -/

section

variable {α β : Type} {s s' : State}

theorem bind_eq_ok {x : BuildM α} {f : α → BuildM β} {b : β} (h : (x >>= f) s = .ok b s') :
    ∃ a s₁, x s = .ok a s₁ ∧ f a s₁ = .ok b s' := by
  change EStateM.bind x f s = .ok b s' at h
  unfold EStateM.bind at h
  split at h
  next a s₁ hx => exact ⟨a, s₁, hx, h⟩
  next => cases h

theorem bind_eq_error {x : BuildM α} {f : α → BuildM β} {e : Failure} (h : (x >>= f) s = .error e s') :
    x s = .error e s' ∨ ∃ a s₁, x s = .ok a s₁ ∧ f a s₁ = .error e s' := by
  change EStateM.bind x f s = .error e s' at h
  unfold EStateM.bind at h
  split at h
  next a s₁ hx => exact .inr ⟨a, s₁, hx, h⟩
  next e' s₁ hx =>
    cases h
    exact .inl hx

theorem bind_of_ok {x : BuildM α} {a : α} (h : x s = .ok a s') (f : α → BuildM β) : (x >>= f) s = f a s' := by
  change EStateM.bind x f s = f a s'
  rw [EStateM.bind, h]

theorem bind_of_error {x : BuildM α} {e : Failure} (h : x s = .error e s') (f : α → BuildM β) :
    (x >>= f) s = .error e s' := by
  change EStateM.bind x f s = .error e s'
  rw [EStateM.bind, h]

theorem pure_eq_ok {a b : α} (h : (pure a : BuildM α) s = .ok b s') : a = b ∧ s = s' := by
  cases h
  exact ⟨rfl, rfl⟩

/-- A step that gives a value is a successful one. -/
theorem exists_ok_of_run' {x : BuildM α} {f : α → β} {b : β} (h : (x.run' s).map f = some b) :
    ∃ a s', x s = .ok a s' ∧ f a = b := by
  delta EStateM.run' EStateM.run at h
  cases hx : x s with
  | ok a s' =>
    simp only [hx, Option.map_some, Option.some.injEq] at h
    exact ⟨a, s', rfl, h⟩
  | error =>
    simp only [hx] at h
    cases h

theorem whileLoading_eq_error {path : String} {act : BuildM α} {e : Failure}
    (h : whileLoading path act s = .error e s') :
    ∃ s₁, act { s with loading := path :: s.loading } = .error e s₁ ∧
      s' = { s₁ with loading := s₁.loading.erase path } := by
  unfold whileLoading at h
  split at h
  next => cases h
  next e' s₁ hact =>
    cases h
    exact ⟨s₁, hact, rfl⟩

theorem whileLoading_eq_ok {path : String} {act : BuildM α} {a : α} (h : whileLoading path act s = .ok a s') :
    ∃ s₁, act { s with loading := path :: s.loading } = .ok a s₁ ∧
      s' = { s₁ with loading := s₁.loading.erase path } := by
  unfold whileLoading at h
  split at h
  next a' s₁ hact =>
    cases h
    exact ⟨s₁, hact, rfl⟩
  next => cases h

end

/-! ## States -/

/-- What `warnNested` notes. -/
def nestedEvents (program : Node) : List Event :=
  program.nestedImports.map fun node => .warned (.nested node.line)

namespace State

def noting (s : State) (events : List Event) : State := { s with journal := s.journal ++ events }

@[simp] theorem noting_nil (s : State) : s.noting [] = s := by
  simp [noting]

def reading (s : State) (path : String) : State := { s with reads := s.reads ++ [path] }

/-- The state in which the imports of a module are linked: the file of `path` was read and parsed, and `path` is in
`loading`. -/
def opened (s : State) (path : String) (program : Node) : State :=
  { s with
    reads := s.reads ++ [path]
    loading := path :: s.loading
    journal := s.journal ++ .parsed path program.body.length :: nestedEvents program }

/-- What `loadWith` does before it links the imports is one change of the state. -/
theorem opened_eq (s : State) (path : String) (program : Node) :
    (noting { s.reading path with loading := path :: s.loading } [.parsed path program.body.length]).noting
      (nestedEvents program) = s.opened path program := by
  simp [opened, noting, reading]

/-- The state in which the module `m` is finished. -/
def closed (s : State) (m : Module) : State :=
  { s with
    cache := { s.cache with modules := s.cache.modules.insert m.path m }
    loading := s.loading.erase m.path
    journal := s.journal ++ [.compiled (Path.fileName m.path)] }

/-- The finished modules, in order. -/
def modules (s : State) : List Module := s.cache.modules.values

/-- The paths under which the finished modules stand, in order. -/
def paths (s : State) : List String := s.cache.modules.names

variable {s : State} {m : Module}

theorem modules_closed (h : s.cache.modules.find? m.path = none) : (s.closed m).modules = s.modules ++ [m] := by
  simp [modules, closed, Registry.values, Registry.entries_insert (Registry.find?_eq_none_iff.1 h)]

theorem paths_closed (h : s.cache.modules.find? m.path = none) : (s.closed m).paths = s.paths ++ [m.path] := by
  simp [paths, closed, Registry.names, Registry.entries_insert (Registry.find?_eq_none_iff.1 h)]

end State

/-! ## Imports -/

namespace Workspace

def readable (ws : Workspace) (path : String) : Bool := (ws.files.read? path).isSome

/-- The program of the file of `path`, if it can be opened and its text makes a program. -/
def program? (ws : Workspace) (path : String) : Option Node :=
  match ws.files.read? path with
  | some (.text source) => (parseText source).toOption
  | _ => none

/-- The file that a statement of `importer` imports. -/
def target? (ws : Workspace) (importer : Option String) : Node → Option String
  | .importDecl _ source _ => (source.filter (· ≠ "")).bind fun source => resolve ws source importer
  | _ => none

end Workspace

/-- The source that an import names. -/
def sourceOf : Node → String
  | .importDecl _ source _ => source.getD ""
  | _ => ""

/-- The names that an import lists. -/
def listedNames : Node → List String
  | .importDecl _ _ names => names.getD []
  | _ => []

/-- What is noted about a statement that imports no file. -/
def skipEvents : Node → List Event
  | .importDecl line source _ =>
    match source.filter (· ≠ "") with
    | none => [.warned (.noSource line)]
    | some source => [.warned (.notFound source)]
  | _ => []

/-- The bindings with names of `m` added. A name that is bound stays bound as it is. -/
def bindAll (m : Module) : List Binding → List String → List Binding
  | bound, [] => bound
  | bound, name :: rest =>
    if name ∈ bound.map (·.name) then bindAll m bound rest
    else bindAll m (bound ++ [⟨name, m.varName⟩]) rest

/-- What `bindNames` notes. -/
def bindEvents (source : String) (m : Module) : List Binding → List String → List Event
  | _, [] => []
  | bound, name :: rest =>
    if name ∈ bound.map (·.name) then .warned (.duplicate name source) :: bindEvents source m bound rest
    else
      (if name ∈ m.exports then [] else [.warned (.notExported source name)]) ++
        bindEvents source m (bound ++ [⟨name, m.varName⟩]) rest

/-- The module of `program`, whose imports gave `bindings`, as the next of `number` modules. -/
def moduleOf (path : String) (program : Node) (bindings : List Binding) (number : Nat) : Module :=
  ⟨path, program.withoutImports,
    Text.joinLines (bindings.map Binding.text ++ [program.withoutImports.text]), varStem ++ toString number⟩

/-! ## What the functions do -/

section

variable {ws : Workspace} {load : String → BuildM (Option Module)} {importer : Option String} {s s' : State}

theorem warn_bind {β : Type} (w : Warning) (f : Unit → BuildM β) (s : State) :
    (warn w >>= f) s = f () (s.noting [.warned w]) := rfl

theorem bindNames_eq (source : String) (m : Module) (bound : List Binding) (names : List String) (s : State) :
    bindNames source m bound names s = .ok (bindAll m bound names) (s.noting (bindEvents source m bound names)) := by
  induction names generalizing bound s with
  | nil => exact congrArg (EStateM.Result.ok bound) s.noting_nil.symm
  | cons name rest ih =>
    by_cases hb : name ∈ bound.map (·.name)
    · simp only [bindNames, bindAll, bindEvents, hb, if_true, warn_bind, ih]
      simp [State.noting]
    · by_cases he : name ∈ m.exports
      · simp only [bindNames, bindAll, bindEvents, hb, he, if_true, if_false, not_true, List.nil_append, ih]
      · simp only [bindNames, bindAll, bindEvents, hb, he, if_true, if_false, not_false_eq_true, warn_bind, ih]
        simp [State.noting]

/-- Binds the `names` that an import lists to a module, if there is one. -/
def bindLoaded (source : String) (bound : List Binding) (names : List String) : Option Module → BuildM (List Binding)
  | none => return bound
  | some m => bindNames source m bound names

theorem linkStatement_of_no_target {node : Node} (h : ws.target? importer node = none) (bound : List Binding)
    (s : State) : linkStatement ws load importer bound node s = .ok bound (s.noting (skipEvents node)) := by
  cases node with
  | importDecl line source names =>
    cases hsource : source.filter (fun source => decide (source ≠ "")) with
    | none =>
      simp only [linkStatement, skipEvents, hsource]
      rfl
    | some source' =>
      have hpath : resolve ws source' importer = none := by
        simpa only [Workspace.target?, hsource, Option.bind_some] using h
      simp only [linkStatement, skipEvents, hsource, hpath]
      rfl
  | _ => exact congrArg (EStateM.Result.ok bound) s.noting_nil.symm

theorem linkStatement_of_target {node : Node} {path : String} (h : ws.target? importer node = some path)
    (bound : List Binding) :
    linkStatement ws load importer bound node =
      load path >>= bindLoaded (sourceOf node) bound (listedNames node) := by
  cases node with
  | importDecl line source names =>
    cases hsource : source.filter (fun source => decide (source ≠ "")) with
    | none =>
      simp only [Workspace.target?, hsource] at h
      cases h
    | some source' =>
      have hpath : resolve ws source' importer = some path := by
        simpa only [Workspace.target?, hsource, Option.bind_some] using h
      have hnamed : sourceOf (.importDecl line source names) = source' := by
        rw [sourceOf, (Option.filter_eq_some_iff.1 hsource).1, Option.getD_some]
      simp only [linkStatement, hsource, hpath, hnamed]
      refine congrArg (load path >>= ·) (funext fun r => ?_)
      cases r <;> rfl
  | _ => cases h

theorem warnNested_eq (nodes : List Node) (s : State) :
    warnNested nodes s = .ok () (s.noting (nodes.map fun node => .warned (.nested node.line))) := by
  induction nodes generalizing s with
  | nil => exact congrArg (EStateM.Result.ok ()) s.noting_nil.symm
  | cons node nodes ih =>
    rw [warnNested, warn_bind, ih]
    simp [State.noting]

theorem program?_of_read {path source : String} {program : Node} (hr : ws.files.read? path = some (.text source))
    (hp : parseText source = .ok program) : ws.program? path = some program := by
  simp [Workspace.program?, hr, hp, Except.toOption]

theorem parseSource_eq_ok {source label : String} {program : Node} (h : parseSource source label s = .ok program s') :
    parseText source = .ok program ∧ s' = s.noting [.parsed label program.body.length] := by
  cases hp : parseText source with
  | ok p =>
    simp only [parseSource, hp] at h
    cases h
    exact ⟨rfl, rfl⟩
  | error e =>
    simp only [parseSource, hp] at h
    cases h

theorem parseSource_eq_error {source label : String} {e : Failure} (h : parseSource source label s = .error e s') :
    ∃ error, parseText source = .error error ∧ e = .badToken error := by
  cases hp : parseText source with
  | ok p =>
    simp only [parseSource, hp] at h
    cases h
  | error error =>
    simp only [parseSource, hp] at h
    cases h
    exact ⟨error, rfl, rfl⟩

theorem readText_eq_ok {path : String} {r : Option String} (h : readText ws.files path s = .ok r s') :
    ws.files.read? path = r.map .text ∧ s' = s.reading path := by
  obtain ⟨_, s₁, h₁, h₂⟩ := bind_eq_ok h
  cases h₁
  rcases hr : ws.files.read? path with _ | ⟨source | _⟩ <;> simp only [hr] at h₂ <;> cases h₂
  · exact ⟨rfl, rfl⟩
  · exact ⟨rfl, rfl⟩

theorem readText_of_text {path source : String} (h : ws.files.read? path = some (.text source)) (s : State) :
    readText ws.files path s = .ok (some source) (s.reading path) := by
  unfold readText
  simp only [h]
  rfl

theorem readText_of_none {path : String} (h : ws.files.read? path = none) (s : State) :
    readText ws.files path s = .ok none (s.reading path) := by
  unfold readText
  simp only [h]
  rfl

theorem readText_of_undecodable {path : String} (h : ws.files.read? path = some .undecodable) (s : State) :
    readText ws.files path s = .error (.undecodable path) (s.reading path) := by
  unfold readText
  simp only [h]
  rfl

theorem readText_eq_error {path : String} {e : Failure} (h : readText ws.files path s = .error e s') :
    ws.files.read? path = some .undecodable ∧ e = .undecodable path := by
  rcases hr : ws.files.read? path with _ | ⟨source | _⟩
  · cases (readText_of_none hr s).symm.trans h
  · cases (readText_of_text hr s).symm.trans h
  · cases (readText_of_undecodable hr s).symm.trans h
    exact ⟨rfl, rfl⟩

/-- Puts the module of `program` in the cache, once its imports are linked. -/
def finish (path : String) (program : Node) (bindings : List Binding) : BuildM Module := fun s =>
  match s.cache.add? (moduleOf path program bindings s.cache.size) with
  | none => .error (.alreadyCached path) s
  | some cache =>
    .ok (moduleOf path program bindings s.cache.size) ({ s with cache }.noting [.compiled (Path.fileName path)])

theorem compileModule_eq (path source : String) :
    compileModule ws load path source =
      parseSource source path >>= fun program => link ws load program (some path) >>= finish path program := by
  unfold compileModule
  refine congrArg (parseSource source path >>= ·) (funext fun program => ?_)
  refine congrArg (link ws load program (some path) >>= ·) (funext fun bindings => funext fun s => ?_)
  refine Eq.trans (bind_of_ok rfl _) ?_
  unfold finish moduleOf
  split <;> rename_i hadd <;> simp only [hadd] <;> rfl

/-- A module is put in the cache if there is none of its path. -/
theorem finish_of_new {path : String} (h : s.cache.modules.find? path = none) (program : Node)
    (bindings : List Binding) :
    finish path program bindings s = .ok (moduleOf path program bindings s.cache.size)
      { s with
        cache := { s.cache with
          modules := s.cache.modules.insert path (moduleOf path program bindings s.cache.size) }
        journal := s.journal ++ [.compiled (Path.fileName path)] } := by
  have hadd : s.cache.add? (moduleOf path program bindings s.cache.size) = some { s.cache with
      modules := s.cache.modules.insert path (moduleOf path program bindings s.cache.size) } := by
    simp [Cache.add?, Registry.contains, moduleOf, h]
  simp only [finish, hadd]
  rfl

theorem finish_of_cached {path : String} {m : Module} (h : s.cache.modules.find? path = some m) (program : Node)
    (bindings : List Binding) : finish path program bindings s = .error (.alreadyCached path) s := by
  have hadd : s.cache.add? (moduleOf path program bindings s.cache.size) = none := by
    simp [Cache.add?, Registry.contains, moduleOf, h]
  simp only [finish, hadd]

/-- Compiles a file from its text, if it could be opened. -/
def compileText (ws : Workspace) (load : String → BuildM (Option Module)) (path : String) :
    Option String → BuildM (Option Module)
  | none => do
    warn (.unreadable path)
    return none
  | some source => do
    let m ← whileLoading path (compileModule ws load path source)
    return some m

theorem loadWith_of_cached {path : String} {m : Module} (h : s.cache.modules.find? path = some m) :
    loadWith ws load path s = .ok (some m)
      ({ s with cache := { s.cache with hits := s.cache.hits + 1 } }.noting [.cached path]) := by
  refine Eq.trans (bind_of_ok rfl _) ?_
  simp only [Cache.get, h]
  rfl

theorem loadWith_of_loading {path : String} (h : s.cache.modules.find? path = none) (hl : path ∈ s.loading) :
    loadWith ws load path s = .ok none (s.noting [.warned (.circular path)]) := by
  refine Eq.trans (bind_of_ok rfl _) ?_
  simp only [Cache.get, h, hl, if_true]
  rfl

theorem loadWith_of_fresh {path : String} (h : s.cache.modules.find? path = none) (hl : path ∉ s.loading) :
    loadWith ws load path s = (readText ws.files path >>= compileText ws load path) s := by
  refine Eq.trans (bind_of_ok rfl _) ?_
  simp only [Cache.get, h, hl, if_false]
  refine congrFun (congrArg (readText ws.files path >>= ·) (funext fun source => ?_)) s
  cases source <;> rfl

/-! ## Whole builds -/

/-- What `build` gives for `program`, once its imports are linked. -/
def resultOf (ws : Workspace) (root : Option String) (spec : Option Typing.Spec) (program : Node)
    (bindings : List Binding) (s : State) : Result where
  path := root
  program
  output := Text.joinLines (sections ws s.modules bindings program.withoutImports.text) ++ "\n"
  modules := s.modules
  warnings := s.warnings
  types := spec.map fun spec => Typing.check spec program

/-- Gives `resultOf`, and notes that the build is done. -/
def conclude (ws : Workspace) (root : Option String) (spec : Option Typing.Spec) (program : Node)
    (bindings : List Binding) : BuildM Result := fun s =>
  .ok (resultOf ws root spec program bindings s) (s.noting [.done s.modules.length s.cache.hits])

/-- `build` drops what an earlier one left, links the imports of its program and gives the result. -/
theorem build_eq (ws : Workspace) (source : String) (root : Option String) (spec : Option Typing.Spec) (s : State) :
    build ws source root spec s =
      (parseSource source (root.getD "<source>") >>= fun program =>
        linkRoot ws program root >>= conclude ws root spec program)
      ({ s with cache := {}, loading := [] }.noting [.started (root.getD "<source>")]) := rfl

end

end HindiScript.Bundle
