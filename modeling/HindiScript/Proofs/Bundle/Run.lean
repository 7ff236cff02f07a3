import HindiScript.Proofs.Bundle.Steps

/-!
# What a build does

`Run` says step by step what loading a module and linking the imports of a program do to the state of a build,
with no bound on how deep modules are nested. Every successful load is such a run (`run_of_load`), so what
holds of a successful build is shown by induction on runs.
-/

namespace HindiScript.Bundle

/-! ## Runs -/

/-- Something that a build does: load the module of a path, with the result, or link statements of a program,
with the bindings before and after. -/
inductive Task where
  | load (path : String) (result : Option Module)
  | statement (importer : Option String) (node : Node) (before after : List Binding)
  | statements (importer : Option String) (nodes : List Node) (before after : List Binding)

/-- The task takes the one state to the other. -/
inductive Run (ws : Workspace) : Task → State → State → Prop where
  -- The module of a path
  | cached {s path m} :
    s.cache.modules.find? path = some m →
    Run ws (.load path (some m)) s
      ({ s with cache := { s.cache with hits := s.cache.hits + 1 } }.noting [.cached path])
  | circular {s path} :
    s.cache.modules.find? path = none → path ∈ s.loading →
    Run ws (.load path none) s (s.noting [.warned (.circular path)])
  | unreadable {s path} :
    s.cache.modules.find? path = none → path ∉ s.loading → ws.files.read? path = none →
    Run ws (.load path none) s ((s.reading path).noting [.warned (.unreadable path)])
  | compiled {s s' path program bindings} :
    s.cache.modules.find? path = none → path ∉ s.loading → ws.program? path = some program →
    Run ws (.statements (some path) program.body [] bindings) (s.opened path program) s' →
    s'.cache.modules.find? path = none →
    Run ws (.load path (some (moduleOf path program bindings s'.cache.size))) s
      (s'.closed (moduleOf path program bindings s'.cache.size))
  -- One statement
  | skipped {s importer node bound} :
    ws.target? importer node = none →
    Run ws (.statement importer node bound bound) s (s.noting (skipEvents node))
  | dropped {s s' importer node path bound} :
    ws.target? importer node = some path → Run ws (.load path none) s s' →
    Run ws (.statement importer node bound bound) s s'
  | linked {s s' importer node path m bound} :
    ws.target? importer node = some path → Run ws (.load path (some m)) s s' →
    Run ws (.statement importer node bound (bindAll m bound (listedNames node))) s
      (s'.noting (bindEvents (sourceOf node) m bound (listedNames node)))
  -- Statements, one after the other
  | done {s importer bound} : Run ws (.statements importer [] bound bound) s s
  | next {s s₁ s' importer node nodes before between after} :
    Run ws (.statement importer node before between) s s₁ →
    Run ws (.statements importer nodes between after) s₁ s' →
    Run ws (.statements importer (node :: nodes) before after) s s'

section

variable {ws : Workspace} {load : String → BuildM (Option Module)} {importer : Option String} {s s' : State}

theorem run_of_linkStatement {node : Node} {before after : List Binding}
    (hload : ∀ {path s r s'}, load path s = .ok r s' → Run ws (.load path r) s s')
    (h : linkStatement ws load importer before node s = .ok after s') :
    Run ws (.statement importer node before after) s s' := by
  cases htarget : ws.target? importer node with
  | none =>
    rw [linkStatement_of_no_target htarget] at h
    cases h
    exact .skipped htarget
  | some path =>
    rw [linkStatement_of_target htarget] at h
    obtain ⟨r, s₁, hr, h⟩ := bind_eq_ok h
    cases r with
    | none =>
      obtain ⟨rfl, rfl⟩ := pure_eq_ok h
      exact .dropped htarget (hload hr)
    | some m =>
      cases (bindNames_eq _ m before _ s₁).symm.trans h
      exact .linked htarget (hload hr)

theorem run_of_linkEach {nodes : List Node} {before after : List Binding}
    (hload : ∀ {path s r s'}, load path s = .ok r s' → Run ws (.load path r) s s')
    (h : linkEach ws load importer before nodes s = .ok after s') :
    Run ws (.statements importer nodes before after) s s' := by
  induction nodes generalizing before s with
  | nil =>
    obtain ⟨rfl, rfl⟩ := pure_eq_ok h
    exact .done
  | cons node nodes ih =>
    obtain ⟨between, s₁, h₁, h₂⟩ := bind_eq_ok h
    exact .next (run_of_linkStatement hload h₁) (ih h₂)

theorem run_of_link {program : Node} {bindings : List Binding}
    (hload : ∀ {path s r s'}, load path s = .ok r s' → Run ws (.load path r) s s')
    (h : link ws load program importer s = .ok bindings s') :
    Run ws (.statements importer program.body [] bindings) (s.noting (nestedEvents program)) s' := by
  obtain ⟨_, s₁, h₁, h₂⟩ := bind_eq_ok h
  rw [warnNested_eq] at h₁
  cases h₁
  exact run_of_linkEach hload h₂

theorem run_of_compileModule {path source : String} {m : Module}
    (hload : ∀ {path s r s'}, load path s = .ok r s' → Run ws (.load path r) s s')
    (hread : ws.files.read? path = some (.text source))
    (h : compileModule ws load path source { s.reading path with loading := path :: s.loading } = .ok m s') :
    ∃ program bindings s₁, ws.program? path = some program ∧
      Run ws (.statements (some path) program.body [] bindings) (s.opened path program) s₁ ∧
      s₁.cache.modules.find? path = none ∧ m = moduleOf path program bindings s₁.cache.size ∧
      { s' with loading := s'.loading.erase path } = s₁.closed m := by
  rw [compileModule_eq] at h
  obtain ⟨program, s₂, hparse, h⟩ := bind_eq_ok h
  obtain ⟨hparsed, rfl⟩ := parseSource_eq_ok hparse
  obtain ⟨bindings, s₁, hlink, h⟩ := bind_eq_ok h
  have hrun := run_of_link hload hlink
  rw [State.opened_eq] at hrun
  cases hnone : s₁.cache.modules.find? path with
  | some m =>
    rw [finish_of_cached hnone] at h
    cases h
  | none =>
    rw [finish_of_new hnone] at h
    cases h
    exact ⟨program, bindings, s₁, program?_of_read hread hparsed, hrun, hnone, rfl, rfl⟩

theorem run_of_loadWith {path : String} {r : Option Module}
    (hload : ∀ {path s r s'}, load path s = .ok r s' → Run ws (.load path r) s s')
    (h : loadWith ws load path s = .ok r s') : Run ws (.load path r) s s' := by
  cases hfind : s.cache.modules.find? path with
  | some m =>
    rw [loadWith_of_cached hfind] at h
    cases h
    exact .cached hfind
  | none =>
    by_cases hl : path ∈ s.loading
    · rw [loadWith_of_loading hfind hl] at h
      cases h
      exact .circular hfind hl
    · rw [loadWith_of_fresh hfind hl] at h
      obtain ⟨source, s₁, hread, h⟩ := bind_eq_ok h
      obtain ⟨hcontent, rfl⟩ := readText_eq_ok hread
      cases source with
      | none =>
        obtain ⟨rfl, rfl⟩ := pure_eq_ok h
        exact .unreadable hfind hl hcontent
      | some source =>
        obtain ⟨m, s₂, hwhile, h⟩ := bind_eq_ok h
        obtain ⟨rfl, rfl⟩ := pure_eq_ok h
        obtain ⟨s₃, hcompile, rfl⟩ := whileLoading_eq_ok hwhile
        obtain ⟨program, bindings, s₁, hprogram, hrun, hnone, rfl, hclosed⟩ :=
          run_of_compileModule hload hcontent hcompile
        rw [hclosed]
        exact .compiled hfind hl hprogram hrun hnone

end

/-- Every successful `load` is a run, whatever the depth. -/
theorem run_of_load {ws : Workspace} {depth : Nat} {path : String} {s s' : State} {r : Option Module}
    (h : load ws depth path s = .ok r s') : Run ws (.load path r) s s' := by
  induction depth generalizing path s r s' with
  | zero => exact run_of_loadWith (fun h => by cases h) h
  | succ depth ih => exact run_of_loadWith ih h

theorem Run.paths_eq {ws : Workspace} {t : Task} {s s' : State} (h : Run ws t s s')
    (hs : s.paths = s.modules.map (·.path)) : s'.paths = s'.modules.map (·.path) := by
  induction h with
  | cached | circular | unreadable | skipped | done => exact hs
  | dropped _ _ ih | linked _ _ ih => exact ih hs
  | next _ _ ih₁ ih₂ => exact ih₂ (ih₁ hs)
  | compiled _ _ _ _ hnew ih =>
    rw [State.paths_closed hnew, State.modules_closed hnew, ih hs, List.map_append]
    rfl

/-! ## Whole builds -/

/-- The state in which the imports of the program to build are linked: what an earlier build left is dropped, and
`root`, if there is one, is in `loading`. -/
def State.started (s : State) (root : Option String) (program : Node) : State :=
  { s with
    cache := {}
    loading := root.toList
    journal := s.journal ++ .started (root.getD "<source>") ::
      .parsed (root.getD "<source>") program.body.length :: nestedEvents program }

section

variable {ws : Workspace} {s s' : State} {r : Result}

theorem run_of_linkRoot {program : Node} {root : Option String} {bindings : List Binding}
    (hs : s.loading = []) (h : linkRoot ws program root s = .ok bindings s') :
    ∃ s₁, Run ws (.statements root program.body [] bindings)
        ({ s with loading := root.toList }.noting (nestedEvents program)) s₁ ∧
      s'.cache = s₁.cache ∧ s'.reads = s₁.reads ∧ s'.journal = s₁.journal := by
  cases root with
  | none =>
    have hrun := run_of_link run_of_load h
    rw [show s = { s with loading := [] } by rw [← hs]] at hrun
    exact ⟨s', hrun, rfl, rfl, rfl⟩
  | some root =>
    obtain ⟨s₁, hlink, rfl⟩ := whileLoading_eq_ok h
    have hrun := run_of_link run_of_load hlink
    rw [hs] at hrun
    exact ⟨s₁, hrun, rfl, rfl, rfl⟩

/-- A successful `build` links the imports of its program, and keeps the cache that this leaves. -/
theorem run_of_build {source : String} {root : Option String} {spec : Option Typing.Spec}
    (h : build ws source root spec s = .ok r s') :
    ∃ bindings s₁, parseText source = .ok r.program ∧
      Run ws (.statements root r.program.body [] bindings) (s.started root r.program) s₁ ∧ s'.cache = s₁.cache ∧
      r.modules = s₁.modules ∧ s'.reads = s₁.reads ∧
      r.output = Text.joinLines (sections ws r.modules bindings r.program.withoutImports.text) ++ "\n" ∧
      r.warnings = s₁.warnings := by
  rw [build_eq] at h
  obtain ⟨program, s₂, hparse, h⟩ := bind_eq_ok h
  obtain ⟨hparsed, rfl⟩ := parseSource_eq_ok hparse
  obtain ⟨bindings, s₃, hlink, h⟩ := bind_eq_ok h
  obtain ⟨s₁, hrun, hcache, hreads, hjournal⟩ := run_of_linkRoot rfl hlink
  cases h
  refine ⟨bindings, s₁, hparsed, ?_, hcache, congrArg (·.modules.values) hcache, hreads, rfl,
    congrArg (·.filterMap Event.warning?) hjournal⟩
  simpa [State.started, State.noting, resultOf] using hrun

/-- What a successful build gives comes from linking the imports of its program. -/
theorem build_eq_ok {source : String} {root : Option String} {spec : Option Typing.Spec}
    (h : build ws source root spec s = .ok r s') :
    ∃ bindings s₁, parseText source = .ok r.program ∧
      Run ws (.statements root r.program.body [] bindings) (s.started root r.program) s₁ ∧
      r.modules = s₁.modules ∧ s'.reads = s₁.reads ∧
      r.output = Text.joinLines (sections ws r.modules bindings r.program.withoutImports.text) ++ "\n" ∧
      r.warnings = s₁.warnings := by
  obtain ⟨bindings, s₁, hparsed, hrun, -, hresult⟩ := run_of_build h
  exact ⟨bindings, s₁, hparsed, hrun, hresult⟩

/-- What `readSpec` reads. -/
def specReads (ws : Workspace) (root : String) : List String :=
  if ws.files.exists? (specPath root) then [specPath root] else []

theorem readSpec_eq_ok {root : String} {spec : Option Typing.Spec} (h : readSpec ws root s = .ok spec s') :
    s'.reads = s.reads ++ specReads ws root ∧ s'.warnings = s.warnings := by
  by_cases he : ws.files.exists? (specPath root)
  · simp only [readSpec, he, if_true] at h
    obtain ⟨text, s₁, htext, h⟩ := bind_eq_ok h
    obtain ⟨-, rfl⟩ := readText_eq_ok htext
    simp only [specReads, he, if_true]
    cases text <;> cases h <;> simp [State.reading, State.warnings, Event.warning?]
  · simp only [readSpec, he] at h
    cases h
    simp [specReads, he]

/-- A file is read, and perhaps its types, before its build, and nothing of that is warned of. -/
theorem build_of_compileFile {path : String} {checkTypes : Bool} (h : compileFile ws path checkTypes s = .ok r s') :
    ∃ source spec s₁, ws.files.read? (Path.canonical ws.cwd path) = some (.text source) ∧
      s₁.reads = s.reads ++ Path.canonical ws.cwd path ::
        (if checkTypes then specReads ws (Path.canonical ws.cwd path) else []) ∧
      s₁.warnings = [] ∧
      build ws source (some (Path.canonical ws.cwd path)) spec s₁ = .ok r s' := by
  obtain ⟨_, _, hmodify, h⟩ := bind_eq_ok h
  cases hmodify
  dsimp only at h
  split at h
  · obtain ⟨source, s₁, hsource, h⟩ := bind_eq_ok h
    obtain ⟨hread, rfl⟩ := readText_eq_ok hsource
    cases source with
    | none => cases h
    | some source =>
      dsimp only at h
      split at h
      next hc =>
        obtain ⟨spec, s₂, hspec, h⟩ := bind_eq_ok h
        obtain ⟨hreads, hwarnings⟩ := readSpec_eq_ok hspec
        refine ⟨source, spec, s₂, hread, ?_, hwarnings, h⟩
        rw [hreads, if_pos hc]
        simp [State.reading]
      next hc =>
        obtain ⟨spec, s₂, hspec, h⟩ := bind_eq_ok h
        cases hspec
        refine ⟨source, none, _, hread, ?_, rfl, h⟩
        rw [if_neg hc]
        rfl
  · cases h

theorem compileFile_eq_ok {path : String} {checkTypes : Bool} (h : compileFile ws path checkTypes s = .ok r s') :
    ∃ source spec s₁, ws.files.read? (Path.canonical ws.cwd path) = some (.text source) ∧
      s₁.reads = s.reads ++ Path.canonical ws.cwd path ::
        (if checkTypes then specReads ws (Path.canonical ws.cwd path) else []) ∧
      build ws source (some (Path.canonical ws.cwd path)) spec s₁ = .ok r s' := by
  obtain ⟨source, spec, s₁, hread, hreads, -, hbuild⟩ := build_of_compileFile h
  exact ⟨source, spec, s₁, hread, hreads, hbuild⟩

end

end HindiScript.Bundle
