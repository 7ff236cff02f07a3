import HindiScript.Proofs.Bundle.Run
import HindiScript.Proofs.Bundle.Traversal

/-!
# The modules of a build

A build goes through the files depth first along their imports. What a run adds to the modules is one traversal
(`Run.adds`), so the modules of a program are the files that can be reached from it, each read and compiled
once, in the order in which the traversal finishes them (`modules_compileFile`).
-/

namespace HindiScript.Bundle

/-! ## The graph of imports -/

namespace Workspace

/-- The files that the statements `nodes` import and that can be opened, in order. -/
def imported (ws : Workspace) (importer : Option String) (nodes : List Node) : List String :=
  (nodes.filterMap (ws.target? importer)).filter ws.readable

/-- The files that the file of `path` imports and that can be opened, in the order of its imports. -/
def imports (ws : Workspace) (path : String) : List String :=
  match ws.program? path with
  | some program => ws.imported (some path) program.body
  | none => []

/-- The program of `path` has at its top level an import that means the file `target`. -/
def Imports (ws : Workspace) (path target : String) : Prop :=
  ∃ program line source names, ws.program? path = some program ∧
    .importDecl line (some source) names ∈ program.body ∧ source ≠ "" ∧ resolve ws source (some path) = some target

variable {ws : Workspace} {importer : Option String} {path target : String}

theorem target?_eq_some_iff {node : Node} :
    ws.target? importer node = some target ↔
      ∃ line source names, node = .importDecl line (some source) names ∧ source ≠ "" ∧
        resolve ws source importer = some target := by
  constructor
  · intro h
    cases node with
    | importDecl line source names =>
      obtain ⟨source', hsource, hr⟩ := Option.bind_eq_some_iff.1 h
      obtain ⟨rfl, hne⟩ := Option.filter_eq_some_iff.1 hsource
      exact ⟨line, source', names, rfl, of_decide_eq_true hne, hr⟩
    | _ => cases h
  · rintro ⟨line, source, names, rfl, hne, hr⟩
    rw [target?, Option.filter_some, if_pos (decide_eq_true hne), Option.bind_some, hr]

theorem imported_cons (node : Node) (nodes : List Node) :
    ws.imported importer (node :: nodes) = ws.imported importer [node] ++ ws.imported importer nodes := by
  rw [imported, imported, imported, ← List.filter_append, ← List.filterMap_append, List.singleton_append]

theorem imported_of_target {node : Node} (h : ws.target? importer node = some target) :
    ws.imported importer [node] = [target].filter ws.readable := by
  simp [imported, h]

theorem imported_of_no_target {node : Node} (h : ws.target? importer node = none) :
    ws.imported importer [node] = [] := by
  simp [imported, h]

theorem imports_of_program {program : Node} (h : ws.program? path = some program) :
    ws.imports path = ws.imported (some path) program.body := by
  simp only [imports, h]

theorem readable_of_program {program : Node} (h : ws.program? path = some program) : ws.readable path := by
  unfold program? at h
  split at h
  next source hread => simp [readable, hread]
  next => cases h

theorem readable_of_imports (h : ws.Imports path target) : ws.readable path := by
  obtain ⟨program, _, _, _, hp, _⟩ := h
  exact readable_of_program hp

theorem mem_imports_iff : target ∈ ws.imports path ↔ ws.Imports path target ∧ ws.readable target := by
  cases hp : ws.program? path with
  | none => simp [imports, Imports, hp]
  | some program =>
    simp only [imports_of_program hp, imported, List.mem_filter, List.mem_filterMap, target?_eq_some_iff, Imports, hp]
    grind

/-- Following `Imports` stays among the files that can be opened, but for the last one. -/
theorem reachable_iff (root : String) (hne : target ≠ root) :
    Relation.ReflTransGen (fun a b => b ∈ ws.imports a) root target ↔
      ws.readable target ∧ Relation.ReflTransGen ws.Imports root target := by
  constructor
  · intro h
    refine ⟨?_, Relation.ReflTransGen.mono (fun _ _ hb => (mem_imports_iff.1 hb).1) _ _ h⟩
    rcases h.cases_tail with rfl | ⟨_, _, hlast⟩
    · exact absurd rfl hne
    · exact (mem_imports_iff.1 hlast).2
  · rintro ⟨hr, h⟩
    clear hne
    induction h with
    | refl => exact .refl
    | tail _ hstep ih => exact (ih (readable_of_imports hstep)).tail (mem_imports_iff.2 ⟨hstep, hr⟩)

end Workspace

/-! ## What a run adds -/

/-- The paths that a load passes over: those being compiled and those of the finished modules. -/
def State.seen (s : State) : Set String := {v | v ∈ s.loading ∨ v ∈ s.paths}

/-- The files that a task goes to, if they are not among `State.seen`. -/
def Task.files (ws : Workspace) : Task → List String
  | .load path _ => [path].filter ws.readable
  | .statement importer node _ _ => ws.imported importer [node]
  | .statements importer nodes _ _ => ws.imported importer nodes

/-- Between `s` and `s'` the modules of the paths in `order` were finished, as a traversal that starts at `files`
finishes them, and of the files that can be opened just these were read, each once. -/
structure Adds (ws : Workspace) (files : List String) (s s' : State) (order : List String) : Prop where
  loading : s'.loading = s.loading
  paths : s'.paths = s.paths ++ order
  visits : Visits ws.imports s.seen files order
  reads : ∃ during, s'.reads = s.reads ++ during ∧ ∀ v, ws.readable v → during.count v = order.count v

namespace Adds

variable {ws : Workspace} {files files' order order' : List String} {s s₁ s' : State}

theorem seen (h : Adds ws files s s' order) : s'.seen = s.seen ∪ {v | v ∈ order} := by
  ext v
  simp [State.seen, h.loading, h.paths, or_assoc]

/-- Nothing is added if all `files` were seen. -/
theorem nothing (hs : s'.loading = s.loading ∧ s'.paths = s.paths ∧ s'.reads = s.reads)
    (hf : ∀ v ∈ files, v ∈ s.seen) : Adds ws files s s' [] where
  loading := hs.1
  paths := by rw [hs.2.1, List.append_nil]
  visits := by
    induction files with
    | nil => exact .done
    | cons v files ih => exact .skip (hf v List.mem_cons_self) (ih fun w hw => hf w (List.mem_cons_of_mem _ hw))
  reads := ⟨[], by rw [hs.2.2, List.append_nil], fun _ _ => rfl⟩

theorem append (h : Adds ws files s s₁ order) (h' : Adds ws files' s₁ s' order') :
    Adds ws (files ++ files') s s' (order ++ order') where
  loading := h'.loading.trans h.loading
  paths := by rw [h'.paths, h.paths, List.append_assoc]
  visits := h.visits.append (h.seen ▸ h'.visits)
  reads := by
    obtain ⟨during, hr, hc⟩ := h.reads
    obtain ⟨during', hr', hc'⟩ := h'.reads
    refine ⟨during ++ during', by rw [hr', hr, List.append_assoc], fun v hv => ?_⟩
    rw [List.count_append, List.count_append, hc v hv, hc' v hv]

/-- A file that was not seen comes after all that its imports add. -/
theorem compiled {path : String} {program : Node} {m : Module} (hpath : m.path = path)
    (hfresh : path ∉ s.seen) (hp : ws.program? path = some program)
    (hnew : s'.cache.modules.find? path = none)
    (h : Adds ws (ws.imported (some path) program.body) (s.opened path program) s' order) :
    Adds ws [path] s (s'.closed m) (order ++ [path]) := by
  subst hpath
  have hseen : (s.opened m.path program).seen = insert m.path s.seen := by
    ext v
    simp [State.seen, State.opened, State.paths, or_assoc]
  refine ⟨?_, ?_, ?_, ?_⟩
  · show s'.loading.erase m.path = s.loading
    simp [h.loading, State.opened]
  · rw [State.paths_closed hnew, h.paths, ← List.append_assoc]
    rfl
  · -- While the imports are linked the path counts as seen, as it does for the traversal.
    refine .visit hfresh ?_ .done
    rw [Workspace.imports_of_program hp, ← hseen]
    exact h.visits
  · obtain ⟨during, hr, hc⟩ := h.reads
    refine ⟨m.path :: during, ?_, fun v hv => ?_⟩
    · show s'.reads = _
      rw [hr]
      simp [State.opened]
    · rw [List.count_cons, List.count_append, hc v hv, List.count_singleton]

end Adds

theorem Run.adds {ws : Workspace} {t : Task} {s s' : State} (h : Run ws t s s') :
    ∃ order, Adds ws (t.files ws) s s' order := by
  induction h with
  | @cached s path m hfind =>
    refine ⟨[], .nothing ⟨rfl, rfl, rfl⟩ fun v hv => .inr ?_⟩
    obtain rfl := List.mem_singleton.1 (List.mem_filter.1 hv).1
    by_contra hn
    rw [Registry.find?_eq_none_iff.2 hn] at hfind
    cases hfind
  | circular _ hl =>
    refine ⟨[], .nothing ⟨rfl, rfl, rfl⟩ fun v hv => .inl ?_⟩
    obtain rfl := List.mem_singleton.1 (List.mem_filter.1 hv).1
    exact hl
  | @unreadable s path _ _ hread =>
    have hr : ws.readable path = false := by simp [Workspace.readable, hread]
    have hf : (Task.load path none).files ws = [] := by simp [Task.files, hr]
    rw [hf]
    -- The file was asked for, but is none of those that can be opened.
    refine ⟨[], rfl, (List.append_nil _).symm, .done, [path], rfl, fun v hv => ?_⟩
    have hne : path ≠ v := by
      rintro rfl
      rw [hr] at hv
      cases hv
    simp [hne]
  | @compiled s s' path program bindings hfind hl hp _ hnew ih =>
    obtain ⟨order, h⟩ := ih
    have hf : (Task.load path (some (moduleOf path program bindings s'.cache.size))).files ws = [path] := by
      simp [Task.files, Workspace.readable_of_program hp]
    have hfresh : path ∉ s.seen := by
      rintro (hm | hm)
      · exact hl hm
      · exact Registry.find?_eq_none_iff.1 hfind hm
    rw [hf]
    exact ⟨order ++ [path], .compiled rfl hfresh hp hnew h⟩
  | skipped ht =>
    refine ⟨[], .nothing ⟨rfl, rfl, rfl⟩ fun v hv => ?_⟩
    rw [Task.files, Workspace.imported_of_no_target ht] at hv
    cases hv
  | dropped ht _ ih =>
    rw [Task.files, Workspace.imported_of_target ht]
    exact ih
  | linked ht _ ih =>
    obtain ⟨order, h⟩ := ih
    rw [Task.files, Workspace.imported_of_target ht]
    exact ⟨order, h.loading, h.paths, h.visits, h.reads⟩
  | done => exact ⟨[], .nothing ⟨rfl, rfl, rfl⟩ fun v hv => by cases hv⟩
  | @next s s₁ s' importer node nodes before between after _ _ ih₁ ih₂ =>
    obtain ⟨order₁, h₁⟩ := ih₁
    obtain ⟨order₂, h₂⟩ := ih₂
    rw [Task.files, Workspace.imported_cons]
    exact ⟨order₁ ++ order₂, h₁.append h₂⟩

/-! ## Builds -/

section

variable {ws : Workspace} {s s' : State} {r : Result}

theorem adds_of_build {source : String} {root : Option String} {spec : Option Typing.Spec}
    (h : build ws source root spec s = .ok r s') :
    ∃ s₁, Adds ws (ws.imported root r.program.body) (s.started root r.program) s₁ (r.modules.map (·.path)) ∧
      s'.reads = s₁.reads := by
  obtain ⟨bindings, s₁, -, hrun, hmodules, hreads, -⟩ := build_eq_ok h
  obtain ⟨order, hadds⟩ := hrun.adds
  have horder : r.modules.map (·.path) = order := by
    rw [hmodules, ← hrun.paths_eq rfl, hadds.paths]
    rfl
  rw [horder]
  exact ⟨s₁, hadds, hreads⟩

theorem visits_of_build {source : String} {root : Option String} {spec : Option Typing.Spec}
    (h : build ws source root spec s = .ok r s') :
    Visits ws.imports {v | v ∈ root.toList} (ws.imported root r.program.body) (r.modules.map (·.path)) := by
  obtain ⟨s₁, hadds, -⟩ := adds_of_build h
  have hseen : (s.started root r.program).seen = {v | v ∈ root.toList} := by
    ext v
    simp [State.seen, State.started, State.paths, Registry.names]
  exact hseen ▸ hadds.visits

/-- The build of a file `Visits` it first. -/
theorem visits_of_program {source root : String} {spec : Option Typing.Spec}
    (h : build ws source (some root) spec s = .ok r s') (hp : ws.program? root = some r.program) :
    Visits ws.imports {root} (ws.imports root) (r.modules.map (·.path)) := by
  have := visits_of_build h
  rw [← Workspace.imports_of_program hp] at this
  simpa using this

/-- The modules of a program are the other files that can be opened and that it reaches. -/
theorem mem_modules_of_build {source root : String} {spec : Option Typing.Spec}
    (h : build ws source (some root) spec s = .ok r s') (hp : ws.program? root = some r.program) (v : String) :
    v ∈ r.modules.map (·.path) ↔ v ≠ root ∧ ws.readable v ∧ Relation.ReflTransGen ws.Imports root v := by
  rw [(visits_of_program h hp).mem_iff]
  exact and_congr_right fun hne => Workspace.reachable_iff root hne

/-- The modules that `compileFile` gives are the other files that can be reached from the program along
`Workspace.Imports`, each once, in the order in which a depth-first traversal finishes them, and the build reads each
of them once. -/
theorem modules_compileFile {path : String} {checkTypes : Bool} (h : compileFile ws path checkTypes s = .ok r s') :
    let root := Path.canonical ws.cwd path
    let paths := r.modules.map (·.path)
    paths.Nodup ∧
    (∀ v, v ∈ paths ↔ v ≠ root ∧ ws.readable v ∧ Relation.ReflTransGen ws.Imports root v) ∧
    (∀ order, Visits ws.imports {root} (ws.imports root) order ↔ order = paths) ∧
    ∃ source spec s₁ during, ws.files.read? root = some (.text source) ∧
      s₁.reads = s.reads ++ root :: (if checkTypes then specReads ws root else []) ∧
      build ws source (some root) spec s₁ = .ok r s' ∧ s'.reads = s₁.reads ++ during ∧
      ∀ v ∈ paths, during.count v = 1 := by
  intro root paths
  obtain ⟨source, spec, s₁, hread, hreads, hbuild⟩ := compileFile_eq_ok h
  obtain ⟨_, _, hparsed, -⟩ := build_eq_ok hbuild
  have hvisits : Visits ws.imports {root} (ws.imports root) paths := by
    have := visits_of_build hbuild
    rw [← Workspace.imports_of_program (program?_of_read hread hparsed)] at this
    simpa using this
  have hmem (v : String) : v ∈ paths ↔ v ≠ root ∧ ws.readable v ∧ Relation.ReflTransGen ws.Imports root v := by
    rw [hvisits.mem_iff]
    exact and_congr_right fun hne => Workspace.reachable_iff root hne
  refine ⟨hvisits.nodup, hmem, fun order => ⟨fun h => h.unique hvisits, fun h => h ▸ hvisits⟩, ?_⟩
  obtain ⟨s₂, hadds, hlast⟩ := adds_of_build hbuild
  obtain ⟨during, hduring, hcount⟩ := hadds.reads
  refine ⟨source, spec, s₁, during, hread, hreads, hbuild, hlast.trans hduring, fun v hv => ?_⟩
  rw [hcount v ((hmem v).1 hv).2.1]
  exact List.count_eq_one_of_mem hvisits.nodup hv

end

/-- A program that imports a module twice, once through another module, and two modules that import each other. -/
def cyclic : Workspace :=
  { files := { contents := .ofList [("/work/m", .text "aayaat \x7by\x7d se 'a' aayaat 'b'"),
      ("/work/a", .text "aayaat \x7bx\x7d se 'b'"), ("/work/b", .text "aayaat 'a'")] } }

theorem compileFile_cyclic : ∃ r s', compileFile cyclic "m" false {} = .ok r s' ∧
    r.modules.map (·.path) = ["/work/b", "/work/a"] ∧
    r.modules.map (·.output) = ["", "const x = __shar_mod_0[\"x\"];"] := by
  have h : ((compileFile cyclic "m" false).run' {}).map (fun r => (r.modules.map (·.path), r.modules.map (·.output))) =
      some (["/work/b", "/work/a"], ["", "const x = __shar_mod_0[\"x\"];"]) := by
    decide +kernel
  obtain ⟨r, s', hr, hvalues⟩ := exists_ok_of_run' h
  exact ⟨r, s', hr, Prod.mk.inj hvalues⟩

theorem canonical_cyclic : Path.canonical cyclic.cwd "m" = "/work/m" := by decide +kernel

theorem modules_compileFile_cyclic :
    (∃ r s', compileFile cyclic "m" false {} = .ok r s' ∧ r.modules.map (·.path) = ["/work/b", "/work/a"]) ∧
      Visits cyclic.imports {"/work/m"} (cyclic.imports "/work/m") ["/work/b", "/work/a"] ∧
      Relation.ReflTransGen cyclic.Imports "/work/m" "/work/b" := by
  obtain ⟨r, s', hr, hpaths, -⟩ := compileFile_cyclic
  obtain ⟨-, hmem, horder, -⟩ := modules_compileFile hr
  rw [canonical_cyclic, hpaths] at hmem horder
  exact ⟨⟨r, s', hr, hpaths⟩, (horder _).2 rfl, ((hmem _).1 List.mem_cons_self).2.2⟩

end HindiScript.Bundle
