import HindiScript.Proofs.Bundle.Closure

/-!
# The bindings of a build

What the imports of a program bind depends only on the modules that are finished when they are linked
(`Workspace.bindings`): an import that is passed over means a file that is being compiled or cannot be opened, and
no module of such a file is finished before the program is. So the text of a module refers to modules before it
only, and that of the program to modules of the build (`wellLinked_compile`).
-/

namespace HindiScript.Bundle

/-! ## Bindings of a list of modules -/

/-- The first of `modules` with this `path`. -/
def moduleAt? (modules : List Module) (path : String) : Option Module :=
  modules.find? fun m => decide (m.path = path)

namespace Workspace

/-- The one of `modules` that the statement `node` imports. -/
def importedModule? (ws : Workspace) (importer : Option String) (modules : List Module) (node : Node) :
    Option Module :=
  (ws.target? importer node).bind (moduleAt? modules)

/-- The bindings with those added that statements make, where these are the `modules`. -/
def bindings (ws : Workspace) (importer : Option String) (modules : List Module) :
    List Binding → List Node → List Binding
  | bound, [] => bound
  | bound, node :: rest =>
    match ws.importedModule? importer modules node with
    | some m => ws.bindings importer modules (bindAll m bound (listedNames node)) rest
    | none => ws.bindings importer modules bound rest

end Workspace

theorem moduleAt?_append {modules : List Module} {path : String} (more : List Module)
    (h : (moduleAt? modules path).isSome) : moduleAt? (modules ++ more) path = moduleAt? modules path := by
  obtain ⟨m, hm⟩ := Option.isSome_iff_exists.1 h
  rw [moduleAt?, List.find?_append, ← moduleAt?, hm, Option.some_or]

theorem moduleAt?_eq_none_iff {modules : List Module} {path : String} :
    moduleAt? modules path = none ↔ path ∉ modules.map (·.path) := by
  simp [moduleAt?]

theorem of_moduleAt?_eq_some {modules : List Module} {path : String} {m : Module}
    (h : moduleAt? modules path = some m) : m ∈ modules ∧ m.path = path :=
  ⟨List.mem_of_find?_eq_some h, by simpa using List.find?_some h⟩

/-- A binding in `bindAll` was in `bound`, or binds one of `names`, which was not bound, to the variable of `m`. -/
theorem of_mem_bindAll {m : Module} {bound : List Binding} {names : List String} {b : Binding}
    (h : b ∈ bindAll m bound names) :
    b ∈ bound ∨ b.name ∉ bound.map (·.name) ∧ b.name ∈ names ∧ b.varName = m.varName := by
  induction names generalizing bound with
  | nil => exact .inl h
  | cons name rest ih =>
    unfold bindAll at h
    split at h
    next =>
      rcases ih h with hb | ⟨hnew, hn, hv⟩
      · exact .inl hb
      · exact .inr ⟨hnew, List.mem_cons_of_mem _ hn, hv⟩
    next hname =>
      rcases ih h with hb | ⟨hnew, hn, hv⟩
      · rcases List.mem_append.1 hb with hb | hb
        · exact .inl hb
        · obtain rfl := List.mem_singleton.1 hb
          exact .inr ⟨hname, List.mem_cons_self, rfl⟩
      · rw [List.map_append, List.mem_append, not_or] at hnew
        exact .inr ⟨hnew.1, List.mem_cons_of_mem _ hn, hv⟩

section

variable {ws : Workspace} {importer : Option String} {modules : List Module}

theorem Workspace.of_mem_bindings {bound : List Binding} {nodes : List Node} {b : Binding}
    (h : b ∈ ws.bindings importer modules bound nodes) :
    b ∈ bound ∨ ∃ node ∈ nodes, ∃ m, ws.importedModule? importer modules node = some m ∧
      b.name ∈ listedNames node ∧ b.varName = m.varName := by
  induction nodes generalizing bound with
  | nil => exact .inl h
  | cons node rest ih =>
    unfold bindings at h
    split at h
    next m hm =>
      rcases ih h with hb | ⟨node', hnode, hrest⟩
      · rcases of_mem_bindAll hb with hb | ⟨-, hb⟩
        · exact .inl hb
        · exact .inr ⟨node, List.mem_cons_self, m, hm, hb⟩
      · exact .inr ⟨node', List.mem_cons_of_mem _ hnode, hrest⟩
    next =>
      rcases ih h with hb | ⟨node', hnode, hrest⟩
      · exact .inl hb
      · exact .inr ⟨node', List.mem_cons_of_mem _ hnode, hrest⟩

theorem Workspace.bindings_cons (bound : List Binding) (node : Node) (nodes : List Node) :
    ws.bindings importer modules bound (node :: nodes) =
      ws.bindings importer modules (ws.bindings importer modules bound [node]) nodes := by
  cases hm : ws.importedModule? importer modules node <;> simp only [bindings, hm]

end

/-! ## What a run links -/

/-- Every finished module was linked with the modules before it and has the number of its place, and none of its path
is in `loading`. -/
structure State.Linked (ws : Workspace) (s : State) : Prop where
  paths : s.paths = s.modules.map (·.path)
  apart : ∀ v ∈ s.loading, v ∉ s.modules.map (·.path)
  modules : ∀ i m, s.modules[i]? = some m → ∃ program, ws.program? m.path = some program ∧
    m = moduleOf m.path program (ws.bindings (some m.path) (s.modules.take i) [] program.body) i

/-- `s'` is a state that `s` can become while the same paths are in `loading`. -/
structure State.Before (ws : Workspace) (s s' : State) : Prop where
  linked : s'.Linked ws
  loading : s'.loading = s.loading
  modules : s.modules <+: s'.modules

/-- What a task gave is what it would give with the modules of any later state. -/
def Task.Settled (ws : Workspace) (s : State) : Task → Prop
  | .load path r => ∀ s', s.Before ws s' → moduleAt? s'.modules path = r
  | .statement importer node before after =>
    ∀ s', s.Before ws s' → ws.bindings importer s'.modules before [node] = after
  | .statements importer nodes before after =>
    ∀ s', s.Before ws s' → ws.bindings importer s'.modules before nodes = after

section

variable {ws : Workspace} {s s₁ s' : State}

theorem State.Before.trans (h : s.Before ws s₁) (h' : s₁.Before ws s') : s.Before ws s' :=
  ⟨h'.linked, h'.loading.trans h.loading, h.modules.trans h'.modules⟩

theorem State.Linked.before (h : s.Linked ws) : s.Before ws s := ⟨h, rfl, List.prefix_rfl⟩

theorem State.Linked.readable (h : s.Linked ws) {v : String} (hv : v ∈ s.modules.map (·.path)) : ws.readable v := by
  obtain ⟨m, hm, rfl⟩ := List.mem_map.1 hv
  obtain ⟨i, hi⟩ := List.mem_iff_getElem?.1 hm
  obtain ⟨program, hp, -⟩ := h.modules i m hi
  exact Workspace.readable_of_program hp

/-- Where each module stands under its own path, `moduleAt?` finds what `Registry.find?` does. -/
theorem moduleAt?_values {r : Registry Module} (h : r.names = r.values.map (·.path)) (path : String) :
    moduleAt? r.values path = r.find? path := by
  simp only [Registry.names, Registry.values, Registry.find?, moduleAt?] at h ⊢
  generalize r.entries = entries at h ⊢
  induction entries with
  | nil => rfl
  | cons e rest ih =>
    obtain ⟨name, m⟩ := e
    simp only [List.map_cons, List.cons.injEq] at h
    by_cases hp : m.path = path
    · simp [h.1, hp]
    · have hb : (path == m.path) = false := beq_false_of_ne (Ne.symm hp)
      simp [List.lookup_cons, h.1, hp, hb, ih h.2]

theorem State.Linked.find?_eq (h : s.Linked ws) (path : String) :
    s.cache.modules.find? path = moduleAt? s.modules path :=
  (moduleAt?_values h.paths path).symm

theorem State.Linked.before_of_eq (h : s.Linked ws) (hm : s'.cache.modules = s.cache.modules)
    (hl : s'.loading = s.loading) : s.Before ws s' := by
  have hmodules : s'.modules = s.modules := congrArg Registry.values hm
  have hpaths : s'.paths = s.paths := congrArg Registry.names hm
  refine ⟨⟨?_, ?_, ?_⟩, hl, hmodules ▸ List.prefix_rfl⟩
  · rw [hpaths, hmodules, h.paths]
  · rw [hmodules, hl]
    exact h.apart
  · rw [hmodules]
    exact h.modules

theorem State.Linked.opened {path : String} {program : Node} (h : s.Linked ws)
    (hnew : path ∉ s.modules.map (·.path)) : (s.opened path program).Linked ws := by
  refine ⟨h.paths, fun v hv => ?_, h.modules⟩
  rcases List.mem_cons.1 hv with rfl | hv
  · exact hnew
  · exact h.apart v hv

theorem State.Linked.closed {m : Module} {program : Node} {loading : List String} (h : s.Linked ws)
    (hl : s.loading = m.path :: loading) (hpath : m.path ∉ loading) (hp : ws.program? m.path = some program)
    (hm : m = moduleOf m.path program (ws.bindings (some m.path) s.modules [] program.body) s.cache.size)
    (hnew : s.cache.modules.find? m.path = none) : (s.closed m).Linked ws := by
  have hmodules := State.modules_closed hnew
  have hsize : s.cache.size = s.modules.length := (List.length_map _).symm
  refine ⟨?_, ?_, ?_⟩
  · rw [State.paths_closed hnew, hmodules, h.paths, List.map_append]
    rfl
  · intro v hv
    have hv : v ∈ loading := by simpa [State.closed, hl] using hv
    have hne : v ≠ m.path := fun he => hpath (he ▸ hv)
    have hold := h.apart v (hl ▸ List.mem_cons_of_mem _ hv)
    rw [hmodules, List.map_append, List.mem_append, not_or]
    exact ⟨hold, by simpa using hne⟩
  · intro i m' hi
    rw [hmodules] at hi ⊢
    rcases Nat.lt_or_ge i s.modules.length with hlt | hge
    · rw [List.getElem?_append_left hlt] at hi
      rw [List.take_append_of_le_length hlt.le]
      exact h.modules i m' hi
    · have hlen : i < s.modules.length + 1 := by
        simpa using (List.getElem?_eq_some_iff.1 hi).1
      obtain rfl : i = s.modules.length := by omega
      rw [List.getElem?_concat_length, Option.some.injEq] at hi
      subst hi
      rw [List.take_left, ← hsize]
      exact ⟨program, hp, hm⟩

end

theorem Run.settled {ws : Workspace} {t : Task} {s s' : State} (h : Run ws t s s') (hs : s.Linked ws) :
    s.Before ws s' ∧ t.Settled ws s' := by
  induction h with
  | @cached s path m hfind =>
    refine ⟨hs.before_of_eq rfl rfl, fun s'' hb => ?_⟩
    obtain ⟨more, hmore⟩ := hb.modules
    rw [hs.find?_eq] at hfind
    rw [← hmore]
    exact (moduleAt?_append more (Option.isSome_of_eq_some hfind)).trans hfind
  | @circular s path _ hl =>
    -- The path is still being compiled in every later state, and so has no module there.
    refine ⟨hs.before_of_eq rfl rfl, fun s'' hb => ?_⟩
    exact moduleAt?_eq_none_iff.2 (hb.linked.apart path (hb.loading ▸ hl))
  | @unreadable s path _ _ hread =>
    refine ⟨hs.before_of_eq rfl rfl, fun s'' hb => moduleAt?_eq_none_iff.2 fun hm => ?_⟩
    have hr := hb.linked.readable hm
    simp [Workspace.readable, hread] at hr
  | @compiled s s' path program bindings hfind hl hp _ hnew ih =>
    have hfresh : path ∉ s.modules.map (·.path) := by
      rw [hs.find?_eq] at hfind
      exact moduleAt?_eq_none_iff.1 hfind
    obtain ⟨hbefore, hbindings⟩ := ih (hs.opened hfresh)
    -- The bindings are those of the modules that are there when the module is finished, all of them before it.
    obtain rfl := hbindings s' hbefore.linked.before
    generalize hm : moduleOf path program (ws.bindings (some path) s'.modules [] program.body) s'.cache.size = m
    obtain rfl : m.path = path := by rw [← hm, moduleOf]
    have hmodules : (s'.closed m).modules = s'.modules ++ [m] := State.modules_closed hnew
    refine ⟨⟨hbefore.linked.closed hbefore.loading hl hp hm.symm hnew, ?_, ?_⟩, fun s'' hb => ?_⟩
    · simp [State.closed, hbefore.loading, State.opened]
    · rw [hmodules]
      exact hbefore.modules.trans (List.prefix_append ..)
    · obtain ⟨more, hmore⟩ := hb.modules
      rw [hbefore.linked.find?_eq] at hnew
      rw [← hmore, hmodules, moduleAt?, List.find?_append, List.find?_append, ← moduleAt?, hnew]
      simp
  | skipped ht =>
    refine ⟨hs.before_of_eq rfl rfl, fun s'' _ => ?_⟩
    simp [Workspace.bindings, Workspace.importedModule?, ht]
  | dropped ht _ ih =>
    obtain ⟨hbefore, hload⟩ := ih hs
    refine ⟨hbefore, fun s'' hb => ?_⟩
    simp [Workspace.bindings, Workspace.importedModule?, ht, hload s'' hb]
  | @linked s s' importer node path m bound ht _ ih =>
    obtain ⟨hbefore, hload⟩ := ih hs
    have hnoted : s'.Before ws (s'.noting (bindEvents (sourceOf node) m bound (listedNames node))) :=
      hbefore.linked.before_of_eq rfl rfl
    refine ⟨hbefore.trans hnoted, fun s'' hb => ?_⟩
    simp [Workspace.bindings, Workspace.importedModule?, ht, hload s'' (hnoted.trans hb)]
  | done => exact ⟨hs.before, fun _ _ => rfl⟩
  | next _ _ ih₁ ih₂ =>
    obtain ⟨hbefore₁, hnode⟩ := ih₁ hs
    obtain ⟨hbefore₂, hnodes⟩ := ih₂ hbefore₁.linked
    refine ⟨hbefore₁.trans hbefore₂, fun s'' hb => ?_⟩
    rw [Workspace.bindings_cons, hnode s'' (hbefore₂.trans hb), hnodes s'' hb]

/-! ## Builds -/

/-- `b` refers to the variable of one of the first `number` of `modules`, and an import of its name means the file of
that module. -/
def Workspace.Refers (ws : Workspace) (importer : Option String) (nodes : List Node) (modules : List Module)
    (number : Nat) (b : Binding) : Prop :=
  ∃ j < number, ∃ m node, modules[j]? = some m ∧ b.varName = varStem ++ toString j ∧ node ∈ nodes ∧
    b.name ∈ listedNames node ∧ ws.target? importer node = some m.path

/-- The modules have paths of their own and numbered variables; the text of each starts with bindings that refer to
modules before it; and the bindings of the program refer to modules of the build. -/
structure WellLinked (ws : Workspace) (root : Option String) (r : Result) : Prop where
  distinct : (r.modules.map (·.path)).Nodup
  apart : ∀ m ∈ r.modules, root ≠ some m.path
  numbered : ∀ (i : Nat) (m : Module), r.modules[i]? = some m → m.varName = varStem ++ toString i
  modules : ∀ (i : Nat) (m : Module), r.modules[i]? = some m → ∃ program bindings,
    ws.program? m.path = some program ∧
    bindings = ws.bindings (some m.path) (r.modules.take i) [] program.body ∧
    m.output = Text.joinLines (bindings.map Binding.text ++ [program.withoutImports.text]) ∧
    ∀ b ∈ bindings, ws.Refers (some m.path) program.body r.modules i b
  program : ∃ bindings, bindings = ws.bindings root r.modules [] r.program.body ∧
    r.output = Text.joinLines (sections ws r.modules bindings r.program.withoutImports.text) ++ "\n" ∧
    ∀ b ∈ bindings, ws.Refers root r.program.body r.modules r.modules.length b

section

variable {ws : Workspace} {s s' : State} {r : Result}

/-- Bindings to the first of numbered modules refer to these. -/
theorem refers_of_mem_bindings {importer : Option String} {modules : List Module} {number : Nat} {nodes : List Node}
    (hnumbered : ∀ (i : Nat) (m : Module), modules[i]? = some m → m.varName = varStem ++ toString i) {b : Binding}
    (hb : b ∈ ws.bindings importer (modules.take number) [] nodes) :
    ws.Refers importer nodes modules number b := by
  rcases Workspace.of_mem_bindings hb with hb | ⟨node, hnode, m, hm, hname, hvar⟩
  · cases hb
  obtain ⟨path, htarget, hfind⟩ := Option.bind_eq_some_iff.1 hm
  obtain ⟨hmem, rfl⟩ := of_moduleAt?_eq_some hfind
  obtain ⟨j, hj⟩ := List.mem_iff_getElem?.1 hmem
  obtain ⟨hlt, hj⟩ : j < number ∧ modules[j]? = some m := by simpa [List.getElem?_take] using hj
  exact ⟨j, hlt, m, node, hj, hvar.trans (hnumbered j m hj), hnode, hname, htarget⟩

/-- The modules of a build are those of their programs, each linked with the modules before it, and so is the program
linked with all of them. -/
theorem linked_of_build {source : String} {root : Option String} {spec : Option Typing.Spec}
    (h : build ws source root spec s = .ok r s') :
    (∀ (i : Nat) (m : Module), r.modules[i]? = some m → ∃ program, ws.program? m.path = some program ∧
      m = moduleOf m.path program (ws.bindings (some m.path) (r.modules.take i) [] program.body) i) ∧
    ∃ bindings, bindings = ws.bindings root r.modules [] r.program.body ∧
      r.output = Text.joinLines (sections ws r.modules bindings r.program.withoutImports.text) ++ "\n" := by
  obtain ⟨bindings, s₁, -, hrun, hmodules, -, houtput, -⟩ := build_eq_ok h
  have hstart : (s.started root r.program).Linked ws := ⟨rfl, fun _ _ => List.not_mem_nil, nofun⟩
  obtain ⟨hbefore, hsettled⟩ := hrun.settled hstart
  have hbindings := hsettled s₁ hbefore.linked.before
  have hlinked := hbefore.linked.modules
  rw [← hmodules] at hbindings hlinked
  exact ⟨hlinked, bindings, hbindings.symm, houtput⟩

theorem wellLinked_of_build {source : String} {root : Option String} {spec : Option Typing.Spec}
    (h : build ws source root spec s = .ok r s') : WellLinked ws root r := by
  have hvisits := visits_of_build h
  obtain ⟨hlinked, bindings, hbindings, houtput⟩ := linked_of_build h
  have hnumbered (i : Nat) (m : Module) (hi : r.modules[i]? = some m) : m.varName = varStem ++ toString i := by
    obtain ⟨program, -, hm⟩ := hlinked i m hi
    rw [hm, moduleOf]
  refine ⟨hvisits.nodup, fun m hm he => ?_, hnumbered, fun i m hi => ?_, bindings, hbindings, houtput, ?_⟩
  · exact hvisits.not_mem_seen (List.mem_map_of_mem hm) (by simp [he])
  · obtain ⟨program, hp, hm⟩ := hlinked i m hi
    refine ⟨program, _, hp, rfl, ?_, fun b hb => refers_of_mem_bindings hnumbered hb⟩
    rw [hm, moduleOf]
  · intro b hb
    rw [hbindings, ← List.take_length (l := r.modules)] at hb
    exact refers_of_mem_bindings hnumbered hb

/-- The text that `compileFile` or `compileSource` gives reads the variable of a module only after its definition
(`WellLinked`). -/
theorem wellLinked_compile :
    (∀ path checkTypes, compileFile ws path checkTypes s = .ok r s' →
      WellLinked ws (some (Path.canonical ws.cwd path)) r) ∧
    ∀ source spec, compileSource ws source spec s = .ok r s' → WellLinked ws none r := by
  constructor
  · intro path checkTypes h
    obtain ⟨_, _, _, -, -, hbuild⟩ := compileFile_eq_ok h
    exact wellLinked_of_build hbuild
  · intro source spec h
    obtain ⟨_, _, -, hbuild⟩ := bind_eq_ok h
    exact wellLinked_of_build hbuild

end

theorem wellLinked_compile_cyclic : ∃ r s', compileFile cyclic "m" false {} = .ok r s' ∧
    r.modules.map (·.output) = ["", "const x = __shar_mod_0[\"x\"];"] ∧ WellLinked cyclic (some "/work/m") r := by
  obtain ⟨r, s', hr, -, houtputs⟩ := compileFile_cyclic
  have hlinked := wellLinked_compile.1 "m" false hr
  rw [canonical_cyclic] at hlinked
  exact ⟨r, s', hr, houtputs, hlinked⟩

end HindiScript.Bundle
