import HindiScript.Proofs.Bundle.Closure

/-!
# Circular imports

A build passes over an import of a file that is being compiled, and warns of it. Each file that is being compiled
leads to the next, so such an import closes a cycle (`Run.cycle_of_circular`). Without such an import every module
comes after all modules it imports, and there is no cycle (`Run.sorted`). So a build warns of a circular import if and
only if the files that it reaches import one another in a cycle (`circular_compileFile`).
-/

namespace HindiScript.Bundle

/-! ## Orders without cycles -/

/-- In `order` every node comes after all nodes it has an `edge` to. -/
def Sorted {α : Type} (edge : α → α → Prop) (order : List α) : Prop :=
  ∀ front v back, order = front ++ v :: back → ∀ w, edge v w → w ∈ front

namespace Sorted

variable {α : Type} {edge : α → α → Prop} {order front back : List α} {v w : α}

theorem concat (h : Sorted edge order) (hv : ∀ w, edge v w → w ∈ order) : Sorted edge (order ++ [v]) := by
  intro front u back he w hw
  rcases List.eq_nil_or_concat' back with rfl | ⟨back, last, rfl⟩
  · obtain ⟨rfl, hu⟩ := List.append_inj' he rfl
    cases hu
    exact hv w hw
  · rw [← List.cons_append, ← List.append_assoc] at he
    exact h front u back (List.append_inj' he rfl).1 w hw

theorem mem_of_transGen (h : Sorted edge order) (ho : order = front ++ v :: back) (hw : Relation.TransGen edge v w) :
    w ∈ front := by
  induction hw with
  | single hstep => exact h front v back ho _ hstep
  | @tail u w _ hstep ih =>
    -- The nodes before the one in the middle are also before the first.
    obtain ⟨before, between, rfl⟩ := List.append_of_mem ih
    have hw := h before u (between ++ v :: back) (by simpa using ho) w hstep
    exact List.mem_append_left _ hw

theorem not_transGen_self (h : Sorted edge order) (hnodup : order.Nodup) (hv : v ∈ order) :
    ¬ Relation.TransGen edge v v := by
  intro hcycle
  obtain ⟨front, back, ho⟩ := List.append_of_mem hv
  have hfront := h.mem_of_transGen ho hcycle
  rw [ho] at hnodup
  exact (List.nodup_append.1 hnodup).2.2 v hfront v List.mem_cons_self rfl

end Sorted

/-! ## The cycles of a workspace -/

namespace Workspace

variable {ws : Workspace} {path target : String}

/-- Following `Imports` stays among the files that can be opened, but for the last one. -/
theorem transGen_imports (h : Relation.TransGen ws.Imports path target) (hr : ws.readable target) :
    Relation.TransGen (fun a b => b ∈ ws.imports a) path target := by
  induction h with
  | single hstep => exact .single (mem_imports_iff.2 ⟨hstep, hr⟩)
  | tail _ hstep ih => exact (ih (readable_of_imports hstep)).tail (mem_imports_iff.2 ⟨hstep, hr⟩)

theorem readable_of_cycle (h : Relation.TransGen ws.Imports path path) : ws.readable path := by
  obtain ⟨_, hstep, -⟩ := Relation.TransGen.head'_iff.1 h
  exact readable_of_imports hstep

theorem imports_of_target {program node : Node} (hp : ws.program? path = some program) (hn : node ∈ program.body)
    (ht : ws.target? (some path) node = some target) : ws.Imports path target := by
  obtain ⟨line, source, names, rfl, hne, hr⟩ := target?_eq_some_iff.1 ht
  exact ⟨program, line, source, names, hp, hn, hne, hr⟩

end Workspace

/-! ## Warnings of a run -/

section

variable {v : String}

theorem circular_not_mem_nestedEvents (program : Node) : .warned (.circular v) ∉ nestedEvents program := by
  simp [nestedEvents]

theorem circular_not_mem_skipEvents (node : Node) : .warned (.circular v) ∉ skipEvents node := by
  unfold skipEvents
  split
  · split <;> simp
  · simp

theorem circular_not_mem_bindEvents (source : String) (m : Module) (bound : List Binding) (names : List String) :
    .warned (.circular v) ∉ bindEvents source m bound names := by
  induction names generalizing bound with
  | nil => simp [bindEvents]
  | cons name rest ih =>
    unfold bindEvents
    split
    · simp [ih]
    · split <;> simp [ih]

end

/-- `s` has noted that an import of `path` was passed over as circular. -/
def State.Circular (s : State) (path : String) : Prop := .warned (.circular path) ∈ s.journal

/-- The files that a task asks for. -/
def Task.targets (ws : Workspace) : Task → List String
  | .load path _ => [path]
  | .statement importer node _ _ => (ws.target? importer node).toList
  | .statements importer nodes _ _ => nodes.filterMap (ws.target? importer)

section

variable {ws : Workspace} {t : Task} {s s' : State} {v : String}

theorem Run.loading_eq (h : Run ws t s s') : s'.loading = s.loading := by
  obtain ⟨_, hadds⟩ := h.adds
  exact hadds.loading

/-- If every file that is being compiled leads to what the task `t` asks for, then each import that `t` passes over
closes a cycle. -/
theorem Run.cycle_of_circular (h : Run ws t s s')
    (hleads : ∀ u ∈ s.loading, ∀ w ∈ t.targets ws, Relation.TransGen ws.Imports u w) (hv : s'.Circular v) :
    s.Circular v ∨ Relation.TransGen ws.Imports v v ∧ ∀ u ∈ s.loading, Relation.TransGen ws.Imports u v := by
  induction h with
  | cached | unreadable => exact .inl (by simpa [State.Circular, State.noting, State.reading] using hv)
  | @circular s path _ hl =>
    have hnew : s.Circular v ∨ v = path := by simpa [State.Circular, State.noting] using hv
    refine hnew.imp_right ?_
    rintro rfl
    exact ⟨hleads _ hl _ List.mem_cons_self, fun u hu => hleads u hu _ List.mem_cons_self⟩
  | @compiled s s' path program bindings _ _ hp _ _ ih =>
    have hopened : (s.opened path program).Circular v ↔ s.Circular v := by
      simp [State.Circular, State.opened, circular_not_mem_nestedEvents]
    -- The path itself leads to what it imports, and so does every file that leads to the path.
    have hinner : ∀ u ∈ (s.opened path program).loading,
        ∀ w ∈ (Task.statements (some path) program.body [] bindings).targets ws, Relation.TransGen ws.Imports u w := by
      intro u hu w hw
      obtain ⟨node, hnode, htarget⟩ := List.mem_filterMap.1 hw
      have hstep := Workspace.imports_of_target hp hnode htarget
      rcases List.mem_cons.1 hu with rfl | hu
      · exact .single hstep
      · exact (hleads u hu path List.mem_cons_self).tail hstep
    have hclosed : s'.Circular v := by simpa [State.Circular, State.closed] using hv
    exact (ih hinner hclosed).imp hopened.1 fun h => ⟨h.1, fun u hu => h.2 u (List.mem_cons_of_mem _ hu)⟩
  | skipped => exact .inl (by simpa [State.Circular, State.noting, circular_not_mem_skipEvents] using hv)
  | dropped ht _ ih => exact ih (by simpa [Task.targets, ht] using hleads) hv
  | linked ht _ ih =>
    refine ih (by simpa [Task.targets, ht] using hleads) ?_
    simpa [State.Circular, State.noting, circular_not_mem_bindEvents] using hv
  | done => exact .inl hv
  | @next s s₁ s' importer node nodes before between after hrun _ ih₁ ih₂ =>
    have htargets : (Task.statements importer (node :: nodes) before after).targets ws =
        (Task.statement importer node before between).targets ws ++
          (Task.statements importer nodes between after).targets ws := by
      simp only [Task.targets, List.filterMap_cons]
      cases ws.target? importer node <;> rfl
    rw [htargets] at hleads
    rw [hrun.loading_eq] at ih₂
    rcases ih₂ (fun u hu w hw => hleads u hu w (List.mem_append_right _ hw)) hv with hold | hnew
    · exact ih₁ (fun u hu w hw => hleads u hu w (List.mem_append_left _ hw)) hold
    · exact .inr hnew

theorem Run.circular_mono (h : Run ws t s s') (hv : s.Circular v) : s'.Circular v := by
  induction h with
  | cached | circular | unreadable | skipped =>
    exact List.mem_append_left _ hv
  | compiled _ _ _ _ _ ih => exact List.mem_append_left _ (ih (List.mem_append_left _ hv))
  | dropped _ _ ih => exact ih hv
  | linked _ _ ih => exact List.mem_append_left _ (ih hv)
  | done => exact hv
  | next _ _ ih₁ ih₂ => exact ih₂ (ih₁ hv)

/-- If no import is passed over as `Circular`, every module comes after all modules it imports, and the files that the
task goes to have modules. -/
theorem Run.sorted (h : Run ws t s s') (hnone : ∀ v, ¬ s'.Circular v)
    (hs : Sorted (fun a b => b ∈ ws.imports a) s.paths) :
    Sorted (fun a b => b ∈ ws.imports a) s'.paths ∧ ∀ v ∈ t.files ws, v ∈ s'.paths := by
  induction h with
  | @cached s path m hfind =>
    refine ⟨hs, fun v hv => ?_⟩
    obtain rfl := List.mem_singleton.1 (List.mem_filter.1 hv).1
    by_contra hn
    cases (Registry.find?_eq_none_iff.2 hn).symm.trans hfind
  | @circular s path =>
    exact absurd (List.mem_append_right _ List.mem_cons_self) (hnone path)
  | @unreadable s path _ _ hread =>
    refine ⟨hs, fun v hv => ?_⟩
    simp [Task.files, Workspace.readable, hread] at hv
  | @compiled s s' path program bindings _ _ hp _ hnew ih =>
    have hinner : ∀ v, ¬ s'.Circular v := fun v hv => hnone v (List.mem_append_left _ hv)
    obtain ⟨hsorted, hfiles⟩ := ih hinner hs
    rw [State.paths_closed hnew]
    refine ⟨hsorted.concat fun w hw => hfiles w ?_, fun v hv => ?_⟩
    · rw [Task.files, ← Workspace.imports_of_program hp]
      exact hw
    · obtain rfl := List.mem_singleton.1 (List.mem_filter.1 hv).1
      exact List.mem_append_right _ List.mem_cons_self
  | skipped ht =>
    refine ⟨hs, fun v hv => ?_⟩
    rw [Task.files, Workspace.imported_of_no_target ht] at hv
    cases hv
  | dropped ht _ ih =>
    rw [Task.files, Workspace.imported_of_target ht]
    exact ih hnone hs
  | linked ht _ ih =>
    rw [Task.files, Workspace.imported_of_target ht]
    exact ih (fun v hv => hnone v (List.mem_append_left _ hv)) hs
  | done => exact ⟨hs, fun v hv => by cases hv⟩
  | @next s s₁ s' importer node nodes before between after hfirst hrest ih₁ ih₂ =>
    obtain ⟨hsorted₁, hfiles₁⟩ := ih₁ (fun v hv => hnone v (hrest.circular_mono hv)) hs
    obtain ⟨hsorted₂, hfiles₂⟩ := ih₂ hnone hsorted₁
    obtain ⟨order, hadds⟩ := hrest.adds
    refine ⟨hsorted₂, fun v hv => ?_⟩
    rw [Task.files, Workspace.imported_cons] at hv
    rcases List.mem_append.1 hv with hv | hv
    · rw [hadds.paths]
      exact List.mem_append_left _ (hfiles₁ v hv)
    · exact hfiles₂ v hv

end

/-! ## Builds -/

/-- What `Warning.message` starts with for a circular import. -/
def circularStem : String := "Circular import ignored:"

theorem circularStem_prefix_iff (w : Warning) :
    circularStem.toList <+: w.message.toList ↔ ∃ path, w = .circular path := by
  rw [← List.isPrefixOf_iff_prefix, ← Warning.startsWith, Warning.startsWith_iff (by decide)]
  cases w <;> simp [Warning.stem, circularStem]

section

variable {ws : Workspace} {s s' : State} {r : Result} {source root : String} {spec : Option Typing.Spec}

theorem circular_iff {v : String} : .circular v ∈ s.warnings ↔ s.Circular v := by
  simp only [State.warnings, State.Circular, List.mem_filterMap]
  constructor
  · rintro ⟨event, hevent, hw⟩
    cases event <;> cases hw
    exact hevent
  · exact fun h => ⟨_, h, rfl⟩

/-- Before the imports of a program are linked no circular import was noted. -/
theorem not_circular_started (hs : s.warnings = []) (program : Node) (v : String) :
    ¬ (s.started (some root) program).Circular v := by
  intro h
  have hold : s.Circular v := by simpa [State.Circular, State.started, circular_not_mem_nestedEvents] using h
  rw [← circular_iff, hs] at hold
  cases hold

/-- A path that a build warns of lies on a cycle and can be reached from the program. -/
theorem cycle_of_build (h : build ws source (some root) spec s = .ok r s') (hs : s.warnings = [])
    (hp : ws.program? root = some r.program) {v : String} (hv : .circular v ∈ r.warnings) :
    Relation.ReflTransGen ws.Imports root v ∧ Relation.TransGen ws.Imports v v := by
  obtain ⟨bindings, s₁, -, hrun, -, -, -, hwarnings⟩ := build_eq_ok h
  rw [hwarnings, circular_iff] at hv
  have hleads : ∀ u ∈ (s.started (some root) r.program).loading,
      ∀ w ∈ (Task.statements (some root) r.program.body [] bindings).targets ws, Relation.TransGen ws.Imports u w := by
    intro u hu w hw
    obtain rfl := List.mem_singleton.1 hu
    obtain ⟨node, hnode, htarget⟩ := List.mem_filterMap.1 hw
    exact .single (Workspace.imports_of_target hp hnode htarget)
  obtain hold | ⟨hcycle, hreach⟩ := hrun.cycle_of_circular hleads hv
  · exact absurd hold (not_circular_started hs _ v)
  · exact ⟨(hreach root List.mem_cons_self).to_reflTransGen, hcycle⟩

/-- If a build warns of no circular import, its modules and the program after them are sorted. -/
theorem sorted_of_build (h : build ws source (some root) spec s = .ok r s')
    (hp : ws.program? root = some r.program) (hnone : ∀ v, .circular v ∉ r.warnings) :
    Sorted (fun a b => b ∈ ws.imports a) (r.modules.map (·.path) ++ [root]) := by
  obtain ⟨bindings, s₁, -, hrun, hmodules, -, -, hwarnings⟩ := build_eq_ok h
  have hclean (v : String) : ¬ s₁.Circular v := by
    rw [← circular_iff, ← hwarnings]
    exact hnone v
  have hempty : Sorted (fun a b => b ∈ ws.imports a) (s.started (some root) r.program).paths := by
    intro front v back hn
    cases List.append_eq_nil_iff.1 hn.symm |>.2
  obtain ⟨hsorted, hfiles⟩ := hrun.sorted hclean hempty
  rw [hrun.paths_eq rfl, ← hmodules] at hsorted hfiles
  refine hsorted.concat fun w hw => hfiles w ?_
  rw [Task.files, ← Workspace.imports_of_program hp]
  exact hw

/-- If the modules of a build are `Sorted`, no file that the program reaches lies on a cycle. -/
theorem not_cycle_of_sorted (h : build ws source (some root) spec s = .ok r s')
    (hp : ws.program? root = some r.program)
    (hsorted : Sorted (fun a b => b ∈ ws.imports a) (r.modules.map (·.path) ++ [root])) {v : String}
    (hreach : Relation.ReflTransGen ws.Imports root v) : ¬ Relation.TransGen ws.Imports v v := by
  intro hcycle
  have hvisits := visits_of_program h hp
  have hroot : root ∉ r.modules.map (·.path) := fun hm => hvisits.not_mem_seen hm rfl
  have hnodup : (r.modules.map (·.path) ++ [root]).Nodup :=
    List.nodup_append.2 ⟨hvisits.nodup, List.nodup_singleton root, fun u hu w hw he => by
      obtain rfl := List.mem_singleton.1 hw
      exact hroot (he ▸ hu)⟩
  have hreadable := Workspace.readable_of_cycle hcycle
  have hmem : v ∈ r.modules.map (·.path) ++ [root] := by
    by_cases hv : v = root
    · simp [hv]
    · exact List.mem_append_left _ ((mem_modules_of_build h hp v).2 ⟨hv, hreadable, hreach⟩)
  exact hsorted.not_transGen_self hnodup hmem (Workspace.transGen_imports hcycle hreadable)

/-- `compileFile` warns of a circular import if and only if the program reaches a file that lies on a cycle of
`Imports`. If it reaches none, every import of a module that means a file that can be opened means a module before it.
-/
theorem circular_compileFile {path : String} {checkTypes : Bool} (h : compileFile ws path checkTypes s = .ok r s') :
    let root := Path.canonical ws.cwd path
    let Cyclic := ∃ v, Relation.ReflTransGen ws.Imports root v ∧ Relation.TransGen ws.Imports v v
    ((∃ w ∈ r.warnings, circularStem.toList <+: w.message.toList) ↔ Cyclic) ∧
    (¬ Cyclic → ∀ (i : Nat) (m : Module), r.modules[i]? = some m → ∀ target, ws.Imports m.path target →
      ws.readable target → ∃ j < i, ∃ m', r.modules[j]? = some m' ∧ m'.path = target) := by
  intro root Cyclic
  obtain ⟨source, spec, s₁, hread, -, hwarnings, hbuild⟩ := build_of_compileFile h
  obtain ⟨_, _, hparsed, -⟩ := build_eq_ok hbuild
  have hp : ws.program? root = some r.program := program?_of_read hread hparsed
  have hwarned : (∃ w ∈ r.warnings, circularStem.toList <+: w.message.toList) ↔ ∃ v, .circular v ∈ r.warnings := by
    simp only [circularStem_prefix_iff]
    exact ⟨fun ⟨_, hw, v, hv⟩ => ⟨v, hv ▸ hw⟩, fun ⟨v, hv⟩ => ⟨_, hv, v, rfl⟩⟩
  have hsorted (hnone : ¬ ∃ v, .circular v ∈ r.warnings) :
      Sorted (fun a b => b ∈ ws.imports a) (r.modules.map (·.path) ++ [root]) :=
    sorted_of_build hbuild hp fun v hv => hnone ⟨v, hv⟩
  have hcyclic : (∃ v, .circular v ∈ r.warnings) ↔ Cyclic := by
    constructor
    · rintro ⟨v, hv⟩
      exact ⟨v, cycle_of_build hbuild hwarnings hp hv⟩
    · rintro ⟨v, hreach, hcycle⟩
      by_contra hnone
      exact not_cycle_of_sorted hbuild hp (hsorted hnone) hreach hcycle
  refine ⟨hwarned.trans hcyclic, fun hnone i m hi target himports hr => ?_⟩
  have hlt := (List.getElem?_eq_some_iff.1 hi).1
  -- The module stands between those before it and those after it, with the program at the end.
  have hplace : r.modules.map (·.path) ++ [root] =
      (r.modules.take i).map (·.path) ++ m.path :: ((r.modules.drop (i + 1)).map (·.path) ++ [root]) := by
    have hm : r.modules = r.modules.take i ++ m :: r.modules.drop (i + 1) := by
      rw [← (List.getElem?_eq_some_iff.1 hi).2, List.getElem_cons_drop, List.take_append_drop]
    conv_lhs => rw [hm]
    simp
  have hmem := hsorted (fun hv => hnone (hcyclic.1 hv)) _ _ _ hplace target
    (Workspace.mem_imports_iff.2 ⟨himports, hr⟩)
  obtain ⟨m', hm', hpath⟩ := List.mem_map.1 hmem
  obtain ⟨j, hj⟩ := List.mem_iff_getElem?.1 hm'
  obtain ⟨hji, hj⟩ : j < i ∧ r.modules[j]? = some m' := by simpa [List.getElem?_take] using hj
  exact ⟨j, hji, m', hj, hpath⟩

end

/-- A program whose two modules share a third one. -/
def diamond : Workspace :=
  { files := { contents := .ofList [("/work/m", .text "aayaat 'a' aayaat 'b'"), ("/work/a", .text "aayaat 'c'"),
      ("/work/b", .text "aayaat 'c'"), ("/work/c", .text "bol 1")] } }

theorem canonical_diamond : Path.canonical diamond.cwd "m" = "/work/m" := by decide +kernel

theorem circular_compileFile_examples :
    (∃ v, Relation.ReflTransGen cyclic.Imports "/work/m" v ∧ Relation.TransGen cyclic.Imports v v) ∧
      (¬ ∃ v, Relation.ReflTransGen diamond.Imports "/work/m" v ∧ Relation.TransGen diamond.Imports v v) ∧
      ∃ r s', compileFile diamond "m" false {} = .ok r s' ∧ r.modules.map (·.path) = ["/work/c", "/work/a", "/work/b"] ∧
        ∃ j < 2, ∃ m', r.modules[j]? = some m' ∧ m'.path = "/work/c" := by
  have hcyclic : ((compileFile cyclic "m" false).run' {}).map (fun r => r.warnings.head?) =
      some (some (.circular "/work/a")) := by
    decide +kernel
  have hdiamond : ((compileFile diamond "m" false).run' {}).map (fun r => (r.warnings, r.modules.map (·.path))) =
      some ([], ["/work/c", "/work/a", "/work/b"]) := by
    decide +kernel
  obtain ⟨r₁, s₁, h₁, hhead⟩ := exists_ok_of_run' hcyclic
  obtain ⟨r₂, s₂, h₂, hvalues⟩ := exists_ok_of_run' hdiamond
  obtain ⟨hwarnings, hpaths⟩ := Prod.mk.inj hvalues
  have hwarned : ∃ w ∈ r₁.warnings, circularStem.toList <+: w.message.toList :=
    ⟨_, List.mem_of_head? hhead, (circularStem_prefix_iff _).2 ⟨_, rfl⟩⟩
  have hcycle := (circular_compileFile h₁).1.1 hwarned
  obtain ⟨hwarned₂, hearlier⟩ := circular_compileFile h₂
  rw [canonical_diamond] at hwarned₂ hearlier
  rw [canonical_cyclic] at hcycle
  have hnone : ¬ ∃ v, Relation.ReflTransGen diamond.Imports "/work/m" v ∧ Relation.TransGen diamond.Imports v v := by
    rw [← hwarned₂, hwarnings]
    rintro ⟨w, hw, -⟩
    cases hw
  obtain ⟨m, hm, hpath⟩ : ∃ m, r₂.modules[2]? = some m ∧ m.path = "/work/b" := by
    have : (r₂.modules.map (·.path))[2]? = some "/work/b" := by rw [hpaths]; rfl
    simpa using this
  obtain ⟨himports, hreadable⟩ : diamond.Imports "/work/b" "/work/c" ∧ diamond.readable "/work/c" :=
    Workspace.mem_imports_iff.1 (by decide +kernel)
  exact ⟨hcycle, hnone, r₂, s₂, h₂, hpaths, hearlier hnone 2 m hm _ (hpath ▸ himports) hreadable⟩

end HindiScript.Bundle
