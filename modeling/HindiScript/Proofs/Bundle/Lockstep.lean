import HindiScript.Proofs.Bundle.Steps

/-!
# Builds in lockstep

Two builds whose states differ only in what was read before do the same: they go in lockstep (`Lockstep`). Each part of
a build does, if the modules that it loads do (`lockstep_loadWith`), and so do whole builds (`endAlike_build_of_linkRoot`).
The statements are about two workspaces, in which the imports that are met mean the same files. Also when a build
fails, the paths that count as being compiled are those that did before.
-/

namespace HindiScript.Bundle

/-! ## Lockstep -/

/-- The states differ at most in `reads`. -/
structure State.Alike (s t : State) : Prop where
  cache : s.cache = t.cache
  loading : s.loading = t.loading
  journal : s.journal = t.journal

/-- Both steps succeeded with the same value in states that are `Alike`, or both failed for the same reason; and the
paths in `loading` are being compiled after them. -/
def EndAlike {α : Type} (loading : List String) : (x y : EStateM.Result Failure State α) → Prop
  | .ok a s, .ok b t => a = b ∧ s.Alike t ∧ s.loading = loading
  | .error e s, .error f t => e = f ∧ s.loading = loading ∧ t.loading = loading
  | _, _ => False

/-- Steps that end alike give the same value and leave the same cache, or fail for the same reason. -/
theorem EndAlike.cases {α : Type} {loading : List String} {x y : EStateM.Result Failure State α} (h : EndAlike loading x y) :
    (∃ a s t, x = .ok a s ∧ y = .ok a t ∧ s.cache = t.cache) ∨ ∃ e s t, x = .error e s ∧ y = .error e t := by
  cases x <;> cases y
  case ok.ok a s b t =>
    obtain ⟨rfl, halike, -⟩ := h
    exact .inl ⟨a, s, t, rfl, rfl, halike.cache⟩
  case error.error e s f t =>
    obtain ⟨rfl, -, -⟩ := h
    exact .inr ⟨e, s, t, rfl, rfl⟩
  all_goals exact h.elim

/-- From states that are alike the steps end alike. -/
def Lockstep {α : Type} (x y : BuildM α) : Prop := ∀ s t, s.Alike t → EndAlike s.loading (x s) (y t)

namespace State.Alike

variable {s t : State}

theorem refl (s : State) : s.Alike s := ⟨rfl, rfl, rfl⟩

theorem noting (h : s.Alike t) (events : List Event) : (s.noting events).Alike (t.noting events) :=
  ⟨h.cache, h.loading, congrArg (· ++ events) h.journal⟩

theorem warnings (h : s.Alike t) : s.warnings = t.warnings := congrArg (·.filterMap Event.warning?) h.journal

end State.Alike

section

variable {α β : Type} {x y : BuildM α}

/-- `f` and `g` need to end alike only for a value that `x` gives, and from the states it leaves. -/
theorem EndAlike.bind {loading : List String} {f g : α → BuildM β} {s t : State} (h : EndAlike loading (x s) (y t))
    (hf : ∀ a s₁ t₁, x s = .ok a s₁ → s₁.Alike t₁ → s₁.loading = loading → EndAlike loading (f a s₁) (g a t₁)) :
    EndAlike loading ((x >>= f) s) ((y >>= g) t) := by
  cases hx : x s <;> cases hy : y t <;> rw [hx, hy] at h
  case ok.ok a s₁ b t₁ =>
    obtain ⟨rfl, halike, hloading⟩ := h
    rw [Bundle.bind_of_ok hx, Bundle.bind_of_ok hy]
    exact hf a s₁ t₁ hx halike hloading
  case error.error e s₁ f t₁ =>
    rw [bind_of_error hx, bind_of_error hy]
    exact h
  all_goals exact h.elim

theorem Lockstep.bind_of_ok {f g : α → BuildM β} (h : Lockstep x y)
    (hf : ∀ a s s₁, x s = .ok a s₁ → Lockstep (f a) (g a)) : Lockstep (x >>= f) (y >>= g) := by
  intro s t hst
  refine (h s t hst).bind fun a s₁ t₁ hx halike hloading => ?_
  rw [← hloading]
  exact hf a s s₁ hx s₁ t₁ halike

theorem Lockstep.bind {f g : α → BuildM β} (h : Lockstep x y) (hf : ∀ a, Lockstep (f a) (g a)) :
    Lockstep (x >>= f) (y >>= g) :=
  h.bind_of_ok fun a _ _ _ => hf a

theorem lockstep_pure (a : α) : Lockstep (pure a) (pure a) := fun _ _ hst => ⟨rfl, hst, rfl⟩

theorem lockstep_throw (e : Failure) : Lockstep (throw e : BuildM α) (throw e) :=
  fun _ _ hst => ⟨rfl, rfl, hst.loading.symm⟩

theorem lockstep_note (event : Event) : Lockstep (note event) (note event) :=
  fun _ _ hst => ⟨rfl, hst.noting [event], rfl⟩

/-- Under `whileLoading` the states stay alike, and the path is taken off again in both. -/
theorem Lockstep.whileLoading (h : Lockstep x y) (path : String) :
    Lockstep (whileLoading path x) (whileLoading path y) := by
  intro s t hst
  have hxy := h { s with loading := path :: s.loading } { t with loading := path :: t.loading }
    ⟨hst.cache, congrArg (path :: ·) hst.loading, hst.journal⟩
  unfold Bundle.whileLoading
  cases hx : x { s with loading := path :: s.loading } <;> cases hy : y { t with loading := path :: t.loading } <;>
    rw [hx, hy] at hxy
  · obtain ⟨rfl, halike, hloading⟩ := hxy
    refine ⟨rfl, ⟨halike.cache, congrArg (·.erase path) halike.loading, halike.journal⟩, ?_⟩
    simp [hloading]
  · exact hxy.elim
  · exact hxy.elim
  · obtain ⟨rfl, hs, ht⟩ := hxy
    exact ⟨rfl, by simp [hs], by simp [ht]⟩

end

/-! ## The parts of a build -/

section

variable {ws ws' : Workspace} {load load' : String → BuildM (Option Module)} {importer : Option String}

theorem lockstep_readText {path : String} (h : ws.files.read? path = ws'.files.read? path) :
    Lockstep (readText ws.files path) (readText ws'.files path) := by
  intro s t hst
  rcases hr : ws.files.read? path with _ | ⟨source | _⟩
  · rw [readText_of_none hr, readText_of_none (h ▸ hr)]
    exact ⟨rfl, ⟨hst.cache, hst.loading, hst.journal⟩, rfl⟩
  · rw [readText_of_text hr, readText_of_text (h ▸ hr)]
    exact ⟨rfl, ⟨hst.cache, hst.loading, hst.journal⟩, rfl⟩
  · rw [readText_of_undecodable hr, readText_of_undecodable (h ▸ hr)]
    exact ⟨rfl, rfl, hst.loading.symm⟩

theorem lockstep_parseSource (source label : String) :
    Lockstep (parseSource source label) (parseSource source label) := by
  unfold parseSource
  cases parseText source with
  | ok program => exact (lockstep_note _).bind fun _ => lockstep_pure _
  | error e => exact lockstep_throw _

theorem lockstep_bindLoaded (source : String) (bound : List Binding) (names : List String) (r : Option Module) :
    Lockstep (bindLoaded source bound names r) (bindLoaded source bound names r) := by
  cases r with
  | none => exact lockstep_pure _
  | some m =>
    intro s t hst
    show EndAlike s.loading (bindNames source m bound names s) (bindNames source m bound names t)
    rw [bindNames_eq, bindNames_eq]
    exact ⟨rfl, hst.noting _, rfl⟩

/-- In `ws` and `ws'` the statements `nodes` import the same files, and these are loaded in lockstep. -/
def LinkAlike (ws ws' : Workspace) (load load' : String → BuildM (Option Module)) (importer : Option String)
    (nodes : List Node) : Prop :=
  ∀ node ∈ nodes, ws.target? importer node = ws'.target? importer node ∧
    ∀ path, ws.target? importer node = some path → Lockstep (load path) (load' path)

theorem lockstep_linkStatement {node : Node} (bound : List Binding)
    (h : LinkAlike ws ws' load load' importer [node]) :
    Lockstep (linkStatement ws load importer bound node) (linkStatement ws' load' importer bound node) := by
  obtain ⟨htarget, hload⟩ := h node List.mem_cons_self
  cases hpath : ws.target? importer node with
  | none =>
    intro s t hst
    rw [linkStatement_of_no_target hpath, linkStatement_of_no_target (htarget ▸ hpath)]
    exact ⟨rfl, hst.noting _, rfl⟩
  | some path =>
    rw [linkStatement_of_target hpath, linkStatement_of_target (htarget ▸ hpath)]
    exact (hload path hpath).bind (lockstep_bindLoaded _ _ _)

theorem lockstep_linkEach {nodes : List Node} (bound : List Binding)
    (h : LinkAlike ws ws' load load' importer nodes) :
    Lockstep (linkEach ws load importer bound nodes) (linkEach ws' load' importer bound nodes) := by
  induction nodes generalizing bound with
  | nil => exact lockstep_pure _
  | cons node rest ih =>
    have hnode : LinkAlike ws ws' load load' importer [node] := fun n hn =>
      h n (List.mem_cons.2 (.inl (List.mem_singleton.1 hn)))
    exact (lockstep_linkStatement bound hnode).bind fun bound =>
      ih bound fun n hn => h n (List.mem_cons_of_mem _ hn)

theorem lockstep_link {program : Node} (h : LinkAlike ws ws' load load' importer program.body) :
    Lockstep (link ws load program importer) (link ws' load' program importer) := by
  refine Lockstep.bind (fun s t hst => ?_) fun _ => lockstep_linkEach [] h
  rw [warnNested_eq, warnNested_eq]
  exact ⟨rfl, hst.noting _, rfl⟩

theorem lockstep_finish (path : String) (program : Node) (bindings : List Binding) :
    Lockstep (finish path program bindings) (finish path program bindings) := by
  intro s t hst
  cases hfind : s.cache.modules.find? path with
  | some m =>
    rw [finish_of_cached hfind, finish_of_cached (hst.cache ▸ hfind)]
    exact ⟨rfl, rfl, hst.loading.symm⟩
  | none =>
    rw [finish_of_new hfind, finish_of_new (hst.cache ▸ hfind), ← hst.cache, ← hst.journal]
    exact ⟨rfl, ⟨rfl, hst.loading, rfl⟩, rfl⟩

theorem lockstep_compileModule {path source : String}
    (h : ∀ program, parseText source = .ok program → LinkAlike ws ws' load load' (some path) program.body) :
    Lockstep (compileModule ws load path source) (compileModule ws' load' path source) := by
  rw [compileModule_eq, compileModule_eq]
  refine (lockstep_parseSource source path).bind_of_ok fun program s s₁ hparse => ?_
  exact (lockstep_link (h program (parseSource_eq_ok hparse).1)).bind (lockstep_finish path program)

/-- A file is loaded in lockstep, if it is the same in both workspaces and what it imports is loaded in lockstep. -/
theorem lockstep_loadWith {path : String} (hread : ws.files.read? path = ws'.files.read? path)
    (h : ∀ program, ws.program? path = some program → LinkAlike ws ws' load load' (some path) program.body) :
    Lockstep (loadWith ws load path) (loadWith ws' load' path) := by
  intro s t hst
  cases hfind : s.cache.modules.find? path with
  | some m =>
    rw [loadWith_of_cached hfind, loadWith_of_cached (hst.cache ▸ hfind), ← hst.cache]
    exact ⟨rfl, ⟨rfl, hst.loading, congrArg (· ++ _) hst.journal⟩, rfl⟩
  | none =>
    by_cases hl : path ∈ s.loading
    · rw [loadWith_of_loading hfind hl, loadWith_of_loading (hst.cache ▸ hfind) (hst.loading ▸ hl)]
      exact ⟨rfl, hst.noting _, rfl⟩
    · rw [loadWith_of_fresh hfind hl, loadWith_of_fresh (hst.cache ▸ hfind) (hst.loading ▸ hl)]
      refine (lockstep_readText hread).bind_of_ok (fun source s s₁ hsource => ?_) s t hst
      cases source with
      | none => exact (lockstep_note _).bind fun _ => lockstep_pure _
      | some source =>
        obtain ⟨hcontent, -⟩ := readText_eq_ok hsource
        have hmodule := lockstep_compileModule fun program hparsed => h program (program?_of_read hcontent hparsed)
        exact (hmodule.whileLoading path).bind fun _ => lockstep_pure _

end

/-! ## Whole builds -/

section

variable {ws ws' : Workspace} {source : String}

theorem lockstep_conclude (root : Option String) (spec : Option Typing.Spec) (hsettings : ws.settings = ws'.settings)
    (program : Node) (bindings : List Binding) :
    Lockstep (conclude ws root spec program bindings) (conclude ws' root spec program bindings) := by
  intro s t hst
  have hmodules : s.modules = t.modules := congrArg (·.modules.values) hst.cache
  unfold conclude resultOf sections
  rw [hmodules, hst.warnings, hst.cache, hsettings]
  exact ⟨rfl, hst.noting _, rfl⟩

/-- Builds of one text end alike if the imports of its program are linked alike. -/
theorem endAlike_build_of_linkRoot {s t : State} (root : Option String) (spec : Option Typing.Spec)
    (hsettings : ws.settings = ws'.settings)
    (hlink : ∀ program, parseText source = .ok program → ∀ s t, s.Alike t → s.loading = [] →
      EndAlike [] (linkRoot ws program root s) (linkRoot ws' program root t))
    (h : s.journal = t.journal) : EndAlike [] (build ws source root spec s) (build ws' source root spec t) := by
  rw [build_eq, build_eq]
  have hstart : ({ s with cache := {}, loading := [] }.noting [.started (root.getD "<source>")]).Alike
      ({ t with cache := {}, loading := [] }.noting [.started (root.getD "<source>")]) :=
    ⟨rfl, rfl, congrArg (· ++ _) h⟩
  refine (lockstep_parseSource source _ _ _ hstart).bind fun program s₁ t₁ hparse halike hs => ?_
  refine (hlink program (parseSource_eq_ok hparse).1 s₁ t₁ halike hs).bind fun bindings s₂ t₂ _ halike hs => ?_
  have hlast := lockstep_conclude root spec hsettings program bindings s₂ t₂ halike
  rwa [hs] at hlast

end

/-! ## One workspace -/

section

variable {ws : Workspace}

theorem LinkAlike.refl {load : String → BuildM (Option Module)} (h : ∀ path, Lockstep (load path) (load path))
    (importer : Option String) (nodes : List Node) : LinkAlike ws ws load load importer nodes :=
  fun _ _ => ⟨rfl, fun path _ => h path⟩

/-- What was read before does not change what `load` gives. -/
theorem lockstep_load (depth : Nat) (path : String) : Lockstep (load ws depth path) (load ws depth path) := by
  induction depth generalizing path with
  | zero => exact lockstep_loadWith rfl fun _ _ => .refl (fun _ => lockstep_throw _) _ _
  | succ depth ih => exact lockstep_loadWith rfl fun _ _ => .refl ih _ _

theorem lockstep_linkRoot (program : Node) (root : Option String) :
    Lockstep (linkRoot ws program root) (linkRoot ws program root) := by
  have hlink (importer : Option String) :
      Lockstep (link ws (load ws ws.depth) program importer) (link ws (load ws ws.depth) program importer) :=
    lockstep_link (.refl (lockstep_load ws.depth) _ _)
  cases root with
  | none => exact hlink none
  | some root => exact (hlink (some root)).whileLoading root

/-- A build goes the same way from all states with one `journal`, and leaves no path in `loading`. -/
theorem endAlike_build {s t : State} (source : String) (root : Option String) (spec : Option Typing.Spec)
    (h : s.journal = t.journal) : EndAlike [] (build ws source root spec s) (build ws source root spec t) := by
  refine endAlike_build_of_linkRoot root spec rfl (fun program _ s t hst hs => ?_) h
  rw [← hs]
  exact lockstep_linkRoot program root s t hst

end

end HindiScript.Bundle
