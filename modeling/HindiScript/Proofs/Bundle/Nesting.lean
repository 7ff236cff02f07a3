import HindiScript.Proofs.Bundle.Depth
import Mathlib.Data.Finset.Card

/-!
# Loading ends

While a load compiles its file it asks for the files that this one imports (`Calls`), and what it does depends on
these calls only (`loadWith_congr`). A file that is being compiled is not compiled again, so with each call fewer files
are left that could be (`Calls.unopened_ssubset`). Loads are therefore nested at most once more than there are files
that can be opened, whatever the files import, and a depth of this size is as good as none (`load_terminates`).
-/

namespace HindiScript.Bundle

/-! ## The files that are left -/

namespace Workspace

/-- The paths of the files that can be opened. -/
def readablePaths (ws : Workspace) : Finset String := (ws.files.contents.names.filter ws.readable).toFinset

/-- The `readablePaths` that are not being compiled. -/
def unopened (ws : Workspace) (s : State) : Finset String := ws.readablePaths.filter (· ∉ s.loading)

variable {ws : Workspace} {path : String} {s : State}

theorem mem_readablePaths : path ∈ ws.readablePaths ↔ ws.readable path := by
  simp only [readablePaths, List.mem_toFinset, List.mem_filter, and_iff_right_iff_imp]
  exact mem_names_of_readable

theorem mem_unopened : path ∈ ws.unopened s ↔ ws.readable path ∧ path ∉ s.loading := by
  rw [unopened, Finset.mem_filter, mem_readablePaths]

theorem card_unopened_le (ws : Workspace) (s : State) : (ws.unopened s).card ≤ ws.readablePaths.card :=
  Finset.card_filter_le _ _

theorem card_readablePaths_le (ws : Workspace) : ws.readablePaths.card ≤ ws.depth := by
  calc ws.readablePaths.card
    _ ≤ (ws.files.contents.names.filter ws.readable).length := List.toFinset_card_le _
    _ ≤ ws.files.contents.names.length := List.length_filter_le _ _
    _ = ws.depth := List.length_map _

end Workspace

/-! ## Calls -/

/-- A load that is asked for: the path, and the state of the build then. -/
structure Call where
  path : String
  state : State

/-- The first load compiles its file, and comes to a statement that imports the file of the second: it has to `load`
that one. -/
inductive Calls (ws : Workspace) : Call → Call → Prop where
  | nested {s s₁ path program before node after bound target} :
    s.cache.modules.find? path = none → path ∉ s.loading → ws.program? path = some program →
    program.body = before ++ node :: after →
    Run ws (.statements (some path) before [] bound) (s.opened path program) s₁ →
    ws.target? (some path) node = some target →
    Calls ws ⟨path, s⟩ ⟨target, s₁⟩

section

variable {ws : Workspace} {c c' : Call}

/-- A call is made while just one more file is being compiled, which was `unopened` before. -/
theorem Calls.unopened_eq (h : Calls ws c c') :
    c.path ∈ ws.unopened c.state ∧ ws.unopened c'.state = (ws.unopened c.state).erase c.path := by
  cases h with
  | @nested s s₁ path program before node after bound target _ hl hp _ hrun _ =>
    refine ⟨Workspace.mem_unopened.2 ⟨Workspace.readable_of_program hp, hl⟩, ?_⟩
    have hloading : s₁.loading = path :: s.loading := hrun.loading_eq
    ext v
    simp only [Finset.mem_erase, Workspace.mem_unopened, hloading, List.mem_cons, not_or]
    tauto

theorem Calls.unopened_ssubset (h : Calls ws c c') : ws.unopened c'.state ⊂ ws.unopened c.state := by
  obtain ⟨hmem, heq⟩ := h.unopened_eq
  rw [heq]
  exact Finset.erase_ssubset hmem

theorem Calls.card_lt (h : Calls ws c c') : (ws.unopened c'.state).card < (ws.unopened c.state).card :=
  Finset.card_lt_card h.unopened_ssubset

/-- Calls that are nested in one another are at most one more than the files `unopened` at the first. -/
theorem length_le_of_chain {calls : List Call} (h : (c :: calls).IsChain (Calls ws)) :
    calls.length ≤ (ws.unopened c.state).card := by
  induction calls generalizing c with
  | nil => exact Nat.zero_le _
  | cons c' calls ih =>
    obtain ⟨hcall, hrest⟩ := List.isChain_cons_cons.1 h
    have hlt := hcall.card_lt
    have hle := ih hrest
    rw [List.length_cons]
    omega

end

/-! ## What a load does depends on its calls -/

theorem bind_eq_bind {α β : Type} {x y : BuildM α} {f g : α → BuildM β} {s : State} (h : x s = y s)
    (hnext : ∀ a s₁, x s = .ok a s₁ → f a s₁ = g a s₁) : (x >>= f) s = (y >>= g) s := by
  cases hx : x s with
  | ok a s₁ =>
    rw [bind_of_ok hx, bind_of_ok (h.symm.trans hx)]
    exact hnext a s₁ hx
  | error e s₁ => rw [bind_of_error hx, bind_of_error (h.symm.trans hx)]

theorem whileLoading_congr {α : Type} {x y : BuildM α} {path : String} {s : State}
    (h : x { s with loading := path :: s.loading } = y { s with loading := path :: s.loading }) :
    whileLoading path x s = whileLoading path y s := by
  unfold whileLoading
  rw [h]

section

variable {ws : Workspace} {load load' : String → BuildM (Option Module)} {importer : Option String} {s : State}

theorem linkStatement_congr {node : Node}
    (h : ∀ target, ws.target? importer node = some target → load target s = load' target s) (bound : List Binding) :
    linkStatement ws load importer bound node s = linkStatement ws load' importer bound node s := by
  cases htarget : ws.target? importer node with
  | none => rw [linkStatement_of_no_target htarget, linkStatement_of_no_target htarget]
  | some target =>
    rw [linkStatement_of_target htarget, linkStatement_of_target htarget]
    exact bind_eq_bind (h target htarget) fun _ _ _ => rfl

theorem linkEach_congr {nodes : List Node} {bound : List Binding}
    (hload : ∀ {path s r s'}, load path s = .ok r s' → Run ws (.load path r) s s')
    (h : ∀ before node after bound' target s₁, nodes = before ++ node :: after →
      Run ws (.statements importer before bound bound') s s₁ → ws.target? importer node = some target →
      load target s₁ = load' target s₁) :
    linkEach ws load importer bound nodes s = linkEach ws load' importer bound nodes s := by
  induction nodes generalizing bound s with
  | nil => rfl
  | cons node rest ih =>
    apply bind_eq_bind
    · exact linkStatement_congr (fun target htarget => h [] node rest bound target s rfl .done htarget) bound
    · -- What comes later is asked for after this statement.
      intro bound₁ s₁ hnode
      apply ih
      intro before node' after bound' target s₂ hnodes hrun htarget
      have hrun' := Run.next (run_of_linkStatement hload hnode) hrun
      exact h (node :: before) node' after bound' target s₂ (by rw [hnodes, List.cons_append]) hrun' htarget

/-- Two ways to load that answer the `Calls` of a load in the same way make it do the same. -/
theorem loadWith_congr {path : String}
    (hload : ∀ {path s r s'}, load path s = .ok r s' → Run ws (.load path r) s s')
    (h : ∀ c, Calls ws ⟨path, s⟩ c → load c.path c.state = load' c.path c.state) :
    loadWith ws load path s = loadWith ws load' path s := by
  cases hfind : s.cache.modules.find? path with
  | some m => rw [loadWith_of_cached hfind, loadWith_of_cached hfind]
  | none =>
    by_cases hl : path ∈ s.loading
    · rw [loadWith_of_loading hfind hl, loadWith_of_loading hfind hl]
    rw [loadWith_of_fresh hfind hl, loadWith_of_fresh hfind hl]
    apply bind_eq_bind rfl
    intro source s₁ hread
    obtain ⟨hcontent, rfl⟩ := readText_eq_ok hread
    cases source with
    | none => rfl
    | some source =>
      refine bind_eq_bind (whileLoading_congr ?_) fun _ _ _ => rfl
      rw [compileModule_eq, compileModule_eq]
      apply bind_eq_bind rfl
      intro program s₂ hparse
      obtain ⟨hparsed, rfl⟩ := parseSource_eq_ok hparse
      refine bind_eq_bind ?_ fun _ _ _ => rfl
      unfold link
      rw [bind_of_ok (warnNested_eq _ _), bind_of_ok (warnNested_eq _ _)]
      apply linkEach_congr hload
      intro before node after bound target s₃ hbody hrun htarget
      have hp := program?_of_read hcontent hparsed
      exact h ⟨target, s₃⟩ (.nested hfind hl hp hbody (s.opened_eq path program ▸ hrun) htarget)

end

/-! ## Nested loads -/

/-- `loadWith` nested in itself as often as the number says, around `below`. -/
def nestedLoads (ws : Workspace) (below : String → BuildM (Option Module)) : Nat → String → BuildM (Option Module)
  | 0 => below
  | n + 1 => loadWith ws (nestedLoads ws below n)

/-- `below` is not asked for, if there are more than `unopened` loads around it. -/
theorem nestedLoads_eq_load {ws : Workspace} {below : String → BuildM (Option Module)} {n depth : Nat} {path : String}
    {s : State} (hn : (ws.unopened s).card < n) (hd : (ws.unopened s).card ≤ depth) :
    nestedLoads ws below n path s = load ws depth path s := by
  induction n generalizing depth path s with
  | zero => omega
  | succ n ih =>
    symm
    cases depth with
    | zero =>
      apply loadWith_congr (fun h => by cases h)
      intro c hcall
      have hlt : (ws.unopened c.state).card < (ws.unopened s).card := hcall.card_lt
      omega
    | succ depth =>
      apply loadWith_congr run_of_load
      intro c hcall
      have hlt : (ws.unopened c.state).card < (ws.unopened s).card := hcall.card_lt
      exact (ih (by omega) (by omega)).symm

theorem nestedLoads_eq {ws : Workspace} {n : Nat} (hn : ws.readablePaths.card < n)
    (below : String → BuildM (Option Module)) : nestedLoads ws below n = load ws ws.depth := by
  funext path s
  have hle := ws.card_unopened_le s
  have hdepth := ws.card_readablePaths_le
  exact nestedLoads_eq_load (by omega) (by omega)

/-- The `load` of a build asks itself for what the file imports: its `depth` is never used up. -/
theorem load_depth_eq (ws : Workspace) : load ws ws.depth = loadWith ws (load ws ws.depth) := by
  have hn : ws.readablePaths.card < ws.readablePaths.card + 1 := Nat.lt_succ_self _
  calc load ws ws.depth
    _ = nestedLoads ws (load ws ws.depth) (ws.readablePaths.card + 1 + 1) := (nestedLoads_eq (by omega) _).symm
    _ = loadWith ws (nestedLoads ws (load ws ws.depth) (ws.readablePaths.card + 1)) := rfl
    _ = loadWith ws (load ws ws.depth) := by rw [nestedLoads_eq hn]

/-! ## Builds -/

section

variable {ws : Workspace} {source : String} {spec : Option Typing.Spec} {s s' : State}

theorem ne_tooDeep_of_build {root : Option String} (hroot : ∀ v ∈ root, ws.readable v) :
    build ws source root spec s ≠ .error .tooDeep s' := by
  intro h
  rcases error_of_build hroot h with ⟨_, -, he⟩ | ⟨_, _, _, _, -, -, -, -, hspoils⟩
  · cases he
  · cases hspoils

theorem ne_tooDeep_of_compileFile {path : String} {checkTypes : Bool} :
    compileFile ws path checkTypes s ≠ .error .tooDeep s' := by
  intro h
  rcases compileFile_cases ws path checkTypes s with ⟨-, s₁, h₁⟩ | ⟨q, s₁, -, h₁⟩ | ⟨source, spec, s₁, -, hread, h₁⟩
  · cases h₁.symm.trans h
  · cases h₁.symm.trans h
  · exact ne_tooDeep_of_build (by simp [Workspace.readable, hread]) (h₁.symm.trans h)

theorem ne_tooDeep_of_compileSource : compileSource ws source spec s ≠ .error .tooDeep s' := by
  intro h
  rcases bind_eq_error h with h | ⟨_, s₁, -, h⟩
  · cases h
  · exact ne_tooDeep_of_build (by simp) h

end

/-- `load` ends, whatever the files import. `nestedLoads` of one more than `readablePaths` do what `load` does,
whatever is `below` them. What a load does depends on nothing but its `Calls`, each of which is made with fewer files
`unopened`, and so calls are nested at most once more than there are files. No build fails with `tooDeep`. -/
theorem load_terminates (ws : Workspace) :
    (∀ below n, ws.readablePaths.card < n → nestedLoads ws below n = load ws ws.depth) ∧
    (∀ other path s, (∀ c, Calls ws ⟨path, s⟩ c → load ws ws.depth c.path c.state = other c.path c.state) →
      load ws ws.depth path s = loadWith ws other path s) ∧
    (∀ c c', Calls ws c c' → ws.unopened c'.state ⊂ ws.unopened c.state) ∧
    (∀ calls : List Call, calls.IsChain (Calls ws) → calls.length ≤ ws.readablePaths.card + 1) ∧
    (∀ path checkTypes s s', compileFile ws path checkTypes s ≠ .error .tooDeep s') ∧
    ∀ source spec s s', compileSource ws source spec s ≠ .error .tooDeep s' := by
  refine ⟨fun below n hn => nestedLoads_eq hn below, fun other path s h => ?_, fun c c' h => h.unopened_ssubset,
    fun calls h => ?_, fun path checkTypes s s' => ne_tooDeep_of_compileFile,
    fun source spec s s' => ne_tooDeep_of_compileSource⟩
  · rw [load_depth_eq]
    exact loadWith_congr run_of_load h
  · cases calls with
    | nil => exact Nat.zero_le _
    | cons c calls =>
      have hle := length_le_of_chain h
      have := ws.card_unopened_le c.state
      rw [List.length_cons]
      omega

/-- Three files that import one another in a ring. -/
def ring : Workspace :=
  { files := { contents := .ofList [("/work/a", .text "aayaat 'b'"), ("/work/b", .text "aayaat 'c'"),
      ("/work/c", .text "aayaat 'a'")] } }

/-- The program of a file that only imports another. -/
def importing (source : String) : Node := .program none [.importDecl (some 1) (some source) none]

theorem calls_ring {path text source target : String} {s : State} (hfind : s.cache.modules.find? path = none)
    (hl : path ∉ s.loading) (hread : ring.files.read? path = some (.text text))
    (htokens : tokenize text = .ok [⟨.keyword .aayaat, 1, 1⟩, ⟨.string source, 1, 8⟩])
    (htarget : ring.target? (some path) (.importDecl (some 1) (some source) none) = some target) :
    Calls ring ⟨path, s⟩ ⟨target, s.opened path (importing source)⟩ := by
  have hparsed : parseText text = .ok (importing source) := by
    rw [parseText, htokens]
    rfl
  exact .nested hfind hl (program?_of_read hread hparsed) rfl .done htarget

theorem load_terminates_ring :
    ring.readablePaths.card = 3 ∧ nestedLoads ring (fun _ => throw .tooDeep) 4 = load ring ring.depth ∧
      ∃ calls : List Call, calls.IsChain (Calls ring) ∧
        calls.map (·.path) = ["/work/a", "/work/b", "/work/c", "/work/a"] ∧
        calls.length ≤ ring.readablePaths.card + 1 := by
  have hcard : ring.readablePaths.card = 3 := by decide +kernel
  obtain ⟨hbelow, -, -, hchain, -⟩ := load_terminates ring
  let s₁ : State := {}
  let s₂ := s₁.opened "/work/a" (importing "b")
  let s₃ := s₂.opened "/work/b" (importing "c")
  let s₄ := s₃.opened "/work/c" (importing "a")
  have h₁ : Calls ring ⟨"/work/a", s₁⟩ ⟨"/work/b", s₂⟩ :=
    calls_ring rfl (by decide) rfl (by decide +kernel) (by decide +kernel)
  have h₂ : Calls ring ⟨"/work/b", s₂⟩ ⟨"/work/c", s₃⟩ :=
    calls_ring rfl (by decide) rfl (by decide +kernel) (by decide +kernel)
  have h₃ : Calls ring ⟨"/work/c", s₃⟩ ⟨"/work/a", s₄⟩ :=
    calls_ring rfl (by decide) rfl (by decide +kernel) (by decide +kernel)
  have hcalls : [Call.mk "/work/a" s₁, ⟨"/work/b", s₂⟩, ⟨"/work/c", s₃⟩, ⟨"/work/a", s₄⟩].IsChain (Calls ring) :=
    .cons_cons h₁ (.cons_cons h₂ (.cons_cons h₃ (.singleton _)))
  exact ⟨hcard, hbelow _ 4 (by omega), _, hcalls, rfl, hchain _ hcalls⟩

end HindiScript.Bundle
