import HindiScript.Proofs.Bundle.Accounting

/-!
# The first import of a name counts

Statement by statement, linking loads a module and binds the names that the import lists, unless they are bound
(`linkSteps`). An import without a module binds nothing. So the bindings are the listed names, each once, and each is
bound to the module of the first import that lists it; every other time it is listed there is a warning
(`firstCome_link`).
-/

namespace HindiScript.Bundle

/-! ## First occurrences -/

theorem removeAll_cons_of_mem {names : List String} {name : String} (h : name ∈ names) (l : List String) :
    (name :: l).removeAll names = l.removeAll names := by
  simp [List.removeAll, h]

theorem removeAll_cons_of_not_mem {names : List String} {name : String} (h : name ∉ names) (l : List String) :
    ((name :: l).removeAll names).eraseDups = name :: (l.removeAll (names ++ [name])).eraseDups := by
  have hrest : (l.removeAll names).filter (fun n => !n == name) = l.removeAll (names ++ [name]) := by
    simp only [List.removeAll, List.filter_filter]
    apply List.filter_congr
    intro n _
    rw [Bool.eq_iff_iff]
    simp [and_comm]
  rw [← hrest, ← List.eraseDups_cons]
  simp [List.removeAll, h]

/-- Adding to `names` those of `l` that are not there keeps the first of each. -/
theorem foldl_add_eq (names l : List String) :
    l.foldl (fun names name => if name ∈ names then names else names ++ [name]) names =
      names ++ (l.removeAll names).eraseDups := by
  induction l generalizing names with
  | nil => exact (List.append_nil names).symm
  | cons name rest ih =>
    rw [List.foldl_cons, ih]
    split
    next h => rw [removeAll_cons_of_mem h]
    next h => rw [removeAll_cons_of_not_mem h, List.append_assoc, List.singleton_append]

theorem nodup_eraseDups (l : List String) : l.eraseDups.Nodup := by
  cases l with
  | nil => exact List.nodup_nil
  | cons name rest =>
    rw [List.eraseDups_cons, List.nodup_cons, List.mem_eraseDups]
    exact ⟨by simp, nodup_eraseDups _⟩
termination_by l.length
decreasing_by exact Nat.lt_succ_of_le (List.length_filter_le _ _)

/-! ## Binding the names of one module -/

theorem names_bindAll (m : Module) (bound : List Binding) (names : List String) :
    (bindAll m bound names).map (·.name) =
      bound.map (·.name) ++ (names.removeAll (bound.map (·.name))).eraseDups := by
  rw [← foldl_add_eq]
  induction names generalizing bound with
  | nil => rfl
  | cons name rest ih =>
    unfold bindAll
    rw [List.foldl_cons]
    split
    · exact ih bound
    · rw [ih, List.map_append]
      rfl

/-- The warnings of names that are bound already. -/
def Warning.isDuplicate : Warning → Bool
  | duplicate .. => true
  | _ => false

/-- What `Warning.message` starts with for a name that is bound already. -/
def duplicateStem : String := "Duplicate import binding "

theorem startsWith_duplicateStem (w : Warning) : w.startsWith duplicateStem = w.isDuplicate := by
  rw [Bool.eq_iff_iff, Warning.startsWith_iff (by decide)]
  cases w <;> simp [Warning.stem, duplicateStem, Warning.isDuplicate]

def duplicates (events : List Event) : Nat := warned Warning.isDuplicate events

theorem duplicates_append (events events' : List Event) :
    duplicates (events ++ events') = duplicates events + duplicates events' := warned_append ..

theorem duplicates_cons (event : Event) (events : List Event) :
    duplicates (event :: events) = duplicates [event] + duplicates events := warned_cons ..

theorem duplicates_nestedEvents (program : Node) : duplicates (nestedEvents program) = 0 := by
  unfold nestedEvents
  induction program.nestedImports with
  | nil => rfl
  | cons node rest ih =>
    rw [List.map_cons, duplicates_cons, ih]
    rfl

theorem duplicates_skipEvents (node : Node) : duplicates (skipEvents node) = 0 := by
  cases node with
  | importDecl line source names =>
    cases hsource : source.filter (fun source => decide (source ≠ "")) <;> simp only [skipEvents, hsource] <;> rfl
  | _ => rfl

/-- Each of `names` is bound, or `bindEvents` warns of it. -/
theorem length_bindAll (source : String) (m : Module) (bound : List Binding) (names : List String) :
    (bindAll m bound names).length + duplicates (bindEvents source m bound names) = bound.length + names.length := by
  induction names generalizing bound with
  | nil => rfl
  | cons name rest ih =>
    unfold bindAll bindEvents
    split
    · have hwarned : duplicates [.warned (.duplicate name source)] = 1 := rfl
      have hrest := ih bound
      rw [duplicates_cons, hwarned, List.length_cons]
      omega
    · have hsilent : duplicates (if name ∈ m.exports then [] else [.warned (.notExported source name)]) = 0 := by
        split <;> rfl
      have hrest := ih (bound ++ [⟨name, m.varName⟩])
      rw [List.length_append, List.length_singleton] at hrest
      rw [duplicates_append, hsilent, List.length_cons]
      omega

/-! ## Bindings so far -/

/-- The names that `imports` list. -/
def specifiers (imports : List (Node × Module)) : List String := imports.flatMap fun i => listedNames i.1

/-- The `bindings` are those of `imports`, each of which has a module, and this was `noted` about them. -/
structure FirstCome (imports : List (Node × Module)) (noted : List Event) (bindings : List Binding) : Prop where
  names : bindings.map (·.name) = (specifiers imports).eraseDups
  first : ∀ b ∈ bindings, ∃ i, imports.find? (fun i => b.name ∈ listedNames i.1) = some i ∧ b.varName = i.2.varName
  count : bindings.length + duplicates noted = (specifiers imports).length

namespace FirstCome

variable {imports : List (Node × Module)} {noted events : List Event} {bound : List Binding}

theorem nothing (h : duplicates events = 0) : FirstCome [] events [] where
  names := rfl
  first _ hb := absurd hb List.not_mem_nil
  count := (Nat.zero_add _).trans h

theorem noting (h : FirstCome imports noted bound) (he : duplicates events = 0) :
    FirstCome imports (noted ++ events) bound := by
  refine ⟨h.names, h.first, ?_⟩
  rw [duplicates_append, he]
  exact h.count

/-- The names that are bound are those that an import listed. -/
theorem mem_names (h : FirstCome imports noted bound) {name : String} :
    name ∈ bound.map (·.name) ↔ ∃ i ∈ imports, name ∈ listedNames i.1 := by
  rw [h.names, List.mem_eraseDups, specifiers, List.mem_flatMap]

/-- One more import binds the names that are new. -/
theorem concat (h : FirstCome imports noted bound) (source : String) (node : Node) (m : Module) :
    FirstCome (imports ++ [(node, m)]) (noted ++ bindEvents source m bound (listedNames node))
      (bindAll m bound (listedNames node)) := by
  have hspecifiers : specifiers (imports ++ [(node, m)]) = specifiers imports ++ listedNames node := by
    simp [specifiers]
  refine ⟨?_, ?_, ?_⟩
  · rw [names_bindAll, hspecifiers, List.eraseDups_append, h.names]
    congr 2
    simp [List.removeAll]
  · intro b hb
    rw [List.find?_append]
    rcases of_mem_bindAll hb with hold | ⟨hnew, hlisted, hvar⟩
    · obtain ⟨i, hi, hv⟩ := h.first b hold
      exact ⟨i, by rw [hi, Option.some_or], hv⟩
    · -- No import before this one lists the name.
      have hnone : imports.find? (fun i => b.name ∈ listedNames i.1) = none := by
        rw [h.mem_names] at hnew
        simpa using hnew
      exact ⟨(node, m), by simp [hnone, hlisted], hvar⟩
  · have hlength := length_bindAll source m bound (listedNames node)
    have hcount := h.count
    rw [duplicates_append, hspecifiers, List.length_append]
    omega

end FirstCome

/-! ## Statement by statement -/

/-- A statement as it was linked: the module that was loaded for it, and the states before and after its names were
bound. -/
structure Step where
  node : Node
  loaded : Option Module
  ready : State
  stop : State

namespace Step

/-- What was noted about the statement after its module was loaded. -/
def own (t : Step) : List Event := t.stop.journal.drop t.ready.journal.length

/-- The import and its module, if there is one. -/
def import? (t : Step) : Option (Node × Module) := t.loaded.map (t.node, ·)

end Step

/-- What `load` gives for the statement `node`, and the state then. -/
def loadFor (ws : Workspace) (load : String → BuildM (Option Module)) (importer : Option String) (node : Node)
    (s : State) : Option Module × State :=
  match ws.target? importer node with
  | none => (none, s)
  | some path =>
    match load path s with
    | .ok r s' => (r, s')
    | .error _ s' => (none, s')

/-- The statements as `linkEach` links them, one after the other. -/
def linkSteps (ws : Workspace) (load : String → BuildM (Option Module)) (importer : Option String) :
    List Binding → List Node → State → List Step
  | _, [], _ => []
  | bound, node :: rest, s =>
    match linkStatement ws load importer bound node s with
    | .ok bound' s' =>
      let (loaded, ready) := loadFor ws load importer node s
      ⟨node, loaded, ready, s'⟩ :: linkSteps ws load importer bound' rest s'
    | .error .. => []

section

variable {ws : Workspace} {load : String → BuildM (Option Module)} {importer : Option String} {s s' : State}
  {bound bound' : List Binding} {node : Node}

/-- Once its module is loaded (`loadFor`), a statement binds its names to it, and without a module nothing. -/
theorem linkStatement_eq_ok (h : linkStatement ws load importer bound node s = .ok bound' s') :
    ∃ events, s' = (loadFor ws load importer node s).2.noting events ∧
      ((loadFor ws load importer node s).1 = none ∧ bound' = bound ∧ duplicates events = 0 ∨
        ∃ m, (loadFor ws load importer node s).1 = some m ∧ bound' = bindAll m bound (listedNames node) ∧
          events = bindEvents (sourceOf node) m bound (listedNames node)) := by
  unfold loadFor
  cases htarget : ws.target? importer node with
  | none =>
    rw [linkStatement_of_no_target htarget] at h
    cases h
    exact ⟨skipEvents node, rfl, .inl ⟨rfl, rfl, duplicates_skipEvents node⟩⟩
  | some path =>
    rw [linkStatement_of_target htarget] at h
    obtain ⟨r, s₁, hload, h⟩ := bind_eq_ok h
    simp only [hload]
    cases r with
    | none =>
      obtain ⟨rfl, rfl⟩ := pure_eq_ok h
      exact ⟨[], (State.noting_nil _).symm, .inl ⟨rfl, rfl, rfl⟩⟩
    | some m =>
      cases (bindNames_eq _ m bound _ s₁).symm.trans h
      exact ⟨_, rfl, .inr ⟨m, rfl, rfl, rfl⟩⟩

/-- The bindings after a statement are those of `imports` and, if there is a module for it, this one. -/
theorem FirstCome.step {imports : List (Node × Module)} {noted : List Event} (hbound : FirstCome imports noted bound)
    (h : linkStatement ws load importer bound node s = .ok bound' s') :
    let t : Step := ⟨node, (loadFor ws load importer node s).1, (loadFor ws load importer node s).2, s'⟩
    t.stop = t.ready.noting t.own ∧ FirstCome (imports ++ t.import?.toList) (noted ++ t.own) bound' := by
  intro t
  obtain ⟨events, hs, hcase⟩ := linkStatement_eq_ok h
  have hown : t.own = events := by
    change s'.journal.drop t.ready.journal.length = events
    rw [hs]
    exact List.drop_left
  rw [hown]
  refine ⟨hs, ?_⟩
  rcases hcase with ⟨hloaded, rfl, hsilent⟩ | ⟨m, hloaded, rfl, rfl⟩
  · have himport : t.import? = none := by simp [t, Step.import?, hloaded]
    rw [himport, Option.toList_none, List.append_nil]
    exact hbound.noting hsilent
  · have himport : t.import? = some (node, m) := by simp [t, Step.import?, hloaded]
    rw [himport, Option.toList_some]
    exact hbound.concat (sourceOf node) node m

theorem FirstCome.linkEach {imports : List (Node × Module)} {noted : List Event} {nodes : List Node}
    (hbound : FirstCome imports noted bound) (h : linkEach ws load importer bound nodes s = .ok bound' s') :
    let steps := linkSteps ws load importer bound nodes s
    (steps.map (·.node) = nodes ∧ ∀ t ∈ steps, t.stop = t.ready.noting t.own) ∧
      FirstCome (imports ++ steps.filterMap Step.import?) (noted ++ steps.flatMap Step.own) bound' := by
  induction nodes generalizing bound imports noted s with
  | nil =>
    obtain ⟨rfl, rfl⟩ := pure_eq_ok h
    simpa [linkSteps] using hbound
  | cons node rest ih =>
    obtain ⟨bound₁, s₁, hnode, h⟩ := bind_eq_ok h
    obtain ⟨hstop, hstep⟩ := hbound.step hnode
    obtain ⟨⟨hnodes, hstops⟩, hrest⟩ := ih hstep h
    intro steps
    have hsteps : steps = ⟨node, (loadFor ws load importer node s).1, (loadFor ws load importer node s).2, s₁⟩ ::
        linkSteps ws load importer bound₁ rest s₁ := by
      simp only [steps, linkSteps, hnode]
    rw [hsteps, List.map_cons, List.forall_mem_cons, hnodes, List.flatMap_cons, ← List.append_assoc]
    refine ⟨⟨rfl, hstop, hstops⟩, ?_⟩
    rw [List.filterMap_eq_flatMap_toList, List.append_assoc] at hrest
    rw [List.filterMap_eq_flatMap_toList, List.flatMap_cons]
    exact hrest

/-- The `bindings` of a program have different names. These are the names that those imports list for which a module
was loaded, in the order in which they are first listed, and each is bound to the variable of the module of the first
of these imports that lists it. Every other time one is listed the call of `link` itself warns of it. -/
theorem firstCome_link {program : Node} {bindings : List Binding}
    (h : link ws load program importer s = .ok bindings s') :
    let steps := linkSteps ws load importer [] program.body (s.noting (nestedEvents program))
    let imports := steps.filterMap Step.import?
    let own := nestedEvents program ++ steps.flatMap Step.own
    (steps.map (·.node) = program.body ∧ ∀ t ∈ steps, t.stop = t.ready.noting t.own) ∧
    (bindings.map (·.name)).Nodup ∧
    bindings.map (·.name) = (specifiers imports).eraseDups ∧
    (∀ b ∈ bindings, ∃ i, imports.find? (fun i => b.name ∈ listedNames i.1) = some i ∧ b.varName = i.2.varName) ∧
    bindings.length + warned (·.startsWith "Duplicate import binding ") own = (specifiers imports).length := by
  obtain ⟨_, s₁, hnested, h⟩ := bind_eq_ok h
  rw [warnNested_eq] at hnested
  cases hnested
  obtain ⟨hsteps, hbindings⟩ := (FirstCome.nothing (duplicates_nestedEvents program)).linkEach h
  rw [List.nil_append] at hbindings
  have hnodup : (bindings.map (·.name)).Nodup := by
    rw [hbindings.names]
    exact nodup_eraseDups _
  have hwarned : (fun w : Warning => w.startsWith "Duplicate import binding ") = Warning.isDuplicate :=
    funext startsWith_duplicateStem
  rw [hwarned]
  exact ⟨hsteps, hnodup, hbindings.names, hbindings.first, hbindings.count⟩

end

/-- A module that lists a name of another one twice, and a program. -/
def relisting : Workspace :=
  { files := { contents := .ofList [("/work/a", .text "niryaat ye x = 1"),
      ("/work/b", .text "aayaat \x7bx, x\x7d se 'a'"), ("/work/m", .text "")] } }

/-- A program that lists names again and again, also in imports of itself and of a file that is not there. -/
def relistingProgram : Node :=
  .program none
    [.importDecl (some 1) (some "b") (some ["x", "y", "x"]), .importDecl (some 2) (some "m") (some ["z"]),
      .importDecl (some 3) (some "gone") (some ["w"]), .importDecl (some 4) (some "a") (some ["y", "z"])]

theorem firstCome_link_relisting :
    let s : State := { loading := ["/work/m"] }
    let load := load relisting relisting.depth
    let steps := linkSteps relisting load (some "/work/m") [] relistingProgram.body s
    ∃ bindings s', link relisting load relistingProgram (some "/work/m") s = .ok bindings s' ∧
      bindings = [⟨"x", "__shar_mod_1"⟩, ⟨"y", "__shar_mod_1"⟩, ⟨"z", "__shar_mod_0"⟩] ∧
      specifiers (steps.filterMap Step.import?) = ["x", "y", "x", "y", "z"] ∧
      bindings.map (·.name) = (specifiers (steps.filterMap Step.import?)).eraseDups ∧
      3 + warned (·.startsWith "Duplicate import binding ") (steps.flatMap Step.own) = 5 := by
  intro s load steps
  have hlink : ((link relisting load relistingProgram (some "/work/m")).run' s).map id =
      some [⟨"x", "__shar_mod_1"⟩, ⟨"y", "__shar_mod_1"⟩, ⟨"z", "__shar_mod_0"⟩] := by
    decide +kernel
  have hnone : relistingProgram.nestedImports = [] :=
    List.eq_nil_of_length_eq_zero (Node.length_nestedImports relistingProgram)
  have hnested : nestedEvents relistingProgram = [] := by rw [nestedEvents, hnone, List.map_nil]
  have hlisted : specifiers (steps.filterMap Step.import?) = ["x", "y", "x", "y", "z"] := by decide +kernel
  obtain ⟨bindings, s', h, rfl⟩ := exists_ok_of_run' hlink
  obtain ⟨-, -, hnames, -, hcount⟩ := firstCome_link h
  rw [hnested, State.noting_nil] at hnames hcount
  change _ + warned _ (steps.flatMap Step.own) = (specifiers (steps.filterMap Step.import?)).length at hcount
  rw [hlisted] at hcount
  exact ⟨_, s', h, rfl, hlisted, hnames, hcount⟩

end HindiScript.Bundle
