import HindiScript.Proofs.Bundle.Cycles
import HindiScript.Proofs.Bundle.Linking
import HindiScript.Proofs.Bundle.Opening
import Mathlib.Data.List.Perm.Subperm

/-!
# How builds fail

A build fails because of a file that it reaches and that makes no program (`error_of_load`), and for no other reason once
the text of its program was read: a module is never finished twice, since a path that is being compiled is passed over,
and modules are never nested too deeply, since those being compiled are different files (`Room`). A build that succeeds
has made a module of every file that it reaches. So for files held in memory there are three endings, and the files
alone tell which one it is (`outcome_compileFile`).
-/

namespace HindiScript.Bundle

/-! ## Files that make no program -/

namespace Workspace

/-- The file of `path` can be opened but makes no program, and a build that opens it ends for this reason. -/
inductive Spoils (ws : Workspace) (path : String) : Failure → Prop where
  | badToken {source error} :
    ws.files.read? path = some (.text source) → tokenize source = .error error → Spoils ws path (.badToken error)
  | undecodable : ws.files.read? path = some .undecodable → Spoils ws path (.undecodable path)

variable {ws : Workspace} {path : String} {e : Failure}

theorem program?_of_spoils (h : ws.Spoils path e) : ws.program? path = none := by
  cases h with
  | badToken hread htokens =>
    simp only [program?, hread, parseText, htokens]
    rfl
  | undecodable hread => simp only [program?, hread]

theorem readable_of_spoils (h : ws.Spoils path e) : ws.readable path := by
  cases h with
  | badToken hread => simp [readable, hread]
  | undecodable hread => simp [readable, hread]

theorem spoils_of_parseText {source : String} {error : Cursor.ReadError}
    (hread : ws.files.read? path = some (.text source)) (h : parseText source = .error error) :
    ws.Spoils path (.badToken error) := by
  unfold parseText at h
  cases htokens : tokenize source with
  | ok tokens =>
    rw [htokens] at h
    cases h
  | error error' =>
    rw [htokens] at h
    cases h
    exact .badToken hread htokens

end Workspace

/-! ## Room for modules -/

/-- The paths in `loading` are different files, and at most `depth` files are left. -/
structure Room (ws : Workspace) (depth : Nat) (loading : List String) : Prop where
  nodup : loading.Nodup
  files : ∀ v ∈ loading, v ∈ ws.files.contents.names
  enough : ws.files.contents.size ≤ depth + loading.length

section

variable {ws : Workspace} {depth : Nat} {loading : List String} {v : String}

theorem Workspace.mem_names_of_readable (h : ws.readable v) : v ∈ ws.files.contents.names := by
  by_contra hn
  have hnone : ws.files.read? v = none := by
    unfold Files.read?
    split
    · rfl
    · exact Registry.find?_eq_none_iff.2 hn
  simp [Workspace.readable, hnone] at h

theorem Room.cons (h : Room ws (depth + 1) loading) (hv : ws.readable v) (hnew : v ∉ loading) :
    Room ws depth (v :: loading) where
  nodup := List.nodup_cons.2 ⟨hnew, h.nodup⟩
  files := List.forall_mem_cons.2 ⟨Workspace.mem_names_of_readable hv, h.files⟩
  enough := by
    have := h.enough
    rw [List.length_cons]
    omega

/-- Where there is no room left, every file that can be opened is being compiled. -/
theorem Room.mem_of_zero (h : Room ws 0 loading) (hv : ws.readable v) : v ∈ loading := by
  have hlength : ws.files.contents.names.length ≤ loading.length := by
    have := h.enough
    rw [Registry.names, List.length_map]
    unfold Registry.size at this
    omega
  have hperm := (List.subperm_of_subset h.nodup h.files).perm_of_length_le hlength
  exact hperm.mem_iff.2 (Workspace.mem_names_of_readable hv)

theorem Room.root {root : Option String} (h : ∀ v ∈ root, ws.readable v) : Room ws ws.depth root.toList where
  nodup := by cases root <;> simp
  files v hv := Workspace.mem_names_of_readable (h v (Option.mem_toList.1 hv))
  enough := Nat.le_add_right _ _

end

/-! ## Failures of the parts of a build -/

section

variable {ws : Workspace} {load : String → BuildM (Option Module)} {importer : Option String} {s s' : State} {e : Failure}

theorem error_of_linkStatement {bound : List Binding} {node : Node}
    (h : linkStatement ws load importer bound node s = .error e s') :
    ∃ path, ws.target? importer node = some path ∧ load path s = .error e s' := by
  cases htarget : ws.target? importer node with
  | none =>
    rw [linkStatement_of_no_target htarget] at h
    cases h
  | some path =>
    rw [linkStatement_of_target htarget] at h
    rcases bind_eq_error h with h | ⟨r, s₁, -, h⟩
    · exact ⟨path, rfl, h⟩
    · -- Names are always bound.
      cases r with
      | none => cases h
      | some m => cases (bindNames_eq _ m bound _ s₁).symm.trans h

theorem error_of_linkEach {bound : List Binding} {nodes : List Node}
    (hload : ∀ {path s r s'}, load path s = .ok r s' → Run ws (.load path r) s s')
    (h : linkEach ws load importer bound nodes s = .error e s') :
    ∃ node ∈ nodes, ∃ path s₁, ws.target? importer node = some path ∧ s₁.loading = s.loading ∧
      load path s₁ = .error e s' := by
  induction nodes generalizing bound s with
  | nil => cases h
  | cons node rest ih =>
    rcases bind_eq_error h with h | ⟨bound', s₁, hfirst, h⟩
    · obtain ⟨path, htarget, herror⟩ := error_of_linkStatement h
      exact ⟨node, List.mem_cons_self, path, s, htarget, rfl, herror⟩
    · obtain ⟨node', hnode, path, s₂, htarget, hloading, herror⟩ := ih h
      have hkept := (run_of_linkStatement hload hfirst).loading_eq
      exact ⟨node', List.mem_cons_of_mem _ hnode, path, s₂, htarget, hloading.trans hkept, herror⟩

theorem error_of_link {program : Node}
    (hload : ∀ {path s r s'}, load path s = .ok r s' → Run ws (.load path r) s s')
    (h : link ws load program importer s = .error e s') :
    ∃ node ∈ program.body, ∃ path s₁, ws.target? importer node = some path ∧ s₁.loading = s.loading ∧
      load path s₁ = .error e s' := by
  unfold link at h
  rw [bind_of_ok (warnNested_eq _ s)] at h
  obtain ⟨node, hnode, path, s₁, htarget, hloading, herror⟩ := error_of_linkEach hload h
  exact ⟨node, hnode, path, s₁, htarget, hloading, herror⟩

/-- No module of a path in `loading` is finished meanwhile. -/
theorem Run.find?_of_loading {t : Task} {path : String} (h : Run ws t s s') (hl : path ∈ s.loading)
    (hnone : s.cache.modules.find? path = none) : s'.cache.modules.find? path = none := by
  obtain ⟨order, hadds⟩ := h.adds
  rw [Registry.find?_eq_none_iff] at hnone ⊢
  intro hmem
  have hpaths : path ∈ s.paths ++ order := hadds.paths ▸ hmem
  rcases List.mem_append.1 hpaths with hold | hnew
  · exact hnone hold
  · exact hadds.visits.not_mem_seen hnew (.inl hl)

/-- A module fails to be compiled if its text makes no program, or an import fails. -/
theorem error_of_compileModule {path source : String}
    (hload : ∀ {path s r s'}, load path s = .ok r s' → Run ws (.load path r) s s')
    (h : compileModule ws load path source s = .error e s') (hl : path ∈ s.loading)
    (hnone : s.cache.modules.find? path = none) :
    (∃ error, parseText source = .error error ∧ e = .badToken error) ∨
      ∃ program node target s₁, parseText source = .ok program ∧ node ∈ program.body ∧
        ws.target? (some path) node = some target ∧ s₁.loading = s.loading ∧ load target s₁ = .error e s' := by
  rw [compileModule_eq] at h
  rcases bind_eq_error h with h | ⟨program, s₂, hparse, h⟩
  · exact .inl (parseSource_eq_error h)
  obtain ⟨hparsed, rfl⟩ := parseSource_eq_ok hparse
  rcases bind_eq_error h with h | ⟨bindings, s₁, hlink, h⟩
  · obtain ⟨node, hnode, target, s₁, htarget, hloading, herror⟩ := error_of_link hload h
    exact .inr ⟨program, node, target, s₁, hparsed, hnode, htarget, hloading, herror⟩
  · -- The module is new in the cache.
    have hnew := (run_of_link hload hlink).find?_of_loading hl hnone
    cases (finish_of_new hnew program bindings).symm.trans h

theorem error_of_loadWith {path : String}
    (hload : ∀ {path s r s'}, load path s = .ok r s' → Run ws (.load path r) s s')
    (h : loadWith ws load path s = .error e s') :
    path ∉ s.loading ∧ ws.readable path ∧
      (ws.Spoils path e ∨ ∃ target s₁ s₂, ws.Imports path target ∧ s₁.loading = path :: s.loading ∧
        load target s₁ = .error e s₂) := by
  cases hfind : s.cache.modules.find? path with
  | some m =>
    rw [loadWith_of_cached hfind] at h
    cases h
  | none =>
    by_cases hl : path ∈ s.loading
    · rw [loadWith_of_loading hfind hl] at h
      cases h
    · rw [loadWith_of_fresh hfind hl] at h
      refine ⟨hl, ?_⟩
      rcases bind_eq_error h with h | ⟨source, s₁, hread, h⟩
      · obtain ⟨hcontent, rfl⟩ := readText_eq_error h
        have hspoils : ws.Spoils path (.undecodable path) := .undecodable hcontent
        exact ⟨Workspace.readable_of_spoils hspoils, .inl hspoils⟩
      · obtain ⟨hcontent, rfl⟩ := readText_eq_ok hread
        cases source with
        | none => cases h
        | some source =>
          have hreadable : ws.readable path := by simp [Workspace.readable, hcontent]
          refine ⟨hreadable, ?_⟩
          rcases bind_eq_error h with h | ⟨m, s₂, -, h⟩
          · obtain ⟨s₂, hcompile, rfl⟩ := whileLoading_eq_error h
            rcases error_of_compileModule hload hcompile List.mem_cons_self hfind with
              ⟨error, hparsed, rfl⟩ | ⟨program, node, target, s₁, hparsed, hnode, htarget, hloading, herror⟩
            · exact .inl (Workspace.spoils_of_parseText hcontent hparsed)
            · have hp := program?_of_read hcontent hparsed
              exact .inr ⟨target, s₁, s₂, Workspace.imports_of_target hp hnode htarget, hloading, herror⟩
          · cases h

end

/-- A load fails because of a file that it reaches and that `Spoils` it. -/
theorem error_of_load {ws : Workspace} {depth : Nat} {path : String} {s s' : State} {e : Failure}
    (hroom : Room ws depth s.loading) (h : load ws depth path s = .error e s') :
    ∃ v, Relation.ReflTransGen ws.Imports path v ∧ ws.Spoils v e := by
  induction depth generalizing path s s' with
  | zero =>
    -- All files that can be opened are being compiled, and this one is not.
    obtain ⟨hl, hr, -⟩ := error_of_loadWith (fun h => by cases h) h
    exact absurd (hroom.mem_of_zero hr) hl
  | succ depth ih =>
    obtain ⟨hl, hr, hspoils | ⟨target, s₁, s₂, himports, hloading, herror⟩⟩ := error_of_loadWith run_of_load h
    · exact ⟨path, .refl, hspoils⟩
    · obtain ⟨v, hreach, hspoils⟩ := ih (hloading ▸ hroom.cons hr hl) herror
      exact ⟨v, .head himports hreach, hspoils⟩

/-! ## Failures of builds -/

section

variable {ws : Workspace} {source : String} {spec : Option Typing.Spec} {s s' : State} {e : Failure}

theorem error_of_linkRoot {program : Node} {root : Option String} (hs : s.loading = [])
    (hroot : ∀ v ∈ root, ws.readable v) (h : linkRoot ws program root s = .error e s') :
    ∃ node ∈ program.body, ∃ target v, ws.target? root node = some target ∧
      Relation.ReflTransGen ws.Imports target v ∧ ws.Spoils v e := by
  have hlink : ∃ s₁, link ws (load ws ws.depth) program root { s with loading := root.toList } = .error e s₁ := by
    cases root with
    | none =>
      rw [show s = { s with loading := [] } by rw [← hs]] at h
      exact ⟨s', h⟩
    | some root =>
      obtain ⟨s₁, hlink, -⟩ := whileLoading_eq_error h
      exact ⟨s₁, by rwa [hs] at hlink⟩
  obtain ⟨s₁, hlink⟩ := hlink
  obtain ⟨node, hnode, target, s₂, htarget, hloading, herror⟩ := error_of_link run_of_load hlink
  obtain ⟨v, hreach, hspoils⟩ := error_of_load (hloading ▸ Room.root hroot) herror
  exact ⟨node, hnode, target, v, htarget, hreach, hspoils⟩

/-- A build fails because its text makes no program, or because of a file that an import of the program reaches. -/
theorem error_of_build {root : Option String} (hroot : ∀ v ∈ root, ws.readable v)
    (h : build ws source root spec s = .error e s') :
    (∃ error, parseText source = .error error ∧ e = .badToken error) ∨
      ∃ program node target v, parseText source = .ok program ∧ node ∈ program.body ∧
        ws.target? root node = some target ∧ Relation.ReflTransGen ws.Imports target v ∧ ws.Spoils v e := by
  rw [build_eq] at h
  rcases bind_eq_error h with h | ⟨program, s₁, hparse, h⟩
  · exact .inl (parseSource_eq_error h)
  · obtain ⟨hparsed, rfl⟩ := parseSource_eq_ok hparse
    rcases bind_eq_error h with h | ⟨bindings, s₁, -, h⟩
    · obtain ⟨node, hnode, target, v, htarget, hreach, hspoils⟩ := error_of_linkRoot rfl hroot h
      exact .inr ⟨program, node, target, v, hparsed, hnode, htarget, hreach, hspoils⟩
    · cases h

theorem ne_alreadyCached_of_build {root : Option String} (hroot : ∀ v ∈ root, ws.readable v)
    (h : build ws source root spec s = .error e s') (path : String) : e ≠ .alreadyCached path := by
  rcases error_of_build hroot h with ⟨error, -, rfl⟩ | ⟨_, _, _, _, -, -, -, -, hspoils⟩
  · nofun
  · cases hspoils <;> nofun

/-- The build of a file fails because of a file that it reaches. -/
theorem spoils_of_build {root : String} (hread : ws.files.read? root = some (.text source))
    (h : build ws source (some root) spec s = .error e s') :
    ∃ v, Relation.ReflTransGen ws.Imports root v ∧ ws.Spoils v e := by
  have hroot : ws.readable root := by simp [Workspace.readable, hread]
  rcases error_of_build (by simpa using hroot) h with
    ⟨error, hparsed, rfl⟩ | ⟨program, node, target, v, hparsed, hnode, htarget, hreach, hspoils⟩
  · exact ⟨root, .refl, Workspace.spoils_of_parseText hread hparsed⟩
  · have himports := Workspace.imports_of_target (program?_of_read hread hparsed) hnode htarget
    exact ⟨v, .head himports hreach, hspoils⟩

/-- A build that succeeds reaches no file that `Spoils` it. -/
theorem not_spoils_of_build {root v : String} {r : Result} (hread : ws.files.read? root = some (.text source))
    (h : build ws source (some root) spec s = .ok r s') (hreach : Relation.ReflTransGen ws.Imports root v) :
    ¬ ws.Spoils v e := by
  intro hspoils
  have hnone := Workspace.program?_of_spoils hspoils
  obtain ⟨-, -, hparsed, -⟩ := run_of_build h
  have hp := program?_of_read hread hparsed
  by_cases hv : v = root
  · subst hv
    rw [hnone] at hp
    cases hp
  · -- It is a module, and modules have programs.
    have hmem := (mem_modules_of_build h hp v).2 ⟨hv, Workspace.readable_of_spoils hspoils, hreach⟩
    obtain ⟨m, hm, rfl⟩ := List.mem_map.1 hmem
    obtain ⟨i, hi⟩ := List.mem_iff_getElem?.1 hm
    obtain ⟨program, -, hprogram, -⟩ := (wellLinked_of_build h).modules i m hi
    rw [hnone] at hprogram
    cases hprogram

end

/-! ## The endings of a build -/

/-- Texts by their paths, and the paths that exist but are `unreadable`. -/
def Files.ofTexts (texts : Registry String) (unreadable : List String) : Files where
  contents := texts.map .text
  unreadable

theorem Files.read?_ofTexts_ne (texts : Registry String) (unreadable : List String) (path : String) :
    (ofTexts texts unreadable).read? path ≠ some .undecodable := by
  unfold read? ofTexts
  split
  · nofun
  · rw [Registry.find?_map]
    cases texts.find? path <;> nofun

/-- No module is finished twice. -/
theorem ne_alreadyCached_of_compileFile {ws : Workspace} {path p : String} {checkTypes : Bool} {s s' : State} :
    compileFile ws path checkTypes s ≠ .error (.alreadyCached p) s' := by
  intro h
  rcases compileFile_cases ws path checkTypes s with
    ⟨-, s₁, h₁⟩ | ⟨q, s₁, -, h₁⟩ | ⟨source, spec, s₁, -, hread, h₁⟩
  · cases h₁.symm.trans h
  · cases h₁.symm.trans h
  · exact ne_alreadyCached_of_build (by simp [Workspace.readable, hread]) (h₁.symm.trans h) p rfl

theorem ne_alreadyCached_of_compileSource {ws : Workspace} {source p : String} {spec : Option Typing.Spec}
    {s s' : State} : compileSource ws source spec s ≠ .error (.alreadyCached p) s' := by
  intro h
  rcases bind_eq_error h with h | ⟨_, s₁, -, h⟩
  · cases h
  · exact ne_alreadyCached_of_build (by simp) h p rfl

/-- If the files are texts, `compileFile` fails because the file is not there, or else because a file that it reaches
makes no program (`Spoils`), or else succeeds. It never fails with `alreadyCached`, whatever the files are. -/
theorem outcome_compileFile (ws : Workspace) (texts : Registry String) (unreadable : List String) (path : String)
    (checkTypes : Bool) (s : State) :
    let ws₁ := { ws with files := Files.ofTexts texts unreadable }
    let root := Path.canonical ws.cwd path
    let absent := ws₁.files.exists? root = false ∨ ws₁.files.read? root = none
    let broken := ∃ v source error, Relation.ReflTransGen ws₁.Imports root v ∧
      ws₁.files.read? v = some (.text source) ∧ tokenize source = .error error
    (((∃ s', compileFile ws₁ path checkTypes s = .error (.rootNotFound path) s') ↔ absent) ∧
      ((∃ error s', compileFile ws₁ path checkTypes s = .error (.badToken error) s') ↔ ¬ absent ∧ broken) ∧
      ((∃ r s', compileFile ws₁ path checkTypes s = .ok r s') ↔ ¬ absent ∧ ¬ broken)) ∧
    (∀ path checkTypes s s' p, compileFile ws path checkTypes s ≠ .error (.alreadyCached p) s') ∧
    ∀ source spec s s' p, compileSource ws source spec s ≠ .error (.alreadyCached p) s' := by
  intro ws₁ root absent broken
  have htext : ∀ v, ws₁.files.read? v ≠ some .undecodable := Files.read?_ofTexts_ne texts unreadable
  refine ⟨?_, fun path checkTypes s s' p => ne_alreadyCached_of_compileFile,
    fun source spec s s' p => ne_alreadyCached_of_compileSource⟩
  rcases compileFile_cases ws₁ path checkTypes s with
    ⟨habsent, s₁, h⟩ | ⟨p, s₁, hp, -⟩ | ⟨source, spec, s₁, hexists, hread, h⟩
  · have : absent := habsent
    simp [h, this]
  · exact absurd hp (htext p)
  · have hpresent : ¬ absent := by
      rintro (habsent | habsent)
      · cases hexists.symm.trans habsent
      · cases hread.symm.trans habsent
    rw [h]
    cases hbuild : build ws₁ source (some root) spec s₁ with
    | ok r s' =>
      have hsound : ¬ broken := fun ⟨v, text, error, hreach, htext, htokens⟩ =>
        not_spoils_of_build hread hbuild hreach (.badToken htext htokens)
      simp [hpresent, hsound]
    | error e s' =>
      obtain ⟨v, hreach, hspoils⟩ := spoils_of_build hread hbuild
      cases hspoils with
      | badToken hv htokens =>
        have hbroken : broken := ⟨v, _, _, hreach, hv, htokens⟩
        simp [hpresent, hbroken]
      | undecodable hv => exact absurd hv (htext v)

end HindiScript.Bundle
