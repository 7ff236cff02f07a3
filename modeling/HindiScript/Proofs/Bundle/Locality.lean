import HindiScript.Proofs.Bundle.Depth
import HindiScript.Proofs.Bundle.Lockstep

/-!
# A build sees only the files it can reach

Take the path of a program, the path of its types and, for every import that is met from there, the path it asks for and
this path with the extension. Whether there are files of these paths and what they hold decides all that a build gives:
on files that agree about them, whatever other files there are, two builds go in lockstep and end with the same result
or with the same failure (`compileFile_of_agreeOn`).
-/

namespace HindiScript.Bundle

/-! ## Files that matter -/

/-- For each of `paths`, both have a file or both have none, and the files hold the same. -/
def Files.AgreeOn (files files' : Files) (paths : Set String) : Prop :=
  ∀ v ∈ paths, files.exists? v = files'.exists? v ∧ files.read? v = files'.read? v

/-- Among `paths` are those of the program and its types and, with each file that makes a program, the two paths that
each import at the top level of this program may mean. -/
structure Workspace.Covers (ws : Workspace) (paths : Set String) (root : String) : Prop where
  program : root ∈ paths
  types : specPath root ∈ paths
  imports : ∀ v ∈ paths, ∀ program, ws.program? v = some program →
    ∀ line source names, .importDecl line (some source) names ∈ program.body → source ≠ "" →
      candidate ws source (some v) ∈ paths ∧ candidate ws source (some v) ++ ws.extension ∈ paths

section

variable {ws : Workspace} {files : Files} {paths : Set String} {root v : String}

/-- An import means the same file where the files agree about its `candidate`, with and without the extension. -/
theorem resolve_of_agreeOn (hagree : ws.files.AgreeOn files paths) {source : String} {importer : Option String}
    (hfirst : candidate ws source importer ∈ paths) (hsecond : candidate ws source importer ++ ws.extension ∈ paths) :
    resolve { ws with files } source importer = resolve ws source importer := by
  have hcandidate : candidate { ws with files } source importer = candidate ws source importer := rfl
  unfold resolve
  simp only [hcandidate, (hagree _ hfirst).1, (hagree _ hsecond).1]

theorem resolve_mem {source : String} {importer : Option String} {target : String}
    (hfirst : candidate ws source importer ∈ paths) (hsecond : candidate ws source importer ++ ws.extension ∈ paths)
    (h : resolve ws source importer = some target) : target ∈ paths := by
  unfold resolve at h
  dsimp only at h
  generalize candidate ws source importer = path at hfirst hsecond h
  split at h
  · rwa [← Option.some.inj h]
  · split at h
    · rwa [← Option.some.inj h]
    · cases h

/-- The statements of a program among `paths` import the same files, and these are among `paths` too. -/
theorem target?_of_agreeOn (hcovers : ws.Covers paths root) (hagree : ws.files.AgreeOn files paths) (hv : v ∈ paths)
    {program node : Node} (hp : ws.program? v = some program) (hnode : node ∈ program.body) :
    ws.target? (some v) node = Workspace.target? { ws with files } (some v) node ∧
      ∀ target, ws.target? (some v) node = some target → target ∈ paths := by
  cases node with
  | importDecl line source names =>
    cases hsource : source.filter (fun source => decide (source ≠ "")) with
    | none =>
      simp only [Workspace.target?, hsource, Option.bind_none, true_and]
      intro target htarget
      cases htarget
    | some source' =>
      obtain ⟨rfl, hne⟩ := Option.filter_eq_some_iff.1 hsource
      obtain ⟨hfirst, hsecond⟩ := hcovers.imports v hv program hp line source' names hnode (of_decide_eq_true hne)
      simp only [Workspace.target?, hsource, Option.bind_some, resolve_of_agreeOn hagree hfirst hsecond, true_and]
      intro target htarget
      exact resolve_mem hfirst hsecond htarget
  | _ =>
    refine ⟨rfl, ?_⟩
    intro target htarget
    cases htarget

/-! ## Loading in lockstep -/

theorem linkAlike_of_agreeOn (hcovers : ws.Covers paths root) (hagree : ws.files.AgreeOn files paths) (hv : v ∈ paths)
    {load load' : String → BuildM (Option Module)} (hload : ∀ path ∈ paths, Lockstep (load path) (load' path))
    {program : Node} (hp : ws.program? v = some program) :
    LinkAlike ws { ws with files } load load' (some v) program.body := by
  intro node hnode
  obtain ⟨htarget, hmem⟩ := target?_of_agreeOn hcovers hagree hv hp hnode
  exact ⟨htarget, fun path hpath => hload path (hmem path hpath)⟩

/-- Files among `paths` are loaded in lockstep. -/
theorem lockstep_load_of_agreeOn (hcovers : ws.Covers paths root) (hagree : ws.files.AgreeOn files paths)
    (depth : Nat) : ∀ path ∈ paths, Lockstep (load ws depth path) (load { ws with files } depth path) := by
  induction depth with
  | zero =>
    intro path hpath
    apply lockstep_loadWith (hagree path hpath).2
    intro program hp
    exact linkAlike_of_agreeOn hcovers hagree hpath (fun _ _ => lockstep_throw _) hp
  | succ depth ih =>
    intro path hpath
    apply lockstep_loadWith (hagree path hpath).2
    intro program hp
    exact linkAlike_of_agreeOn hcovers hagree hpath ih hp

/-- The imports of the program are linked alike. The two sets of files may differ in size, and so the depths that builds
of them are given, which is why both are compared at the greater one. -/
theorem endAlike_linkRoot_of_agreeOn (hcovers : ws.Covers paths root) (hagree : ws.files.AgreeOn files paths)
    {program : Node} (hp : ws.program? root = some program) {s t : State} (hst : s.Alike t) (hs : s.loading = []) :
    EndAlike [] (linkRoot ws program (some root) s) (linkRoot { ws with files } program (some root) t) := by
  have hreadable := Workspace.readable_of_program hp
  have hreadable' : Workspace.readable { ws with files } root := by
    unfold Workspace.readable at hreadable ⊢
    rwa [← (hagree root hcovers.program).2]
  let depth := max ws.depth (Workspace.depth { ws with files })
  rw [linkRoot_eq_linkTo depth (Nat.le_max_left ..) hs (by simpa using hreadable),
    linkRoot_eq_linkTo depth (Nat.le_max_right ..) (hst.loading ▸ hs) (by simpa using hreadable')]
  have hlink := lockstep_link <|
    linkAlike_of_agreeOn hcovers hagree hcovers.program (lockstep_load_of_agreeOn hcovers hagree depth) hp
  have hends := hlink.whileLoading root s t hst
  rwa [hs] at hends

/-! ## Builds -/

theorem opening_of_agreeOn {path : String} (hcovers : ws.Covers paths (Path.canonical ws.cwd path))
    (hagree : ws.files.AgreeOn files paths) (checkTypes : Bool) :
    Workspace.opening { ws with files } path checkTypes = ws.opening path checkTypes := by
  obtain ⟨hexists, hread⟩ := hagree _ hcovers.program
  obtain ⟨htypes, htext⟩ := hagree _ hcovers.types
  unfold Workspace.opening Workspace.spec?
  simp only [hexists, hread, htypes, htext]

/-- Two calls of `compileFile` end with the same result and the same cache, or with the same failure, if the files
agree about `paths` that `Covers` all that the one build can come to. -/
theorem compileFile_of_agreeOn (ws : Workspace) (files : Files) (paths : Set String) (path : String) (checkTypes : Bool)
    (hcovers : ws.Covers paths (Path.canonical ws.cwd path)) (hagree : ws.files.AgreeOn files paths) (s t : State) :
    (∃ r s' t', compileFile ws path checkTypes s = .ok r s' ∧
      compileFile { ws with files } path checkTypes t = .ok r t' ∧ s'.cache = t'.cache) ∨
    ∃ e s' t', compileFile ws path checkTypes s = .error e s' ∧
      compileFile { ws with files } path checkTypes t = .error e t' := by
  have hopening := opening_of_agreeOn hcovers hagree checkTypes
  cases hopen : ws.opening path checkTypes with
  | error e =>
    obtain ⟨_, hs⟩ := compileFile_of_opening_error hopen s
    obtain ⟨_, ht⟩ := compileFile_of_opening_error (hopening.trans hopen) t
    exact .inr ⟨e, _, _, hs, ht⟩
  | ok opened =>
    obtain ⟨source, spec, journal⟩ := opened
    obtain ⟨_, hs⟩ := compileFile_of_opening hopen s
    obtain ⟨_, ht⟩ := compileFile_of_opening (hopening.trans hopen) t
    rw [hs, ht]
    have hread := read?_of_opening hopen
    apply EndAlike.cases
    refine endAlike_build_of_linkRoot _ spec rfl (fun program hparsed s t hst hs => ?_) rfl
    exact endAlike_linkRoot_of_agreeOn hcovers hagree (program?_of_read hread hparsed) hst hs

end

/-- A program whose import is found with the extension. -/
def sparse : Workspace :=
  { files := { contents := .ofList [("/work/m", .text "aayaat \x7bx\x7d se 'a'"),
      ("/work/a.shar", .text "niryaat ye x = 1")] } }

/-- The files of `sparse` among others. -/
def crowded : Files where
  contents := .ofList [("/work/z", .text "aayaat 'm'"), ("/work/a.shar", .text "niryaat ye x = 1"),
    ("/work/m", .text "aayaat \x7bx\x7d se 'a'")]
  unreadable := ["/work/c"]

/-- The paths that a build of `sparse` can come to. -/
def sparsePaths : Set String := {"/work/m", "/work/m.shari", "/work/a", "/work/a.shar"}

theorem program?_sparse :
    sparse.program? "/work/m" = some (.program none [.importDecl (some 1) (some "a") (some ["x"])]) ∧
    sparse.program? "/work/a.shar" =
      some (.program none
        [.exportDecl (some 1) (.variableDecl (some 1) (some "x") (.literal (some 1) (.number 1)) "let") none]) ∧
    sparse.program? "/work/m.shari" = none ∧ sparse.program? "/work/a" = none := by
  have hm : tokenize "aayaat \x7bx\x7d se 'a'" =
      .ok [⟨.keyword .aayaat, 1, 1⟩, ⟨.punct .braceOpen, 1, 8⟩, ⟨.ident "x", 1, 9⟩, ⟨.punct .braceClose, 1, 10⟩,
        ⟨.keyword .se, 1, 12⟩, ⟨.string "a", 1, 15⟩] := by
    decide +kernel
  have ha : tokenize "niryaat ye x = 1" =
      .ok [⟨.keyword .niryaat, 1, 1⟩, ⟨.keyword .ye, 1, 9⟩, ⟨.ident "x", 1, 12⟩, ⟨.op "=", 1, 14⟩,
        ⟨.number 1, 1, 16⟩] := by
    decide +kernel
  have hreadm : sparse.files.read? "/work/m" = some (.text "aayaat \x7bx\x7d se 'a'") := by decide +kernel
  have hreada : sparse.files.read? "/work/a.shar" = some (.text "niryaat ye x = 1") := by decide
  refine ⟨program?_of_read hreadm ?_, program?_of_read hreada ?_, rfl, rfl⟩
  · rw [parseText, hm]
    rfl
  · rw [parseText, ha]
    rfl

theorem covers_sparse : sparse.Covers sparsePaths (Path.canonical sparse.cwd "m") := by
  have hroot : Path.canonical sparse.cwd "m" = "/work/m" := by decide
  have htypes : specPath "/work/m" = "/work/m.shari" := by decide
  have hcandidate : candidate sparse "a" (some "/work/m") = "/work/a" := by decide
  obtain ⟨hm, ha, hspec, hplain⟩ := program?_sparse
  rw [hroot]
  refine ⟨by simp [sparsePaths], by simp [sparsePaths, htypes], ?_⟩
  intro v hv program hp line source names hmem _
  rcases hv with rfl | rfl | rfl | rfl
  · cases hm.symm.trans hp
    simp only [Node.body, List.mem_singleton, Node.importDecl.injEq, Option.some.injEq] at hmem
    rw [hmem.2.1, hcandidate]
    exact ⟨by simp [sparsePaths], by simp [sparsePaths, sparse]⟩
  · cases hspec.symm.trans hp
  · cases hplain.symm.trans hp
  · cases ha.symm.trans hp
    simp [Node.body] at hmem

theorem agreeOn_sparse : sparse.files.AgreeOn crowded sparsePaths := by
  intro v hv
  rcases hv with rfl | rfl | rfl | rfl <;> decide

theorem compileFile_of_agreeOn_sparse :
    sparse.Covers sparsePaths (Path.canonical sparse.cwd "m") ∧ sparse.files.AgreeOn crowded sparsePaths ∧
      ∃ r s' t', compileFile sparse "m" true {} = .ok r s' ∧
        compileFile { sparse with files := crowded } "m" true {} = .ok r t' ∧ s'.cache = t'.cache ∧
        r.modules.map (·.path) = ["/work/a.shar"] := by
  refine ⟨covers_sparse, agreeOn_sparse, ?_⟩
  have h : ((compileFile sparse "m" true).run' {}).map (fun r => r.modules.map (·.path)) = some ["/work/a.shar"] := by
    decide +kernel
  obtain ⟨r, s', hr, hpaths⟩ := exists_ok_of_run' h
  rcases compileFile_of_agreeOn sparse crowded sparsePaths "m" true covers_sparse agreeOn_sparse {} {} with
    ⟨r', s₁, t', hs, ht, hcache⟩ | ⟨e, s₁, t', hs, -⟩
  · cases hr.symm.trans hs
    exact ⟨r, s', t', hr, ht, hcache, hpaths⟩
  · cases hr.symm.trans hs

end HindiScript.Bundle
