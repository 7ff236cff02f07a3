import HindiScript.Proofs.Bundle.Linking
import Mathlib.Algebra.GroupWithZero.Nat

/-!
# Every import is accounted for

An import below the top level is warned of. An import at the top level is found in the cache, or makes a module, or is
warned of. Each step of a run keeps this balance (`Run.balanced`), so at the end of a build the imports of all
programs that it read add up to the modules, the hits of the cache and the warnings (`accounted_compile`).
-/

namespace HindiScript

/-! ## The imports of a tree -/

namespace Node

mutual

/-- The number of imports in a tree, the node at its top included. -/
def importCount : Node → Nat
  | importDecl .. => 1
  | missing | breakStmt _ | continueStmt _ | literal .. | ident .. => 0
  | program _ body | block _ body => importCountIn body
  | variableDecl _ _ value _ | printStmt _ value | returnStmt _ value | exprStmt _ value | await _ value =>
    value.importCount
  | ifStmt _ test consequent alternate => test.importCount + consequent.importCount + alternate.importCount
  | whileStmt _ test body => test.importCount + body.importCount
  | forStmt _ init test update body => init.importCount + test.importCount + update.importCount + body.importCount
  | functionDecl _ _ _ body _ | arrow _ _ body _ => body.importCount
  | exportDecl _ declaration _ => declaration.importCount
  | binary _ _ left right => left.importCount + right.importCount
  | assign _ target value => target.importCount + value.importCount
  | call _ callee none => callee.importCount
  | call _ callee (some args) => callee.importCount + importCountIn args
  | member _ object property => object.importCount + property.importCount

def importCountIn : List Node → Nat
  | [] => 0
  | node :: rest => node.importCount + importCountIn rest

end

/-- The number of imports at the top level of a program. -/
def topImports (program : Node) : Nat := program.body.countP isImport

/-- The number of imports of a program below its top level: those in its other statements. -/
def innerImports (program : Node) : Nat := importCountIn (program.body.filter (!·.isImport))

theorem importCountIn_eq_sum (nodes : List Node) : importCountIn nodes = (nodes.map importCount).sum := by
  induction nodes with
  | nil => rfl
  | cons node rest ih => rw [importCountIn, ih, List.map_cons, List.sum_cons]

theorem importCountIn_present (nodes : List Node) : importCountIn (children.present nodes) = importCountIn nodes := by
  induction nodes with
  | nil => rfl
  | cons node rest ih =>
    cases node with
    | missing => exact ih.trans (Nat.zero_add _).symm
    | _ => exact congrArg (_ + ·) ih

/-- The imports of a tree are those of the trees below it, and its top if that is one. -/
theorem importCount_eq_children (n : Node) :
    n.importCount = (if n.isImport then 1 else 0) + importCountIn n.children := by
  cases n with
  | call line callee args =>
    cases args <;> simp [importCount, isImport, children, importCountIn_present, importCountIn]
  | _ => simp [importCount, isImport, children, importCountIn_present, importCountIn, Nat.add_assoc]

theorem importCount_eq (n : Node) : n.importCount = (n :: n.descendants).countP isImport := by
  have hbelow : importCountIn n.children = n.descendants.countP isImport := by
    rw [descendants_eq, List.countP_flatMap, importCountIn_eq_sum]
    refine congrArg List.sum (List.map_congr_left fun c _ => ?_)
    exact importCount_eq c
  rw [importCount_eq_children, hbelow, List.countP_cons, Nat.add_comm]
termination_by sizeOf n
decreasing_by exact sizeOf_lt_of_mem_children ‹_›

/-- `nestedImports`, which a build does not resolve, are the imports below the top level. -/
theorem length_nestedImports (program : Node) : program.nestedImports.length = program.innerImports := by
  rw [nestedImports, innerImports, ← List.countP_eq_length_filter]
  induction program.body with
  | nil => rfl
  | cons node rest ih =>
    rw [List.flatMap_cons, List.countP_append, ih]
    have hnode := importCount_eq node
    rw [List.countP_cons] at hnode
    cases hi : node.isImport with
    | true =>
      -- Nothing is below an import.
      have hnone : node.descendants.countP isImport = 0 := by
        cases node with
        | importDecl =>
          rw [descendants_eq]
          rfl
        | _ => cases hi
      simp [hi, hnone]
    | false => simp [hi, importCountIn, hnode]

end Node

namespace Bundle

/-! ## Warnings about imports -/

/-- The warnings of imports below the top level. -/
def Warning.isInner : Warning → Bool
  | nested _ => true
  | _ => false

/-- The warnings of imports at the top level for which there is no module. -/
def Warning.isPassedOver : Warning → Bool
  | noSource _ | notFound _ | unreadable _ | circular _ => true
  | _ => false

/-- What `Warning.message` starts with for an import below the top level. -/
def innerStem : String := "Import ignored:"

/-- What `Warning.message` may start with for an import at the top level without a module. -/
def passedOverStems : List String :=
  ["Import without a source path", "Imported file not found:", "Cannot read imported file:", "Circular import ignored:"]

theorem startsWith_innerStem (w : Warning) : w.startsWith innerStem = w.isInner := by
  rw [Bool.eq_iff_iff, Warning.startsWith_iff (by decide)]
  cases w <;> simp [Warning.stem, innerStem, Warning.isInner]

theorem startsWith_passedOverStems (w : Warning) : passedOverStems.any w.startsWith = w.isPassedOver := by
  have hstems : ∀ start ∈ passedOverStems, start ∈ Warning.stems := by decide
  have hany : passedOverStems.any w.startsWith = true ↔ w.stem ∈ passedOverStems := by
    rw [List.any_eq_true]
    constructor
    · rintro ⟨start, hs, hw⟩
      rwa [(Warning.startsWith_iff (hstems start hs) w).1 hw]
    · exact fun hs => ⟨w.stem, hs, w.startsWith_stem⟩
  rw [Bool.eq_iff_iff, hany]
  cases w <;> simp [Warning.stem, passedOverStems, Warning.isPassedOver]

/-- The number of warnings of a `sort` among `events`. -/
def warned (sort : Warning → Bool) (events : List Event) : Nat := (events.filterMap Event.warning?).countP sort

section

variable {sort : Warning → Bool}

@[simp] theorem warned_append (events events' : List Event) :
    warned sort (events ++ events') = warned sort events + warned sort events' := by
  simp [warned]

theorem warned_cons (event : Event) (events : List Event) :
    warned sort (event :: events) = warned sort [event] + warned sort events :=
  warned_append [event] events

theorem warned_nestedEvents (program : Node) :
    warned Warning.isInner (nestedEvents program) = program.innerImports ∧
      warned Warning.isPassedOver (nestedEvents program) = 0 := by
  rw [← Node.length_nestedImports]
  unfold nestedEvents
  induction program.nestedImports with
  | nil => exact ⟨rfl, rfl⟩
  | cons node rest ih =>
    rw [List.map_cons, warned_cons, ih.1, List.length_cons, Nat.add_comm]
    refine ⟨rfl, ?_⟩
    rw [warned_cons, ih.2]
    rfl

/-- A statement that imports no file is warned of once if it is an import. -/
theorem warned_skipEvents (node : Node) :
    warned Warning.isInner (skipEvents node) = 0 ∧
      warned Warning.isPassedOver (skipEvents node) = if node.isImport then 1 else 0 := by
  cases node with
  | importDecl line source names =>
    cases hsource : source.filter (fun source => decide (source ≠ "")) <;> simp only [skipEvents, hsource] <;>
      exact ⟨rfl, rfl⟩
  | _ => exact ⟨rfl, rfl⟩

/-- `bindEvents` warns of names only. -/
theorem warned_bindEvents (hd : ∀ name source, sort (.duplicate name source) = false)
    (hn : ∀ source name, sort (.notExported source name) = false) (source : String) (m : Module)
    (bound : List Binding) (names : List String) : warned sort (bindEvents source m bound names) = 0 := by
  have hduplicate (name : String) : warned sort [.warned (.duplicate name source)] = 0 := by
    simp [warned, Event.warning?, hd]
  have hmissing (name : String) : warned sort [.warned (.notExported source name)] = 0 := by
    simp [warned, Event.warning?, hn]
  induction names generalizing bound with
  | nil => rfl
  | cons name rest ih =>
    unfold bindEvents
    split
    · rw [warned_cons, hduplicate, ih]
    · rw [warned_append, ih]
      split
      · rfl
      · rw [hmissing]

end

/-! ## What a run settles -/

namespace State

/-- The programs of the finished modules of `s`. -/
def programs (ws : Workspace) (s : State) : List Node := s.modules.filterMap fun m => ws.program? m.path

/-- The number of imports that were found in the cache, made a module, or were warned of at the top level
(`Warning.isPassedOver`). -/
def settled (s : State) : Nat := s.cache.hits + s.modules.length + warned Warning.isPassedOver s.journal

end State

/-- Between `s` and `s'` so many imports were `asked` for, besides those of the modules that were finished, and all of
them were `settled`; and the imports below the top level of these modules were warned of. -/
structure Balanced (ws : Workspace) (asked : Nat) (s s' : State) : Prop where
  top : s'.settled + ((s.programs ws).map Node.topImports).sum =
    s.settled + asked + ((s'.programs ws).map Node.topImports).sum
  inner : warned Warning.isInner s'.journal + ((s.programs ws).map Node.innerImports).sum =
    warned Warning.isInner s.journal + ((s'.programs ws).map Node.innerImports).sum

namespace Balanced

variable {ws : Workspace} {asked asked' : Nat} {s s₁ s' : State}

theorem trans (h : Balanced ws asked s s₁) (h' : Balanced ws asked' s₁ s') : Balanced ws (asked + asked') s s' := by
  obtain ⟨htop, hinner⟩ := h
  obtain ⟨htop', hinner'⟩ := h'
  constructor <;> omega

/-- Where no module is finished, the hits and the warnings in `events` settle what was asked for. -/
theorem same (events : List Event) (found : Nat) (hmodules : s'.modules = s.modules)
    (hhits : s'.cache.hits = s.cache.hits + found) (hjournal : s'.journal = s.journal ++ events)
    (hinner : warned Warning.isInner events = 0) (hover : found + warned Warning.isPassedOver events = asked) :
    Balanced ws asked s s' := by
  constructor
  · simp only [State.settled, State.programs, hmodules, hhits, hjournal, warned_append]
    omega
  · simp only [State.programs, hmodules, hjournal, warned_append, hinner]
    omega

/-- A module settles the import that asked for it, and brings the imports of its program. -/
theorem compiled {path : String} {program : Node} {m : Module} (hpath : m.path = path)
    (hp : ws.program? path = some program) (hnew : s'.cache.modules.find? path = none)
    (h : Balanced ws program.topImports (s.opened path program) s') : Balanced ws 1 s (s'.closed m) := by
  subst hpath
  have hmodules := State.modules_closed hnew
  have hprograms : (s'.closed m).programs ws = s'.programs ws ++ [program] := by
    simp [State.programs, hmodules, hp]
  obtain ⟨hinnerEvents, htopEvents⟩ := warned_nestedEvents program
  have hopened (sort : Warning → Bool) : warned sort (s.opened m.path program).journal =
      warned sort s.journal + warned sort (nestedEvents program) := by
    simp only [State.opened, warned_append]
    rfl
  have hclosed (sort : Warning → Bool) : warned sort (s'.closed m).journal = warned sort s'.journal := by
    simp only [State.closed, warned_append]
    rfl
  obtain ⟨htop, hinner⟩ := h
  constructor
  · have hstart : (s.opened m.path program).settled = s.settled := by
      simp only [State.settled, hopened, htopEvents]
      rfl
    have hend : (s'.closed m).settled = s'.settled + 1 := by
      simp only [State.settled, hclosed, hmodules, List.length_append, List.length_singleton]
      simp only [State.closed]
      omega
    have hbefore : (s.opened m.path program).programs ws = s.programs ws := rfl
    rw [hstart, hbefore] at htop
    rw [hend, hprograms, List.map_append, List.sum_append, List.map_singleton, List.sum_singleton]
    omega
  · have hbefore : (s.opened m.path program).programs ws = s.programs ws := rfl
    rw [hopened, hinnerEvents, hbefore] at hinner
    rw [hclosed, hprograms, List.map_append, List.sum_append, List.map_singleton, List.sum_singleton]
    omega

end Balanced

def Task.asked : Task → Nat
  | .load .. => 1
  | .statement _ node _ _ => if node.isImport then 1 else 0
  | .statements _ nodes _ _ => nodes.countP Node.isImport

theorem Workspace.isImport_of_target {ws : Workspace} {importer : Option String} {node : Node} {path : String}
    (h : ws.target? importer node = some path) : node.isImport = true := by
  cases node with
  | importDecl => rfl
  | _ => cases h

theorem Run.balanced {ws : Workspace} {t : Task} {s s' : State} (h : Run ws t s s') : Balanced ws t.asked s s' := by
  induction h with
  | @cached s path => exact .same [.cached path] 1 rfl rfl rfl rfl rfl
  | @circular s path => exact .same [.warned (.circular path)] 0 rfl rfl rfl rfl rfl
  | @unreadable s path => exact .same [.warned (.unreadable path)] 0 rfl rfl rfl rfl rfl
  | compiled _ _ hp _ hnew ih => exact .compiled rfl hp hnew ih
  | @skipped s importer node =>
    obtain ⟨hinner, hover⟩ := warned_skipEvents node
    exact .same (skipEvents node) 0 rfl rfl rfl hinner ((Nat.zero_add _).trans hover)
  | dropped ht _ ih =>
    rw [Task.asked, Workspace.isImport_of_target ht]
    exact ih
  | @linked s s' importer node path m bound ht _ ih =>
    have hbound : Balanced ws 0 s' (s'.noting (bindEvents (sourceOf node) m bound (listedNames node))) := by
      refine .same _ 0 rfl rfl rfl ?_ ((Nat.zero_add _).trans ?_) <;>
        exact warned_bindEvents (fun _ _ => rfl) (fun _ _ => rfl) _ _ _ _
    rw [Task.asked, Workspace.isImport_of_target ht]
    exact ih.trans hbound
  | done => exact ⟨rfl, rfl⟩
  | next _ _ ih₁ ih₂ =>
    rw [Task.asked, List.countP_cons, Nat.add_comm]
    exact ih₁.trans ih₂

/-! ## Builds -/

/-- The programs that a build read: the one it was asked for and those of its modules. -/
def Result.programs (ws : Workspace) (r : Result) : List Node :=
  r.program :: r.modules.filterMap fun m => ws.program? m.path

/-- Every module has a program; the imports of all programs below the top level are as many as the warnings of such
imports; and those at the top level are as many as the hits of the cache, the modules and the warnings of such imports
together. -/
structure Accounted (ws : Workspace) (r : Result) (hits : Nat) : Prop where
  parsed : ∀ m ∈ r.modules, ∃ program, ws.program? m.path = some program
  inner : ((r.programs ws).map Node.innerImports).sum = r.warnings.countP (·.startsWith innerStem)
  top : ((r.programs ws).map Node.topImports).sum =
    hits + r.modules.length + r.warnings.countP fun w => passedOverStems.any w.startsWith

section

variable {ws : Workspace} {s s' : State} {r : Result}

theorem accounted_of_build {source : String} {root : Option String} {spec : Option Typing.Spec}
    (h : build ws source root spec s = .ok r s') (hs : s.warnings = []) : Accounted ws r s'.cache.hits := by
  obtain ⟨bindings, s₁, -, hrun, hcache, hmodules, -, -, hwarnings⟩ := run_of_build h
  obtain ⟨htop, hinner⟩ := hrun.balanced
  -- Before the imports are linked, only those of the program below its top level were warned of.
  have hstart (sort : Warning → Bool) : warned sort (s.started root r.program).journal =
      warned sort (nestedEvents r.program) := by
    have hnone : warned sort s.journal = 0 := congrArg (·.countP sort) hs
    simp only [State.started, warned_append, hnone, Nat.zero_add]
    rfl
  obtain ⟨hinnerEvents, htopEvents⟩ := warned_nestedEvents r.program
  have hend (sort : Warning → Bool) : warned sort s₁.journal = r.warnings.countP sort :=
    congrArg (·.countP sort) hwarnings.symm
  have hprograms : r.programs ws = r.program :: s₁.programs ws := by
    rw [Result.programs, State.programs, hmodules]
  refine ⟨fun m hm => ?_, ?_, ?_⟩
  · obtain ⟨i, hi⟩ := List.mem_iff_getElem?.1 hm
    obtain ⟨program, _, hp, -⟩ := (wellLinked_of_build h).modules i m hi
    exact ⟨program, hp⟩
  · rw [hstart, hinnerEvents, hend] at hinner
    simp only [startsWith_innerStem, hprograms, List.map_cons, List.sum_cons]
    exact hinner.symm
  · have hsettled : (s.started root r.program).settled = 0 := by
      simp only [State.settled, hstart, htopEvents]
      rfl
    have hasked : (Task.statements root r.program.body [] bindings).asked = r.program.topImports := rfl
    rw [hsettled, hasked, Nat.zero_add, State.settled, hend, ← hcache, ← hmodules] at htop
    simp only [startsWith_passedOverStems, hprograms, List.map_cons, List.sum_cons]
    exact htop.symm

/-- No build loses an import: what `compileFile` and `compileSource` give is `Accounted` for, with the hits of the
cache that they leave. -/
theorem accounted_compile :
    (∀ path checkTypes, compileFile ws path checkTypes s = .ok r s' → Accounted ws r s'.cache.hits) ∧
    ∀ source spec, compileSource ws source spec s = .ok r s' → Accounted ws r s'.cache.hits := by
  constructor
  · intro path checkTypes h
    obtain ⟨_, _, _, -, -, hwarnings, hbuild⟩ := build_of_compileFile h
    exact accounted_of_build hbuild hwarnings
  · intro source spec h
    obtain ⟨_, _, hmodify, hbuild⟩ := bind_eq_ok h
    cases hmodify
    exact accounted_of_build hbuild rfl

end

/-- A program whose imports meet every fate, one of them below the top level. -/
def mixed : Workspace :=
  { files :=
      { contents := .ofList
          [("/work/m", .text "aayaat 'a' aayaat 'a' aayaat ; aayaat 'no' aayaat 'u' \x7b aayaat 'a' \x7d"),
            ("/work/a", .text "aayaat 'm'")]
        unreadable := ["/work/u"] } }

theorem accounted_compile_mixed : ∃ r s', compileFile mixed "m" false {} = .ok r s' ∧
    r.warnings = [.nested (some 1), .circular "/work/m", .noSource (some 1), .notFound "no", .unreadable "/work/u"] ∧
    r.modules.length = 1 ∧ (r.programs mixed).map Node.topImports = [5, 1] ∧
    (r.programs mixed).map Node.innerImports = [1, 0] ∧ s'.cache.hits = 1 ∧ Accounted mixed r s'.cache.hits := by
  have h : ((compileFile mixed "m" false).run' {}).map (fun r => (r.warnings, r.modules.length,
      (r.programs mixed).map Node.topImports, (r.programs mixed).map Node.innerImports)) =
      some ([.nested (some 1), .circular "/work/m", .noSource (some 1), .notFound "no", .unreadable "/work/u"], 1,
        [5, 1], [1, 0]) := by
    decide +kernel
  obtain ⟨r, s', hr, hvalues⟩ := exists_ok_of_run' h
  simp only [Prod.mk.injEq] at hvalues
  obtain ⟨hwarnings, hmodules, htop, hinner⟩ := hvalues
  have haccounted := accounted_compile.1 "m" false hr
  -- Six imports at the top level, one module and four warnings leave one hit.
  have hsum := haccounted.top
  rw [htop, hmodules, hwarnings] at hsum
  simp only [startsWith_passedOverStems] at hsum
  have hhits : s'.cache.hits = 1 := by
    simpa [Warning.isPassedOver] using hsum
  exact ⟨r, s', hr, hwarnings, hmodules, htop, hinner, hhits, haccounted⟩

end Bundle

end HindiScript
