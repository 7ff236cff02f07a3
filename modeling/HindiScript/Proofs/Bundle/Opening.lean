import HindiScript.Proofs.Bundle.Run

/-!
# Before a build

Before a file is built, its text is read, and its types if they are asked for. What comes of this does not depend on
what was done before (`Workspace.opening`): the build of a file fails at once (`compileFile_of_opening_error`), or is
the build of a text from a state with nothing but the note about the types in its journal
(`compileFile_of_opening`).
-/

namespace HindiScript.Bundle

/-- The types of the program `root`, if `checkTypes` asks for them and there are any, and what is noted about them. -/
def Workspace.spec? (ws : Workspace) (root : String) (checkTypes : Bool) :
    Except Failure (Option Typing.Spec × List Event) :=
  if checkTypes && ws.files.exists? (specPath root) then
    match ws.files.read? (specPath root) with
    | some (.text text) => .ok (some (Typing.Spec.parse text), [.specLoaded (specPath root)])
    | some .undecodable => .error (.undecodable (specPath root))
    | none => .ok (none, [])
  else .ok (none, [])

/-- What the build of a file starts from: the text of the file, its types and what is noted about them. -/
def Workspace.opening (ws : Workspace) (path : String) (checkTypes : Bool) :
    Except Failure (String × Option Typing.Spec × List Event) :=
  let root := Path.canonical ws.cwd path
  if ws.files.exists? root then
    match ws.files.read? root with
    | some (.text source) => (ws.spec? root checkTypes).map fun spec => (source, spec)
    | some .undecodable => .error (.undecodable root)
    | none => .error (.rootNotFound path)
  else .error (.rootNotFound path)

variable {ws : Workspace}

/-! ## Types -/

/-- `readSpec`, if `checkTypes` asks for it. -/
def openSpec (ws : Workspace) (root : String) (checkTypes : Bool) : BuildM (Option Typing.Spec) :=
  if checkTypes then readSpec ws root else pure none

theorem openSpec_of_ok {root : String} {checkTypes : Bool} {spec : Option Typing.Spec} {events : List Event}
    (h : ws.spec? root checkTypes = .ok (spec, events)) (s : State) :
    ∃ reads, openSpec ws root checkTypes s = .ok spec { s with journal := s.journal ++ events, reads } := by
  unfold Workspace.spec? at h
  unfold openSpec readSpec
  by_cases he : (checkTypes && ws.files.exists? (specPath root)) = true
  · obtain ⟨rfl, hexists⟩ := Bool.and_eq_true_iff.1 he
    rw [if_pos he] at h
    simp only [hexists, if_true]
    split at h
    next text hread =>
      cases h
      exact ⟨_, bind_of_ok (readText_of_text hread s) _⟩
    next => cases h
    next hread =>
      cases h
      refine ⟨s.reads ++ [specPath root], (bind_of_ok (readText_of_none hread s) _).trans ?_⟩
      rw [List.append_nil]
      rfl
  · rw [if_neg he] at h
    cases h
    refine ⟨s.reads, ?_⟩
    rw [List.append_nil]
    cases checkTypes with
    | false => rfl
    | true =>
      simp only [Bool.true_and] at he
      simp only [he, if_true]
      rfl

theorem openSpec_of_error {root : String} {checkTypes : Bool} {e : Failure}
    (h : ws.spec? root checkTypes = .error e) (s : State) :
    ∃ reads, openSpec ws root checkTypes s = .error e { s with reads } := by
  unfold Workspace.spec? at h
  unfold openSpec readSpec
  by_cases he : (checkTypes && ws.files.exists? (specPath root)) = true
  · obtain ⟨rfl, hexists⟩ := Bool.and_eq_true_iff.1 he
    rw [if_pos he] at h
    simp only [hexists, if_true]
    split at h
    next => cases h
    next hread =>
      cases h
      exact ⟨_, bind_of_error (readText_of_undecodable hread s) _⟩
    next => cases h
  · rw [if_neg he] at h
    cases h

/-! ## Programs -/

/-- What is done with the text of the program, if it is there. -/
def buildText (ws : Workspace) (path : String) (checkTypes : Bool) : Option String → BuildM Result
  | none => throw (.rootNotFound path)
  | some source =>
    openSpec ws (Path.canonical ws.cwd path) checkTypes >>= build ws source (some (Path.canonical ws.cwd path))

theorem compileFile_of_exists {path : String} (h : ws.files.exists? (Path.canonical ws.cwd path) = true)
    (checkTypes : Bool) (s : State) :
    compileFile ws path checkTypes s =
      (readText ws.files (Path.canonical ws.cwd path) >>= buildText ws path checkTypes) { s with journal := [] } := by
  unfold compileFile
  refine Eq.trans (bind_of_ok rfl _) ?_
  simp only [h, if_true]
  refine congrFun (congrArg (_ >>= ·) (funext fun source => ?_)) _
  cases source with
  | none => rfl
  | some source => cases checkTypes <;> rfl

theorem compileFile_of_not_exists {path : String} (h : ¬ ws.files.exists? (Path.canonical ws.cwd path) = true)
    (checkTypes : Bool) (s : State) :
    compileFile ws path checkTypes s = .error (.rootNotFound path) { s with journal := [] } := by
  unfold compileFile
  refine Eq.trans (bind_of_ok rfl _) ?_
  simp only [h]
  rfl

theorem compileFile_of_opening {path : String} {checkTypes : Bool} {source : String} {spec : Option Typing.Spec}
    {journal : List Event} (h : ws.opening path checkTypes = .ok (source, spec, journal)) (s : State) :
    ∃ reads, compileFile ws path checkTypes s =
      build ws source (some (Path.canonical ws.cwd path)) spec { s with journal, reads } := by
  unfold Workspace.opening at h
  dsimp only at h
  split at h
  next hexists =>
    split at h
    next text hread =>
      cases hspec : ws.spec? (Path.canonical ws.cwd path) checkTypes with
      | error =>
        rw [hspec] at h
        cases h
      | ok spec =>
        rw [hspec] at h
        cases h
        rw [compileFile_of_exists hexists, bind_of_ok (readText_of_text hread _)]
        obtain ⟨reads, hopen⟩ := openSpec_of_ok hspec ({ s with journal := [] }.reading _)
        exact ⟨reads, bind_of_ok hopen _⟩
    next => cases h
    next => cases h
  next => cases h

theorem compileFile_of_opening_error {path : String} {checkTypes : Bool} {e : Failure}
    (h : ws.opening path checkTypes = .error e) (s : State) :
    ∃ reads, compileFile ws path checkTypes s = .error e { s with journal := [], reads } := by
  unfold Workspace.opening at h
  dsimp only at h
  split at h
  next hexists =>
    rw [compileFile_of_exists hexists]
    split at h
    next text hread =>
      rw [bind_of_ok (readText_of_text hread _)]
      cases hspec : ws.spec? (Path.canonical ws.cwd path) checkTypes with
      | error =>
        rw [hspec] at h
        cases h
        obtain ⟨reads, hopen⟩ := openSpec_of_error hspec ({ s with journal := [] }.reading _)
        exact ⟨reads, bind_of_error hopen _⟩
      | ok spec =>
        rw [hspec] at h
        cases h
    next hread =>
      cases h
      exact ⟨_, bind_of_error (readText_of_undecodable hread _) _⟩
    next hread =>
      cases h
      exact ⟨_, bind_of_ok (readText_of_none hread _) _⟩
  next hexists =>
    cases h
    exact ⟨s.reads, compileFile_of_not_exists hexists _ s⟩

/-! ## The ways to start -/

theorem spec?_cases (ws : Workspace) (root : String) (checkTypes : Bool) :
    (∃ p, ws.files.read? p = some .undecodable ∧ ws.spec? root checkTypes = .error (.undecodable p)) ∨
      ∃ spec, ws.spec? root checkTypes = .ok spec := by
  unfold Workspace.spec?
  split
  · split
    next => exact .inr ⟨_, rfl⟩
    next hread => exact .inl ⟨_, hread, rfl⟩
    next => exact .inr ⟨_, rfl⟩
  · exact .inr ⟨_, rfl⟩

theorem opening_cases (ws : Workspace) (path : String) (checkTypes : Bool) :
    let root := Path.canonical ws.cwd path
    ((ws.files.exists? root = false ∨ ws.files.read? root = none) ∧
        ws.opening path checkTypes = .error (.rootNotFound path)) ∨
      (∃ p, ws.files.read? p = some .undecodable ∧ ws.opening path checkTypes = .error (.undecodable p)) ∨
      ∃ source spec journal, ws.files.exists? root = true ∧ ws.files.read? root = some (.text source) ∧
        ws.opening path checkTypes = .ok (source, spec, journal) := by
  intro root
  cases hexists : ws.files.exists? root with
  | false => exact .inl ⟨.inl rfl, by simp [Workspace.opening, root, hexists]⟩
  | true =>
    cases hread : ws.files.read? root with
    | none => exact .inl ⟨.inr rfl, by simp [Workspace.opening, root, hexists, hread]⟩
    | some content =>
      right
      cases content with
      | undecodable => exact .inl ⟨root, hread, by simp [Workspace.opening, root, hexists, hread]⟩
      | text source =>
        rcases spec?_cases ws root checkTypes with ⟨p, hp, herror⟩ | ⟨⟨spec, journal⟩, hok⟩
        · exact .inl ⟨p, hp, by simp [Workspace.opening, root, hexists, hread, herror, Except.map]⟩
        · exact .inr ⟨source, spec, journal, rfl, rfl,
            by simp [Workspace.opening, root, hexists, hread, hok, Except.map]⟩

/-- What the build of a file starts from is the text that the file holds. -/
theorem read?_of_opening {path : String} {checkTypes : Bool} {source : String} {spec : Option Typing.Spec}
    {journal : List Event} (h : ws.opening path checkTypes = .ok (source, spec, journal)) :
    ws.files.read? (Path.canonical ws.cwd path) = some (.text source) := by
  rcases opening_cases ws path checkTypes with ⟨-, hopen⟩ | ⟨p, -, hopen⟩ | ⟨source', spec', journal', -, hread, hopen⟩
  · cases hopen.symm.trans h
  · cases hopen.symm.trans h
  · cases hopen.symm.trans h
    exact hread

/-- `compileFile` finds no file, or it or its types are no text, or it is the `build` of a text. -/
theorem compileFile_cases (ws : Workspace) (path : String) (checkTypes : Bool) (s : State) :
    let root := Path.canonical ws.cwd path
    ((ws.files.exists? root = false ∨ ws.files.read? root = none) ∧
        ∃ s', compileFile ws path checkTypes s = .error (.rootNotFound path) s') ∨
      (∃ p s', ws.files.read? p = some .undecodable ∧ compileFile ws path checkTypes s = .error (.undecodable p) s') ∨
      ∃ source spec s₁, ws.files.exists? root = true ∧ ws.files.read? root = some (.text source) ∧
        compileFile ws path checkTypes s = build ws source (some root) spec s₁ := by
  intro root
  rcases opening_cases ws path checkTypes with
    ⟨habsent, hopen⟩ | ⟨p, hp, hopen⟩ | ⟨source, spec, journal, hexists, hread, hopen⟩
  · obtain ⟨reads, h⟩ := compileFile_of_opening_error hopen s
    exact .inl ⟨habsent, _, h⟩
  · obtain ⟨reads, h⟩ := compileFile_of_opening_error hopen s
    exact .inr (.inl ⟨p, _, hp, h⟩)
  · obtain ⟨reads, h⟩ := compileFile_of_opening hopen s
    exact .inr (.inr ⟨source, spec, _, hexists, hread, h⟩)

end HindiScript.Bundle
