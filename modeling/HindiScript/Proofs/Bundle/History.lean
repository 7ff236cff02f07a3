import HindiScript.Proofs.Bundle.Lockstep
import HindiScript.Proofs.Bundle.Opening

/-!
# Builds one after the other

Builds of one session share a state, and files may change between them. A build drops the cache and the paths being
compiled that it finds, but not what was noted and read before it, and a file that is not there is noticed before
anything is dropped. Still no call can tell what was done before it: whether the calls before it succeeded or failed, it
answers as in a new session on the files there are (`answer?_after`).
-/

namespace HindiScript.Bundle

/-! ## Sessions -/

/-- Something that is done in a session: the files change in any way, or a program is built. -/
inductive Action where
  | edit (change : Files → Files)
  | compileFile (path : String) (checkTypes : Bool)
  | compileSource (source : String) (spec : Option Typing.Spec)

/-- Where a session stands: the files and settings, and the state that the last build left. -/
structure Session where
  workspace : Workspace
  state : State

/-- What a step gives, without the state it leaves. -/
def answerOf {α : Type} : EStateM.Result Failure State α → Except Failure α
  | .ok a _ => .ok a
  | .error e _ => .error e

/-- The state that a step leaves, also if it fails. -/
def stateOf {α : Type} : EStateM.Result Failure State α → State
  | .ok _ s => s
  | .error _ s => s

namespace Session

def start (ws : Workspace) : Session := ⟨ws, {}⟩

/-- The build that an action calls for, in the state of the session. -/
def call? (x : Session) : Action → Option (EStateM.Result Failure State Result)
  | .edit _ => none
  | .compileFile path checkTypes => some (compileFile x.workspace path checkTypes x.state)
  | .compileSource source spec => some (compileSource x.workspace source spec x.state)

/-- The answer to an action: what its `call?` gives. -/
def answer? (x : Session) (action : Action) : Option (Except Failure Result) := (x.call? action).map answerOf

def step (x : Session) (action : Action) : Session where
  workspace :=
    match action with
    | .edit change => { x.workspace with files := change x.workspace.files }
    | _ => x.workspace
  state := (x.call? action).elim x.state stateOf

/-- The session after the actions of `history`. -/
def after (x : Session) (history : List Action) : Session := history.foldl step x

end Session

/-! ## Calls -/

theorem EndAlike.answerOf_eq {α : Type} {loading : List String} {x y : EStateM.Result Failure State α}
    (h : EndAlike loading x y) : answerOf x = answerOf y := by
  cases x <;> cases y <;> simp_all [EndAlike, answerOf]

theorem EndAlike.loading_stateOf {α : Type} {loading : List String} {x y : EStateM.Result Failure State α}
    (h : EndAlike loading x y) : (stateOf x).loading = loading := by
  cases x <;> cases y <;> simp_all [EndAlike, stateOf]

section

variable {ws : Workspace} {s t : State}

/-- Two builds of a file end alike, wherever they start, if no path is in `loading`. -/
theorem endAlike_compileFile (path : String) (checkTypes : Bool) (hs : s.loading = []) (ht : t.loading = []) :
    EndAlike [] (compileFile ws path checkTypes s) (compileFile ws path checkTypes t) := by
  cases h : ws.opening path checkTypes with
  | error e =>
    obtain ⟨_, hs'⟩ := compileFile_of_opening_error h s
    obtain ⟨_, ht'⟩ := compileFile_of_opening_error h t
    rw [hs', ht']
    exact ⟨rfl, hs, ht⟩
  | ok opened =>
    obtain ⟨source, spec, journal⟩ := opened
    obtain ⟨_, hs'⟩ := compileFile_of_opening h s
    obtain ⟨_, ht'⟩ := compileFile_of_opening h t
    rw [hs', ht']
    exact endAlike_build source _ spec rfl

theorem endAlike_compileSource (source : String) (spec : Option Typing.Spec) :
    EndAlike [] (compileSource ws source spec s) (compileSource ws source spec t) :=
  endAlike_build source none spec rfl

end

namespace Session

theorem endAlike_call? {x y : Session} (hws : x.workspace = y.workspace) (hx : x.state.loading = [])
    (hy : y.state.loading = []) {action : Action} {r : EStateM.Result Failure State Result}
    (h : x.call? action = some r) : ∃ r', y.call? action = some r' ∧ EndAlike [] r r' := by
  cases action with
  | edit => cases h
  | compileFile path checkTypes =>
    cases h
    refine ⟨_, rfl, ?_⟩
    rw [← hws]
    exact endAlike_compileFile path checkTypes hx hy
  | compileSource source spec =>
    cases h
    refine ⟨_, rfl, ?_⟩
    rw [← hws]
    exact endAlike_compileSource source spec

theorem loading_step {x : Session} (hx : x.state.loading = []) (action : Action) : (x.step action).state.loading = [] := by
  unfold step
  cases hcall : x.call? action with
  | none => exact hx
  | some r =>
    obtain ⟨r', -, hends⟩ := endAlike_call? rfl hx hx hcall
    exact hends.loading_stateOf

theorem loading_after {x : Session} (hx : x.state.loading = []) (history : List Action) :
    (x.after history).state.loading = [] := by
  induction history generalizing x with
  | nil => exact hx
  | cons action history ih => exact ih (loading_step hx action)

/-- A history changes only the `files` of a session. -/
theorem workspace_after (x : Session) (history : List Action) :
    (x.after history).workspace = { x.workspace with files := (x.after history).workspace.files } := by
  induction history generalizing x with
  | nil => rfl
  | cons action history ih =>
    have hstep : (x.step action).workspace = { x.workspace with files := (x.step action).workspace.files } := by
      cases action <;> rfl
    have hrest := ih (x.step action)
    rw [hstep] at hrest
    exact hrest

/-- After any `history`, an action leaves no path in `loading`, and is answered as in a new session with the same
settings on the files that there are. -/
theorem answer?_after (ws : Workspace) (history : List Action) (action : Action) :
    let x := (start ws).after history
    (x.step action).state.loading = [] ∧
      x.answer? action = (start { ws with files := x.workspace.files }).answer? action := by
  intro x
  have hx : x.state.loading = [] := loading_after rfl history
  refine ⟨loading_step hx action, ?_⟩
  have hws : x.workspace = { ws with files := x.workspace.files } := workspace_after (start ws) history
  unfold answer?
  cases hcall : x.call? action with
  | none =>
    cases action with
    | edit => rfl
    | compileFile => cases hcall
    | compileSource => cases hcall
  | some r =>
    obtain ⟨r', hr', hends⟩ := endAlike_call? (y := start { ws with files := x.workspace.files }) hws hx rfl hcall
    rw [hr', Option.map_some, Option.map_some, hends.answerOf_eq]

end Session

end HindiScript.Bundle
