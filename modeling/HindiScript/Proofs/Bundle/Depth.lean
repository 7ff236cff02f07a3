import HindiScript.Proofs.Bundle.Failures

/-!
# The depth of modules does not matter

Modules inside modules are loaded up to a depth. A step that is given more depth does the same, unless it went too deep
before (`Within`). Where there is room for all files nothing goes too deep, so a build may be given any greater depth
(`linkRoot_eq_linkTo`). Two builds of different files, which have different depths, can thus be compared at one depth.
-/

namespace HindiScript.Bundle

/-! ## More depth -/

/-- `x` does what `y` does, unless it goes too deep. -/
def Within {α : Type} (x y : BuildM α) : Prop := ∀ s, x s = y s ∨ ∃ s', x s = .error .tooDeep s'

section

variable {α β : Type} {x y : BuildM α}

theorem Within.refl (x : BuildM α) : Within x x := fun _ => .inl rfl

theorem within_throw (y : BuildM α) : Within (throw .tooDeep) y := fun s => .inr ⟨s, rfl⟩

theorem Within.bind {f g : α → BuildM β} (h : Within x y) (hf : ∀ a, Within (f a) (g a)) :
    Within (x >>= f) (y >>= g) := by
  intro s
  rcases h s with heq | ⟨s', hdeep⟩
  · cases hx : x s with
    | ok a s₁ =>
      rw [bind_of_ok hx, bind_of_ok (heq.symm.trans hx)]
      exact hf a s₁
    | error e s₁ =>
      rw [bind_of_error hx, bind_of_error (heq.symm.trans hx)]
      exact .inl rfl
  · exact .inr ⟨s', bind_of_error hdeep f⟩

theorem Within.whileLoading (h : Within x y) (path : String) :
    Within (whileLoading path x) (whileLoading path y) := by
  intro s
  unfold Bundle.whileLoading
  rcases h { s with loading := path :: s.loading } with heq | ⟨s', hdeep⟩
  · rw [heq]
    exact .inl rfl
  · rw [hdeep]
    exact .inr ⟨_, rfl⟩

/-- A step that ends in another way does the same with more depth. -/
theorem Within.eq_of_ne {s : State} (h : Within x y) (hs : ∀ s', x s ≠ .error .tooDeep s') : x s = y s := by
  rcases h s with heq | ⟨s', hdeep⟩
  · exact heq
  · exact absurd hdeep (hs s')

end

/-! ## The parts of a build -/

section

variable {ws : Workspace} {load load' : String → BuildM (Option Module)}

theorem within_linkStatement (h : ∀ path, Within (load path) (load' path)) (importer : Option String)
    (bound : List Binding) (node : Node) :
    Within (linkStatement ws load importer bound node) (linkStatement ws load' importer bound node) := by
  cases htarget : ws.target? importer node with
  | none =>
    intro s
    rw [linkStatement_of_no_target htarget, linkStatement_of_no_target htarget]
    exact .inl rfl
  | some path =>
    rw [linkStatement_of_target htarget, linkStatement_of_target htarget]
    exact (h path).bind fun _ => .refl _

theorem within_linkEach (h : ∀ path, Within (load path) (load' path)) (importer : Option String)
    (bound : List Binding) (nodes : List Node) :
    Within (linkEach ws load importer bound nodes) (linkEach ws load' importer bound nodes) := by
  induction nodes generalizing bound with
  | nil => exact .refl _
  | cons node rest ih => exact (within_linkStatement h importer bound node).bind ih

theorem within_link (h : ∀ path, Within (load path) (load' path)) (program : Node) (importer : Option String) :
    Within (link ws load program importer) (link ws load' program importer) :=
  (Within.refl _).bind fun _ => within_linkEach h importer [] program.body

theorem within_compileModule (h : ∀ path, Within (load path) (load' path)) (path source : String) :
    Within (compileModule ws load path source) (compileModule ws load' path source) := by
  rw [compileModule_eq, compileModule_eq]
  exact (Within.refl _).bind fun program => (within_link h program (some path)).bind fun _ => .refl _

theorem within_loadWith (h : ∀ path, Within (load path) (load' path)) (path : String) :
    Within (loadWith ws load path) (loadWith ws load' path) := by
  intro s
  cases hfind : s.cache.modules.find? path with
  | some m =>
    rw [loadWith_of_cached hfind, loadWith_of_cached hfind]
    exact .inl rfl
  | none =>
    by_cases hl : path ∈ s.loading
    · rw [loadWith_of_loading hfind hl, loadWith_of_loading hfind hl]
      exact .inl rfl
    · rw [loadWith_of_fresh hfind hl, loadWith_of_fresh hfind hl]
      apply (Within.refl _).bind
      intro source
      cases source with
      | none => exact .refl _
      | some source => exact ((within_compileModule h path source).whileLoading path).bind fun _ => .refl _

theorem within_load {depth depth' : Nat} (hd : depth ≤ depth') (path : String) :
    Within (Bundle.load ws depth path) (Bundle.load ws depth' path) := by
  induction depth generalizing depth' path with
  | zero =>
    cases depth' with
    | zero => exact .refl _
    | succ depth' => exact within_loadWith (fun _ => within_throw _) path
  | succ depth ih =>
    cases depth' with
    | zero => omega
    | succ depth' => exact within_loadWith (ih (by omega)) path

end

/-! ## Programs -/

/-- `linkRoot` with modules up to `depth`. -/
def linkTo (ws : Workspace) (depth : Nat) (program : Node) (root : Option String) : BuildM (List Binding) :=
  match root with
  | some root => whileLoading root (link ws (load ws depth) program (some root))
  | none => link ws (load ws depth) program none

theorem within_linkTo {ws : Workspace} {depth depth' : Nat} (hd : depth ≤ depth') (program : Node)
    (root : Option String) : Within (linkTo ws depth program root) (linkTo ws depth' program root) := by
  cases root with
  | none => exact within_link (within_load hd) program none
  | some root => exact (within_link (within_load hd) program (some root)).whileLoading root

/-- A program is linked in the same way at any `depth` that is as great as the number of files. -/
theorem linkRoot_eq_linkTo {ws : Workspace} (depth : Nat) {program : Node} {root : Option String} {s : State}
    (hd : ws.depth ≤ depth) (hs : s.loading = []) (hroot : ∀ v ∈ root, ws.readable v) :
    linkRoot ws program root s = linkTo ws depth program root s := by
  apply (within_linkTo hd program root).eq_of_ne
  intro s' hdeep
  obtain ⟨_, -, _, v, -, -, hspoils⟩ := error_of_linkRoot hs hroot hdeep
  cases hspoils

end HindiScript.Bundle
