import HindiScript.Typing.Scope

/-!
# Lexical scoping

Scopes are made inside one another and names are declared in them, in any order: a scope may be rebound long after others
were made inside it. `History` is such a run of operations, and says by itself which scope stands around which and what was
last declared where. `lookup_lexical` says what a search for a name then finds: the last declaration in the nearest
scope that has one, and that a further declaration is seen from exactly those scopes from which the search gets to it.
-/

namespace HindiScript.Typing

/-! ## Histories -/

/-- Operations on scopes, one after the other, that start from a single scope and leave `n` of them. Scopes are numbered as
they are made, and an operation names one that is there. -/
inductive History : Nat → Type where
  | root : History 1
  | child {n : Nat} (h : History n) (i : Fin n) : History (n + 1)
  | declare {n : Nat} (h : History n) (i : Fin n) (name : String) (type : Option String) : History n

namespace History

variable {n : Nat}

def tree {n : Nat} : History n → ScopeTree
  | root => {}
  | child h i => (h.tree.child i).1
  | declare h i name type => h.tree.declare i name type

/-- The scope inside which a scope was made; the first one has none. -/
def parent? {n : Nat} : History n → Nat → Option Nat
  | root, _ => none
  | @child n h i, x => if x = n then some i else h.parent? x
  | declare h _ _ _, x => h.parent? x

/-- The type with which a name was last declared in a scope, and `none` if it was not. -/
def lastType? {n : Nat} : History n → Nat → String → Option (Option String)
  | root, _, _ => none
  | child h _, x, name => h.lastType? x name
  | declare h i name' type, x, name => if x = i ∧ name = name' then some type else h.lastType? x name

/-- The scope that stands so many scopes further out. -/
def ancestor? (h : History n) : Nat → Nat → Option Nat
  | 0, x => some x
  | k + 1, x => (h.parent? x).bind (h.ancestor? k)

/-- A search for the name that starts in `x` gets to `y`: this is `x` or a scope around it, and the name was declared in no
scope that comes before it on the way out. -/
def Reaches (h : History n) (name : String) (x y : Nat) : Prop :=
  ∃ k, h.ancestor? k x = some y ∧ ∀ j < k, ∀ z, h.ancestor? j x = some z → h.lastType? z name = none

/-- `name` was declared neither in `x` nor in any scope around it. -/
def Undeclared (h : History n) (name : String) (x : Nat) : Prop :=
  ∀ k y, h.ancestor? k x = some y → h.lastType? y name = none

theorem ancestor?_succ {h : History n} {x p : Nat} (hp : h.parent? x = some p) (k : Nat) :
    h.ancestor? (k + 1) x = h.ancestor? k p := by
  rw [ancestor?, hp, Option.bind_some]

/-- A scope is younger than the one around it. -/
theorem lt_of_parent? {h : History n} {x p : Nat} (hp : h.parent? x = some p) : p < x := by
  induction h with
  | root => cases hp
  | child h i ih =>
    rw [parent?] at hp
    split at hp
    · cases hp
      omega
    · exact ih hp
  | declare h i name type ih => exact ih hp

/-- What passes from the scope around a scope to the scope itself holds of every scope. -/
theorem outward_induction (h : History n) {motive : Nat → Prop}
    (step : ∀ x < n, (∀ p, h.parent? x = some p → motive p) → motive x) : ∀ x < n, motive x := by
  intro x
  induction x using Nat.strongRecOn with
  | ind x ih =>
    intro hx
    refine step x hx fun p hp => ?_
    have hlt := lt_of_parent? hp
    exact ih p hlt (Nat.lt_trans hlt hx)

theorem lastType?_of_le (h : History n) {x : Nat} (hx : n ≤ x) (name : String) : h.lastType? x name = none := by
  induction h with
  | root => rfl
  | child h i ih => exact ih (by omega)
  | declare h i name' type ih =>
    rw [lastType?, if_neg (by omega), ih hx]

/-- The search ends where it starts, or goes on from the scope around. -/
theorem reaches_iff {h : History n} {name : String} {x y : Nat} :
    h.Reaches name x y ↔
      y = x ∨ h.lastType? x name = none ∧ ∃ p, h.parent? x = some p ∧ h.Reaches name p y := by
  constructor
  · rintro ⟨k, hk, hclear⟩
    cases k with
    | zero => exact .inl (Option.some.inj hk).symm
    | succ k =>
      obtain ⟨p, hp, hk⟩ := Option.bind_eq_some_iff.1 hk
      refine .inr ⟨hclear 0 k.succ_pos x rfl, p, hp, k, hk, fun j hj z hz => ?_⟩
      exact hclear (j + 1) (Nat.succ_lt_succ hj) z ((ancestor?_succ hp j).trans hz)
  · rintro (rfl | ⟨hnone, p, hp, k, hk, hclear⟩)
    · exact ⟨0, rfl, fun j hj => absurd hj j.not_lt_zero⟩
    · refine ⟨k + 1, (ancestor?_succ hp k).trans hk, fun j hj z hz => ?_⟩
      cases j with
      | zero =>
        cases hz
        exact hnone
      | succ j => exact hclear j (Nat.lt_of_succ_lt_succ hj) z ((ancestor?_succ hp j).symm.trans hz)

theorem undeclared_of_parent? {h : History n} {name : String} {x : Nat} (hnone : h.lastType? x name = none)
    (hp : ∀ p, h.parent? x = some p → h.Undeclared name p) : h.Undeclared name x := by
  intro k y hy
  cases k with
  | zero =>
    cases hy
    exact hnone
  | succ k =>
    obtain ⟨p, hparent, hy⟩ := Option.bind_eq_some_iff.1 hy
    exact hp p hparent k y hy

end History

/-! ## Searching -/

namespace ScopeTree

theorem lookup_eq_join (t : ScopeTree) (i : Nat) (name : String) :
    t.lookup i name = ((t.chain i).findSome? (·.bindings.find? name)).join := by
  rw [lookup, env]
  cases t.chain i <;> rfl

/-- A scope answers for itself, and else the scope around it does. -/
theorem lookup_of_getElem? {t : ScopeTree} {i : Nat} {scope : Scope} {parent : Option Nat}
    (hi : t.scopes[i]? = some (scope, parent)) (hparent : ∀ p, parent = some p → p < i) (name : String) :
    t.lookup i name = (scope.bindings.find? name).getD (parent.bind (t.lookup · name)) := by
  rw [lookup_eq_join, chain, hi]
  cases parent with
  | none => cases hfind : scope.bindings.find? name <;> simp [hfind]
  | some p =>
    simp only [hparent p rfl, if_true, Option.bind_some, lookup_eq_join t p]
    cases hfind : scope.bindings.find? name <;> simp [hfind]

end ScopeTree

namespace History

variable {n : Nat}

theorem length_tree (h : History n) : h.tree.scopes.length = n := by
  induction h with
  | root => rfl
  | child h i ih => simp [tree, ScopeTree.child, ih]
  | declare h i name type ih => simp [tree, ScopeTree.declare, ih]

/-- The scope of each number in `tree` is what the history tells of it. -/
theorem getElem?_tree (h : History n) {x : Nat} (hx : x < n) :
    ∃ scope, h.tree.scopes[x]? = some (scope, h.parent? x) ∧
      ∀ name, scope.bindings.find? name = h.lastType? x name := by
  induction h with
  | root =>
    obtain rfl : x = 0 := by omega
    exact ⟨{}, rfl, fun _ => rfl⟩
  | @child n h i ih =>
    by_cases hnew : x = n
    · subst hnew
      refine ⟨{}, ?_, fun name => (h.lastType?_of_le (Nat.le_refl x) name).symm⟩
      simp [tree, ScopeTree.child, parent?, h.length_tree]
    · obtain ⟨scope, hscope, hfind⟩ := ih (by omega)
      refine ⟨scope, ?_, hfind⟩
      have hold : x < h.tree.scopes.length := by rw [h.length_tree]; omega
      simpa [tree, ScopeTree.child, parent?, hnew, List.getElem?_append_left hold] using hscope
  | declare h i name' type ih =>
    obtain ⟨scope, hscope, hfind⟩ := ih hx
    by_cases hi : i = x
    · refine ⟨{ scope with bindings := scope.bindings.insert name' type }, ?_, fun name => ?_⟩
      · simp [tree, ScopeTree.declare, parent?, hscope, hi]
      · simp [lastType?, Registry.find?_insert, hfind, hi]
    · refine ⟨scope, ?_, fun name => ?_⟩
      · simp [tree, ScopeTree.declare, parent?, hscope, hi]
      · simp [lastType?, hfind, Ne.symm hi]

theorem lookup_tree (h : History n) {x : Nat} (hx : x < n) (name : String) :
    h.tree.lookup x name = (h.lastType? x name).getD ((h.parent? x).bind (h.tree.lookup · name)) := by
  obtain ⟨scope, hscope, hfind⟩ := h.getElem?_tree hx
  rw [ScopeTree.lookup_of_getElem? hscope (fun _ => lt_of_parent?), hfind]

theorem lookup_of_lastType? {h : History n} {x : Nat} (hx : x < n) {name : String} {type : Option String}
    (htype : h.lastType? x name = some type) : h.tree.lookup x name = type := by
  rw [lookup_tree h hx, htype, Option.getD_some]

theorem lookup_of_parent? {h : History n} {x p : Nat} (hx : x < n) {name : String} (hnone : h.lastType? x name = none)
    (hp : h.parent? x = some p) : h.tree.lookup x name = h.tree.lookup p name := by
  rw [lookup_tree h hx, hnone, Option.getD_none, hp, Option.bind_some]

theorem lookup_of_outermost {h : History n} {x : Nat} (hx : x < n) {name : String} (hnone : h.lastType? x name = none)
    (hp : h.parent? x = none) : h.tree.lookup x name = none := by
  rw [lookup_tree h hx, hnone, Option.getD_none, hp, Option.bind_none]

/-- A search finds the last declaration in the nearest scope that has one, or there is none on the whole way out. -/
theorem nearest_or_undeclared (h : History n) (name : String) :
    ∀ x < n,
      (∃ y type, h.Reaches name x y ∧ h.lastType? y name = some type ∧ h.tree.lookup x name = type) ∨
        (h.Undeclared name x ∧ h.tree.lookup x name = none) := by
  refine h.outward_induction fun x hx ih => ?_
  cases htype : h.lastType? x name with
  | some type => exact .inl ⟨x, type, reaches_iff.2 (.inl rfl), htype, lookup_of_lastType? hx htype⟩
  | none =>
    cases hp : h.parent? x with
    | none =>
      refine .inr ⟨undeclared_of_parent? htype fun p hparent => ?_, lookup_of_outermost hx htype hp⟩
      cases hp.symm.trans hparent
    | some p =>
      rw [lookup_of_parent? hx htype hp]
      refine (ih p hp).imp ?_ ?_
      · rintro ⟨y, type, hreach, hlast, hlookup⟩
        exact ⟨y, type, reaches_iff.2 (.inr ⟨htype, p, hp, hreach⟩), hlast, hlookup⟩
      · rintro ⟨hnone, hlookup⟩
        refine ⟨undeclared_of_parent? htype fun p' hparent => ?_, hlookup⟩
        cases hp.symm.trans hparent
        exact hnone

/-! ## A further declaration -/

section

variable (h : History n) (y : Fin n) (name name' : String) (type : Option String)

theorem lastType?_declare_self : (h.declare y name type).lastType? y name = some type := by
  rw [lastType?, if_pos ⟨rfl, rfl⟩]

theorem lastType?_declare_other {x : Nat} (hne : ¬ (x = y ∧ name' = name)) :
    (h.declare y name type).lastType? x name' = h.lastType? x name' := by
  rw [lastType?, if_neg hne]

/-- The declaration is found from wherever the search `Reaches` its scope. -/
theorem lookup_declare_of_reaches :
    ∀ x < n, h.Reaches name x y → (h.declare y name type).tree.lookup x name = type := by
  refine h.outward_induction fun x hx ih hreach => ?_
  by_cases hxy : x = y
  · subst hxy
    exact lookup_of_lastType? hx (lastType?_declare_self ..)
  · obtain rfl | ⟨hnone, p, hp, hreach⟩ := reaches_iff.1 hreach
    · exact absurd rfl hxy
    · have hnone' := (h.lastType?_declare_other y name name type fun hself => hxy hself.1).trans hnone
      rw [lookup_of_parent? hx hnone' hp]
      exact ih p hp hreach

/-- Any other name, and any scope from which the search does not get there, is left as it was. -/
theorem lookup_declare_of_not_reaches :
    ∀ x < n, ¬ (name' = name ∧ h.Reaches name' x y) →
      (h.declare y name type).tree.lookup x name' = h.tree.lookup x name' := by
  refine h.outward_induction fun x hx ih hmiss => ?_
  have hother : ¬ (x = y ∧ name' = name) := by
    rintro ⟨rfl, hname⟩
    exact hmiss ⟨hname, reaches_iff.2 (.inl rfl)⟩
  have hsame := h.lastType?_declare_other y name name' type hother
  cases hlast : h.lastType? x name' with
  | some found => rw [lookup_of_lastType? hx hlast, lookup_of_lastType? hx (hsame.trans hlast)]
  | none =>
    cases hp : h.parent? x with
    | none => rw [lookup_of_outermost hx hlast hp, lookup_of_outermost hx (hsame.trans hlast) hp]
    | some p =>
      rw [lookup_of_parent? hx hlast hp, lookup_of_parent? hx (hsame.trans hlast) hp]
      refine ih p hp fun ⟨hname, hreach⟩ => hmiss ⟨hname, ?_⟩
      exact reaches_iff.2 (.inr ⟨hlast, p, hp, hreach⟩)

end

/-- After any `History`, a search for `name` from the scope `x` finds the type with which the name was last declared
in the nearest scope that has declared it, which may be no type; if neither the scope nor any around it has declared
the name (`Undeclared`), it finds nothing. A further declaration changes what is found only for its own name, and only
from scopes from which the search `Reaches` its scope past none that declares the name; from there it is what is
found. A new scope gets the next number. -/
theorem lookup_lexical (h : History n) (x : Fin n) (name : String) :
    ((∃ y type, h.Reaches name x y ∧ h.lastType? y name = some type ∧ h.tree.lookup x name = type) ∨
        (h.Undeclared name x ∧ h.tree.lookup x name = none)) ∧
      (∀ (y : Fin n) (name' : String) (type : Option String),
        ((h.declare y name' type).tree.lookup x name ≠ h.tree.lookup x name → name = name' ∧ h.Reaches name x y) ∧
        (h.Reaches name x y → (h.declare y name type).tree.lookup x name = type)) ∧
      (h.tree.child x).2 = n := by
  refine ⟨h.nearest_or_undeclared name x x.isLt, fun y name' type => ⟨fun hchange => ?_, fun hreach => ?_⟩, h.length_tree⟩
  · exact Classical.byContradiction fun hmiss =>
      hchange (h.lookup_declare_of_not_reaches y name' name type x x.isLt hmiss)
  · exact h.lookup_declare_of_reaches y name type x x.isLt hreach

example :
    let h := ((History.root.child 0).child 1).declare 2 "a" none |>.declare 0 "a" (some "number")
    h.tree.lookup 1 "a" = some "number" ∧ h.tree.lookup 2 "a" = none := by
  decide +kernel

end History

end HindiScript.Typing
