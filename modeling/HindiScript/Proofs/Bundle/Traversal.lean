import Mathlib.Data.List.Nodup
import Mathlib.Data.Set.Insert
import Mathlib.Logic.Relation

/-!
# Depth-first traversals

`Visits` is a depth-first traversal of a graph whose edges leave each node in an order, with the nodes in the
order in which they are finished. Main statements: the order is determined (`Visits.unique`), lists each node
once (`Visits.nodup`), and from one node lists exactly the nodes that can be reached from it
(`Visits.mem_iff`).
-/

namespace HindiScript.Bundle

variable {α : Type} {next : α → List α}

/-- Going through a list of nodes, first to last, and passing over those in the set of seen ones, a depth-first
traversal along `next` finishes these nodes in this order. -/
inductive Visits (next : α → List α) : Set α → List α → List α → Prop where
  | done {seen} : Visits next seen [] []
  | skip {seen v todo order} : v ∈ seen → Visits next seen todo order → Visits next seen (v :: todo) order
  | visit {seen v todo inner order} :
    v ∉ seen → Visits next (insert v seen) (next v) inner →
    Visits next (insert v seen ∪ {w | w ∈ inner}) todo order →
    Visits next seen (v :: todo) (inner ++ v :: order)

namespace Visits

variable {seen : Set α} {todo todo' order order' : List α}

theorem append (h : Visits next seen todo order) (h' : Visits next (seen ∪ {w | w ∈ order}) todo' order') :
    Visits next seen (todo ++ todo') (order ++ order') := by
  induction h with
  | done => simpa using h'
  | skip hv _ ih => exact .skip hv (ih h')
  | @visit seen v todo inner order hv hinner _ _ ih =>
    rw [List.append_assoc, List.cons_append]
    refine .visit hv hinner (ih ?_)
    have : insert v seen ∪ {w | w ∈ inner} ∪ {w | w ∈ order} = seen ∪ {w | w ∈ inner ++ v :: order} := by
      ext w
      simp only [Set.mem_union, Set.mem_insert_iff, Set.mem_ofPred_eq, List.mem_append, List.mem_cons]
      tauto
    rwa [this]

theorem unique (h : Visits next seen todo order) (h' : Visits next seen todo order') : order = order' := by
  induction h generalizing order' with
  | done => cases h'; rfl
  | skip hv _ ih =>
    cases h' with
    | skip _ h' => exact ih h'
    | visit hv' => exact absurd hv hv'
  | visit hv _ _ ihi iho =>
    cases h' with
    | skip hv' => exact absurd hv' hv
    | visit _ hinner houter =>
      obtain rfl := ihi hinner
      obtain rfl := iho houter
      rfl

theorem not_mem_seen (h : Visits next seen todo order) {v : α} (hv : v ∈ order) : v ∉ seen := by
  induction h with
  | done => cases hv
  | skip _ _ ih => exact ih hv
  | visit hw _ _ ihi iho =>
    rcases List.mem_append.1 hv with hv | hv
    · exact fun hs => ihi hv (.inr hs)
    · rcases List.mem_cons.1 hv with rfl | hv
      · exact hw
      · exact fun hs => iho hv (.inl (.inr hs))

theorem nodup (h : Visits next seen todo order) : order.Nodup := by
  induction h with
  | done => exact List.nodup_nil
  | skip _ _ ih => exact ih
  | @visit seen v todo inner order hv hinner houter ihi iho =>
    have hvo : v ∉ order := fun hm => houter.not_mem_seen hm (.inl (.inl rfl))
    have hvi : v ∉ inner := fun hm => hinner.not_mem_seen hm (.inl rfl)
    refine List.nodup_append.2 ⟨ihi, List.nodup_cons.2 ⟨hvo, iho⟩, fun w hw x hx => ?_⟩
    rcases List.mem_cons.1 hx with rfl | hx
    · rintro rfl
      exact hvi hw
    · rintro rfl
      exact houter.not_mem_seen hx (.inr hw)

/-- `seen` and `order` hold all that was to be done, and all that follows the nodes of `order`. -/
theorem closed (h : Visits next seen todo order) :
    (∀ v ∈ todo, v ∈ seen ∨ v ∈ order) ∧ ∀ v ∈ order, ∀ w ∈ next v, w ∈ seen ∨ w ∈ order := by
  induction h with
  | done => simp
  | skip hv _ ih =>
    refine ⟨fun w hw => ?_, ih.2⟩
    rcases List.mem_cons.1 hw with rfl | hw
    · exact .inl hv
    · exact ih.1 w hw
  | @visit seen v todo inner order hv _ _ ihi iho =>
    -- The inner and the outer part each hold what the whole holds, read from their own sets of seen nodes.
    have hin : ∀ w, w ∈ insert v seen ∨ w ∈ inner → w ∈ seen ∨ w ∈ inner ++ v :: order := by
      rintro w ((rfl | hs) | hi) <;> simp_all
    have hout : ∀ w, w ∈ insert v seen ∪ {w | w ∈ inner} ∨ w ∈ order → w ∈ seen ∨ w ∈ inner ++ v :: order := by
      rintro w ((hs | hi) | ho)
      · exact hin w (.inl hs)
      · exact hin w (.inr hi)
      · simp [ho]
    refine ⟨fun w hw => ?_, fun x hx w hw => ?_⟩
    · rcases List.mem_cons.1 hw with rfl | hw
      · simp
      · exact hout w (iho.1 w hw)
    · rcases List.mem_append.1 hx with hx | hx
      · exact hin w (ihi.2 x hx w hw)
      · rcases List.mem_cons.1 hx with rfl | hx
        · exact hin w (ihi.1 w hw)
        · exact hout w (iho.2 x hx w hw)

/-- What is finished can be reached from something that was to be done. -/
theorem reaches (h : Visits next seen todo order) {v : α} (hv : v ∈ order) :
    ∃ w ∈ todo, Relation.ReflTransGen (fun a b => b ∈ next a) w v := by
  induction h with
  | done => cases hv
  | skip _ _ ih =>
    obtain ⟨w, hw, hr⟩ := ih hv
    exact ⟨w, List.mem_cons_of_mem _ hw, hr⟩
  | @visit seen x todo inner order _ _ _ ihi iho =>
    rcases List.mem_append.1 hv with hv | hv
    · obtain ⟨w, hw, hr⟩ := ihi hv
      exact ⟨x, List.mem_cons_self, .head hw hr⟩
    · rcases List.mem_cons.1 hv with rfl | hv
      · exact ⟨v, List.mem_cons_self, .refl⟩
      · obtain ⟨w, hw, hr⟩ := iho hv
        exact ⟨w, List.mem_cons_of_mem _ hw, hr⟩

/-- From `root` a traversal finishes exactly the other nodes that can be reached from it. -/
theorem mem_iff {root : α} (h : Visits next {root} (next root) order) (v : α) :
    v ∈ order ↔ v ≠ root ∧ Relation.ReflTransGen (fun a b => b ∈ next a) root v := by
  constructor
  · intro hv
    obtain ⟨w, hw, hr⟩ := h.reaches hv
    exact ⟨h.not_mem_seen hv, .head hw hr⟩
  · rintro ⟨hne, hr⟩
    -- By induction on the way, every node of it is the root or was finished.
    have hall : v ∈ ({root} : Set α) ∨ v ∈ order := by
      induction hr with
      | refl => exact .inl rfl
      | @tail u v _ hstep ih =>
        by_cases hu : u = root
        · subst hu
          exact h.closed.1 v hstep
        · exact h.closed.2 u ((ih hu).resolve_left hu) v hstep
    exact hall.resolve_left hne

end Visits

end HindiScript.Bundle
