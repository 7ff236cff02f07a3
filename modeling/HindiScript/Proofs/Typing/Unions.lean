import HindiScript.Typing.Union

/-!
# Spellings of a union

A union can be spelled in many ways: its members in another order or twice, with blanks around them, with empty parts
between the bars. The verdict of `allows` looks at the members, but it also waives the comparison for two spellings: an
expected type that is the empty text, and an actual type that is the text `any`. `allows_eq_allows_iff` says exactly
when two spellings of the same two unions get the same verdict, and for which unions every spelling does.
-/

namespace HindiScript.Typing

variable {e e' a a' : String}

/-- `type` and `type'` spell the same union: they have the same `members`. -/
def SameMembers (type type' : String) : Prop := ∀ m, m ∈ members type ↔ m ∈ members type'

/-- The comparison is waived because of how the types are spelled. -/
def Waived (expected actual : String) : Prop := expected = "" ∨ actual = any

/-- The `members` of the actual type may stand for those of the expected one. -/
def MembersAllow (expected actual : String) : Prop := any ∈ members expected ∨ members actual ⊆ members expected

theorem members_empty : members "" = [] := by decide +kernel

theorem members_any : members any = [any] := by decide +kernel

theorem allows_iff (expected actual : String) :
    allows expected actual = true ↔ MembersAllow expected actual ∨ Waived expected actual := by
  have hany : expected = any → any ∈ members expected := by
    rintro rfl
    rw [members_any]
    exact List.mem_singleton_self any
  have hall : (members actual).all (· ∈ members expected) = true ↔ members actual ⊆ members expected := by
    simp only [List.all_eq_true, decide_eq_true_eq]
    exact Iff.rfl
  simp only [allows, Bool.or_eq_true, decide_eq_true_eq, hall, MembersAllow, Waived]
  grind

namespace SameMembers

theorem membersAllow_iff (he : SameMembers e e') (ha : SameMembers a a') : MembersAllow e a ↔ MembersAllow e' a' := by
  refine or_congr (he any) ⟨fun h m hm => ?_, fun h m hm => ?_⟩
  · exact (he m).1 (h ((ha m).2 hm))
  · exact (he m).2 (h ((ha m).1 hm))

theorem ne_empty (he : SameMembers e e') (h : members e ≠ []) : e' ≠ "" := by
  rintro rfl
  obtain ⟨m, hm⟩ := List.exists_mem_of_ne_nil _ h
  have := (he m).1 hm
  rw [members_empty] at this
  exact List.not_mem_nil this

/-- A union with a member other than `any` is not spelled `any`. -/
theorem ne_any (ha : SameMembers a a') (h : ∃ m ∈ members a, m ≠ any) : a' ≠ any := by
  rintro rfl
  obtain ⟨m, hm, hne⟩ := h
  have := (ha m).1 hm
  rw [members_any] at this
  exact hne (List.mem_singleton.1 this)

theorem not_waived (he : SameMembers e e') (ha : SameMembers a a') (hne : members e ≠ [])
    (hother : ∃ m ∈ members a, m ≠ any) : ¬ Waived e' a' :=
  not_or.2 ⟨he.ne_empty hne, ha.ne_any hother⟩

end SameMembers

/-- Two spellings of the same unions get the same verdict exactly if the members allow it, or if both or neither of
them waive the comparison. So how a union is spelled makes no difference where the members allow it, and where the
expected union has a member and the actual one has a member other than `any`. -/
theorem allows_eq_allows_iff (he : SameMembers e e') (ha : SameMembers a a') :
    (allows e a = allows e' a' ↔ MembersAllow e a ∨ (Waived e a ↔ Waived e' a')) ∧
      (MembersAllow e a ∨ (members e ≠ [] ∧ ∃ m ∈ members a, m ≠ any) → allows e a = allows e' a') := by
  have hiff : allows e a = allows e' a' ↔ MembersAllow e a ∨ (Waived e a ↔ Waived e' a') := by
    rw [Bool.eq_iff_iff, allows_iff, allows_iff, ← he.membersAllow_iff ha]
    by_cases h : MembersAllow e a <;> simp [h]
  refine ⟨hiff, fun h => hiff.2 (h.imp_right fun ⟨hne, hother⟩ => ?_)⟩
  have hrefl (type : String) : SameMembers type type := fun _ => Iff.rfl
  exact iff_of_false ((hrefl e).not_waived (hrefl a) hne hother) (he.not_waived ha hne hother)

theorem allows_eq_allows_iff_mixed :
    SameMembers "number|string" " string||number|string" ∧ SameMembers "boolean|any" "any | boolean|" ∧
      allows "number|string" "boolean|any" = false ∧ allows " string||number|string" "any | boolean|" = false ∧
      allows "number|string" "boolean|any" = allows " string||number|string" "any | boolean|" := by
  have hexpected : members "number|string" = ["number", "string"] := by decide +kernel
  have hexpected' : members " string||number|string" = ["string", "number", "string"] := by decide +kernel
  have hactual : members "boolean|any" = ["boolean", "any"] := by decide +kernel
  have hactual' : members "any | boolean|" = ["any", "boolean"] := by decide +kernel
  have he : SameMembers "number|string" " string||number|string" := by
    intro m
    simp only [hexpected, hexpected', List.mem_cons, List.not_mem_nil, or_false]
    grind
  have ha : SameMembers "boolean|any" "any | boolean|" := by
    intro m
    simp only [hactual, hactual', List.mem_cons, List.not_mem_nil, or_false]
    grind
  refine ⟨he, ha, by decide +kernel, by decide +kernel, (allows_eq_allows_iff he ha).2 (.inr ⟨?_, "boolean", ?_, ?_⟩)⟩
  · simp [hexpected]
  · simp [hactual]
  · decide

/-- `any` said twice is no longer allowed everywhere, and an expected type without members, spelled with a bar, no
longer allows everything. -/
theorem allows_any_any :
    (SameMembers "any" "any|any" ∧ allows "number" "any" = true ∧ allows "number" "any|any" = false) ∧
      SameMembers "" "|" ∧ allows "" "number" = true ∧ allows "|" "number" = false := by
  have htwice : members "any|any" = ["any", "any"] := by decide +kernel
  have hbar : members "|" = [] := by decide +kernel
  refine ⟨⟨fun m => ?_, by decide +kernel, by decide +kernel⟩, fun m => ?_, by decide +kernel, by decide +kernel⟩
  · rw [htwice, show members "any" = ["any"] from members_any]
    simp
  · rw [hbar, members_empty]

end HindiScript.Typing
