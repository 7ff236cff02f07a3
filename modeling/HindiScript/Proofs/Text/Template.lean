import Mathlib.Data.List.Forall2
import HindiScript.Text.Template

/-!
# Filling templates

`substitute` is one pass over the template, and these are the ways in which it goes on: text without a dollar sign is
kept (`fill_append`), two dollar signs become one (`fill_dollars`), and a hole takes its value (`fill_hole`). The value
stands as it is in the result, whatever it holds. No placeholder goes over a line break, so that a template can be filled
line by line (`substitute_intercalate`).
-/

namespace HindiScript.Template

variable {values : Registry String}

/-! ## One pass -/

theorem fill_eq_fill_drop (skip : Nat) (template : List Char) :
    fill values skip template = fill values 0 (template.drop skip) := by
  induction template generalizing skip with
  | nil => cases skip <;> rfl
  | cons c rest ih =>
    cases skip with
    | zero => rfl
    | succ skip => exact ih skip

theorem fill_cons_of_ne {c : Char} (h : c ≠ '$') (rest : List Char) :
    fill values 0 (c :: rest) = (fill values 0 rest).map (c :: ·) := by
  rw [fill, if_neg h]

theorem fill_dollar {p : Placeholder} {rest : List Char} {length : Nat} (hp : placeholder? rest = some (p, length)) :
    fill values 0 ('$' :: rest) = (p.value values).bind fun value => (fill values length rest).map (value ++ ·) := by
  rw [fill, if_pos rfl, hp]

theorem fill_dollar_of_none {rest : List Char} (hp : placeholder? rest = none) :
    fill values 0 ('$' :: rest) = .error .badPlaceholder := by
  rw [fill, if_pos rfl, hp]

/-- Behind a placeholder the pass goes on with the template, not with the value. -/
theorem fill_of_placeholder? {p : Placeholder} (front : List Char) {rest value : List Char}
    (hp : placeholder? (front ++ rest) = some (p, front.length)) (hvalue : p.value values = .ok value) :
    fill values 0 ('$' :: (front ++ rest)) = (fill values 0 rest).map (value ++ ·) := by
  rw [fill_dollar hp, hvalue, fill_eq_fill_drop, List.drop_left]
  rfl

/-- `fill` keeps text without a dollar sign. -/
theorem fill_append {cs : List Char} (h : '$' ∉ cs) (rest : List Char) :
    fill values 0 (cs ++ rest) = (fill values 0 rest).map (cs ++ ·) := by
  induction cs with
  | nil => cases hfill : fill values 0 rest <;> simp [hfill, Except.map]
  | cons c cs ih =>
    rw [List.mem_cons, not_or] at h
    rw [List.cons_append, fill_cons_of_ne (Ne.symm h.1), ih h.2]
    cases fill values 0 rest <;> rfl

theorem fill_of_not_mem {cs : List Char} (h : '$' ∉ cs) : fill values 0 cs = .ok cs := by
  have happend : fill values 0 (cs ++ []) = .ok (cs ++ []) := fill_append h []
  rwa [List.append_nil] at happend

/-- Two dollar signs stand for one. -/
theorem fill_dollars (rest : List Char) :
    fill values 0 ('$' :: '$' :: rest) = (fill values 0 rest).map ('$' :: ·) :=
  fill_of_placeholder? ['$'] rfl rfl

/-! ## Names -/

/-- The characters are the name of a hole. -/
def IsHoleName (name : List Char) : Prop := name.head?.any isHoleStart = true ∧ name.all isHoleChar = true

/-- `rest` does not go on with the name of a hole that stands before it. -/
def EndsName (rest : List Char) : Prop := rest.head?.any isHoleChar = false

theorem nameAtFront_append {name rest : List Char} (hname : IsHoleName name) (hrest : EndsName rest) :
    nameAtFront (name ++ rest) = name := by
  obtain ⟨hstart, hall⟩ := hname
  have hne : name ≠ [] := by
    rintro rfl
    cases hstart
  have htake : rest.takeWhile isHoleChar = [] := by
    cases rest with
    | nil => rfl
    | cons c rest => exact List.takeWhile_cons_of_neg (by simpa [EndsName] using hrest)
  rw [nameAtFront, List.head?_append_of_ne_nil _ hne, if_pos hstart,
    List.takeWhile_append_of_pos (List.all_eq_true.1 hall), htake, List.append_nil]

/-- A hole takes its value, which stands as it is in the result. -/
theorem fill_hole {name rest : List Char} (hname : IsHoleName name) (hrest : EndsName rest) {value : String}
    (hvalue : values.find? (String.ofList name) = some value) :
    fill values 0 ('$' :: (name ++ rest)) = (fill values 0 rest).map (value.toList ++ ·) := by
  have hfront := nameAtFront_append hname hrest
  apply fill_of_placeholder? (p := .hole name) name
  · cases name with
    | nil => cases hname.1
    | cons c name =>
      have hc : isHoleStart c = true := by simpa using hname.1
      -- A name starts with neither a dollar sign nor a brace.
      unfold placeholder?
      split
      · next heq =>
        cases heq
        cases hc
      · next heq =>
        cases heq
        cases hc
      · rw [hfront]
        rfl
  · rw [Placeholder.value, hvalue]

/-! ## Lines -/

theorem length_nameAtFront_le (cs : List Char) : (nameAtFront cs).length ≤ cs.length := by
  unfold nameAtFront
  split
  · exact (List.takeWhile_prefix _).length_le
  · exact Nat.zero_le _

theorem length_le_of_placeholder? {cs : List Char} {p : Placeholder} {length : Nat}
    (h : placeholder? cs = some (p, length)) : length ≤ cs.length := by
  have hbound := length_nameAtFront_le cs
  unfold placeholder? at h
  split at h
  · cases h
    exact Nat.succ_le_succ (Nat.zero_le _)
  · next rest =>
    have hbrace := length_nameAtFront_le rest
    dsimp only at h
    split at h
    · next hclose =>
      cases h
      -- The closing brace stands behind the name.
      have hlt : (nameAtFront rest).length < rest.length := by
        have hsome := (Bool.and_eq_true_iff.1 hclose).2
        rw [decide_eq_true_eq, List.head?_drop] at hsome
        exact (List.getElem?_eq_some_iff.1 hsome).1
      rw [List.length_cons]
      omega
    · cases h
  · dsimp only at h
    split at h
    · cases h
    · cases h
      exact hbound

theorem nameAtFront_newline (cs rest : List Char) : nameAtFront (cs ++ '\n' :: rest) = nameAtFront cs := by
  have htake : (cs ++ '\n' :: rest).takeWhile isHoleChar = cs.takeWhile isHoleChar := by
    induction cs with
    | nil => rfl
    | cons c cs ih => rw [List.cons_append, List.takeWhile_cons, List.takeWhile_cons, ih]
  unfold nameAtFront
  rw [htake]
  cases cs <;> rfl

/-- The placeholder behind a dollar sign stands in the line of the dollar sign. -/
theorem placeholder?_newline (cs rest : List Char) : placeholder? (cs ++ '\n' :: rest) = placeholder? cs := by
  cases cs with
  | nil => rfl
  | cons c cs =>
    have hfront := nameAtFront_newline (c :: cs) rest
    unfold placeholder?
    rw [List.cons_append] at hfront ⊢
    split
    · next heq =>
      cases heq
      rfl
    · next heq =>
      cases heq
      have hclose : ((cs ++ '\n' :: rest).drop (nameAtFront cs).length).head? = some '\x7d' ↔
          (cs.drop (nameAtFront cs).length).head? = some '\x7d' := by
        rw [List.head?_drop, List.head?_drop]
        -- Where the name goes to the end of the line, a line break stands in the place of the brace.
        rcases Nat.lt_or_eq_of_le (length_nameAtFront_le cs) with hlt | heq
        · rw [List.getElem?_append_left hlt]
        · rw [heq, List.getElem?_append_right (Nat.le_refl _), Nat.sub_self]
          simp
      simp only [nameAtFront_newline, hclose]
    · next hdollar hbrace =>
      rw [hfront]
      split
      · next heq =>
        cases heq
        exact absurd rfl (hdollar _)
      · next heq =>
        cases heq
        exact absurd rfl (hbrace _)
      · rfl

/-- `line` is filled without regard to the lines behind it. -/
theorem fill_append_newline (line rest : List Char) (skip : Nat) (h : skip ≤ line.length) :
    fill values skip (line ++ '\n' :: rest) =
      (fill values skip line).bind fun filled => (fill values 0 rest).map (filled ++ '\n' :: ·) := by
  induction line generalizing skip with
  | nil =>
    obtain rfl : skip = 0 := Nat.le_zero.1 h
    rw [List.nil_append, fill_cons_of_ne (by decide)]
    rfl
  | cons c line ih =>
    cases skip with
    | succ skip => exact ih skip (Nat.le_of_succ_le_succ h)
    | zero =>
      rw [List.cons_append]
      by_cases hc : c = '$'
      · subst hc
        have hsame := placeholder?_newline line rest
        cases hp : placeholder? line with
        | none =>
          rw [fill_dollar_of_none hp, fill_dollar_of_none (hsame.trans hp)]
          rfl
        | some found =>
          obtain ⟨p, length⟩ := found
          -- What is skipped now is in the line too, so that the induction hypothesis takes it.
          rw [fill_dollar hp, fill_dollar (hsame.trans hp), ih length (length_le_of_placeholder? hp)]
          cases p.value values with
          | error e => rfl
          | ok value =>
            cases fill values length line with
            | error e => rfl
            | ok filled => cases fill values 0 rest <;> simp [Except.bind, Except.map]
      · rw [fill_cons_of_ne hc, fill_cons_of_ne hc, ih 0 (Nat.zero_le _)]
        cases fill values 0 line with
        | error e => rfl
        | ok filled => cases fill values 0 rest <;> rfl

/-! ## Texts -/

theorem substitute_eq_ok_iff {template text : String} :
    substitute values template = .ok text ↔ fill values 0 template.toList = .ok text.toList := by
  unfold substitute
  cases fill values 0 template.toList with
  | error e => simp [Except.map]
  | ok filled =>
    simp only [Except.map, Except.ok.injEq]
    constructor
    · rintro rfl
      exact (String.toList_ofList).symm
    · rintro rfl
      exact String.ofList_toList

theorem substitute_of_not_mem {cs : List Char} (h : '$' ∉ cs) :
    substitute values (String.ofList cs) = .ok (String.ofList cs) := by
  rw [substitute_eq_ok_iff, String.toList_ofList]
  exact fill_of_not_mem h

/-- A template with one hole `name`. Whatever the `value` is, it stands in the result as it is. -/
theorem substitute_hole (front name back : List Char) {value : String} (hfront : '$' ∉ front) (hname : IsHoleName name)
    (hends : EndsName back) (hback : '$' ∉ back) (hvalue : values.find? (String.ofList name) = some value) :
    substitute values (String.ofList (front ++ '$' :: (name ++ back))) =
      .ok (String.ofList front ++ value ++ String.ofList back) := by
  rw [substitute_eq_ok_iff, String.toList_ofList, fill_append hfront, fill_hole hname hends hvalue, fill_of_not_mem hback]
  simp [Except.map]

example : substitute (.ofList [("a", "$b$$"), ("b", "x")]) "($a)" = .ok "($b$$)" := rfl

/-- A template in which a dollar sign is meant. -/
theorem substitute_dollars (front back : List Char) (hfront : '$' ∉ front) (hback : '$' ∉ back) :
    substitute values (String.ofList (front ++ '$' :: '$' :: back)) = .ok (String.ofList (front ++ '$' :: back)) := by
  rw [substitute_eq_ok_iff, String.toList_ofList, String.toList_ofList, fill_append hfront, fill_dollars,
    fill_of_not_mem hback]
  rfl

/-- A template of several lines is filled line by line. -/
theorem substitute_intercalate {lines filled : List String}
    (h : List.Forall₂ (fun line text => substitute values line = .ok text) lines filled) :
    substitute values ("\n".intercalate lines) = .ok ("\n".intercalate filled) := by
  induction h with
  | nil => rfl
  | @cons line text lines filled hline hrest ih =>
    cases hrest with
    | nil => simpa using hline
    | cons hnext hmore =>
      have htext (first next : String) (more : List String) :
          ("\n".intercalate (first :: next :: more)).toList =
            first.toList ++ '\n' :: ("\n".intercalate (next :: more)).toList := by
        simp [String.intercalate_cons_cons]
      rw [substitute_eq_ok_iff] at hline ih ⊢
      rw [htext, htext, fill_append_newline _ _ 0 (Nat.zero_le _), hline, ih]
      rfl

end HindiScript.Template
