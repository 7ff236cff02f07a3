import HindiScript.Text.Indent
import Mathlib.Data.List.Infix
import Mathlib.Data.List.Induction
import Mathlib.Logic.Function.Iterate

/-!
# What a margin does to a part of a text

When a text is set in, a part of it that begins and ends with a character that is not blank keeps its first line and
gets the margin before its other lines: it hangs (`hang_infix_indent`). It stays as it is if and only if it holds no
line break (`hung_eq_iff`).
-/

namespace HindiScript.Text

/-- `cs` with `margin` before every line that is not blank, but for the first line. -/
def hang (margin cs : List Char) : List Char :=
  match lines cs with
  | [] => []
  | line :: more => line ++ more.flatMap (setIn margin)

/-- `cs`, hanging by `n` margins. -/
def hung (margin : List Char) (n : Nat) (cs : List Char) : List Char := (hang margin)^[n] cs

/-- The text begins and ends with a character that is not blank. -/
def Capped (cs : List Char) : Prop :=
  ∃ first middle last, cs = first :: (middle ++ [last]) ∧ isBlank first = false ∧ isBlank last = false

theorem isLineBreak_of_not_blank {c : Char} (h : isBlank c = false) : isLineBreak c = false := by
  cases hb : isLineBreak c with
  | false => rfl
  | true => rw [isBlank_of_isLineBreak hb] at h; cases h

/-! ## Adding to a line -/

namespace Indenting

variable {margin : String} {s : Indenting} {c : Char} {cs : List Char}

def addAll (margin : String) (s : Indenting) (cs : List Char) : Indenting := cs.foldl (Indenting.add margin) s

theorem addAll_append (margin : String) (s : Indenting) (cs ds : List Char) :
    s.addAll margin (cs ++ ds) = (s.addAll margin cs).addAll margin ds := List.foldl_append

theorem addAll_concat (margin : String) (s : Indenting) (cs : List Char) (c : Char) :
    s.addAll margin (cs ++ [c]) = (s.addAll margin cs).add margin c := List.foldl_concat ..

theorem holds_addAll (hs : s.Holds) (cs : List Char) : (s.addAll margin cs).Holds := by
  induction cs generalizing s with
  | nil => exact hs
  | cons c rest ih => exact ih (holds_add hs c)

/-- What is done stays. -/
theorem done_prefix_addAll (margin : String) (s : Indenting) (cs : List Char) :
    s.done.toList <+: (s.addAll margin cs).done.toList := by
  induction cs generalizing s with
  | nil => exact List.prefix_rfl
  | cons c rest ih =>
    refine .trans ?_ (ih (s.add margin c))
    obtain ⟨done, held, inLine⟩ := s
    cases inLine with
    | true => simp [add]
    | false =>
      unfold add
      simp only [Bool.false_eq_true, if_false]
      split_ifs <;> simp

/-- A character that is not blank is put at the end of `done`, and its line is known not to be blank. -/
theorem add_of_not_blank (margin : String) (s : Indenting) (h : isBlank c = false) :
    (s.add margin c).inLine = true ∧ ∃ done : String, (s.add margin c).done = done.push c := by
  obtain ⟨done, held, inLine⟩ := s
  unfold add
  cases inLine <;> simp [h, isLineBreak_of_not_blank h]

/-- From within a line on, a text is added hanging. -/
theorem addAll_of_inLine (hs : s.Holds) (hi : s.inLine = true) (cs : List Char) :
    (s.addAll margin cs).done.toList ++ (s.addAll margin cs).held.toList = s.done.toList ++ hang margin.toList cs := by
  rw [addAll, foldl_add cs hs, remaining, if_pos hi]
  rfl

/-- From within a line on, a text that ends in no blank is added as a whole. -/
theorem done_addAll_of_inLine (hs : s.Holds) (hi : s.inLine = true) (cs : List Char) (hc : isBlank c = false) :
    (s.addAll margin (cs ++ [c])).done.toList = s.done.toList ++ hang margin.toList (cs ++ [c]) := by
  have hheld : (s.addAll margin (cs ++ [c])).held = "" := by
    refine (holds_addAll hs _).2 ?_
    rw [addAll_concat]
    exact (add_of_not_blank margin _ hc).1
  rw [← addAll_of_inLine hs hi, hheld]
  simp

/-- Within a line, with nothing done yet. -/
def within : Indenting := ⟨"", "", true⟩

theorem holds_within : within.Holds := ⟨rfl, fun _ => rfl⟩

end Indenting

/-! ## Hanging texts -/

section

open Indenting

variable {margin text : String} {cs q : List Char}

theorem hang_cons {c : Char} (h : isLineBreak c = false) (margin cs : List Char) :
    hang margin (c :: cs) = c :: hang margin cs := by
  rw [hang, hang, lines_of_not_break h]
  cases lines cs <;> rfl

theorem hang_of_no_break (h : ∀ c ∈ cs, isLineBreak c = false) (margin : List Char) : hang margin cs = cs := by
  induction cs with
  | nil => rfl
  | cons c rest ih =>
    rw [hang_cons (h c List.mem_cons_self), ih fun d hd => h d (List.mem_cons_of_mem c hd)]

theorem Capped.hang (h : Capped q) (margin : String) : Capped (hang margin.toList q) := by
  obtain ⟨first, middle, last, rfl, hfirst, hlast⟩ := h
  -- The last character is the last one added, also behind a margin.
  obtain ⟨-, done, hdone⟩ := add_of_not_blank margin (within.addAll margin middle) hlast
  have hmore : Text.hang margin.toList (middle ++ [last]) = done.toList ++ [last] := by
    have h := @done_addAll_of_inLine margin within last holds_within rfl middle hlast
    rw [addAll_concat, hdone] at h
    simpa [within] using h.symm
  refine ⟨first, done.toList, last, ?_, hfirst, hlast⟩
  rw [hang_cons (isLineBreak_of_not_blank hfirst), hmore]

/-- `indent` makes a capped part of a text hang. -/
theorem hang_infix_indent (h : Capped q) (hq : q <:+: text.toList) :
    hang margin.toList q <:+: (indent margin text).toList := by
  obtain ⟨first, middle, last, rfl, hfirst, hlast⟩ := h
  obtain ⟨front, back, htext⟩ := hq
  -- The three states: with the first character of the part, with the whole part, and at the end.
  have hstart : Holds {} := ⟨rfl, nofun⟩
  obtain ⟨hline, done, hdone⟩ := add_of_not_blank margin (addAll margin {} front) hfirst
  generalize hs : (addAll margin {} front).add margin first = s at hline hdone
  have hholds : s.Holds := hs ▸ holds_add (holds_addAll hstart front) first
  have hpart := @done_addAll_of_inLine margin s last hholds hline middle hlast
  generalize ht : s.addAll margin (middle ++ [last]) = t at hpart
  have hend : (indent margin text).toList =
      (t.addAll margin back).done.toList ++ (t.addAll margin back).held.toList := by
    have : t.addAll margin back = addAll margin {} text.toList := by
      rw [← htext, addAll_append, addAll_append, ← ht, ← hs]
      rfl
    rw [this, indent, String.foldl_eq_foldl_toList]
    simp [addAll]
  have hhang : hang margin.toList (first :: (middle ++ [last])) <:+ t.done.toList := by
    rw [hpart, hdone, hang_cons (isLineBreak_of_not_blank hfirst)]
    exact ⟨done.toList, by simp⟩
  rw [hend]
  exact hhang.isInfix.trans ((done_prefix_addAll margin t back).isInfix.trans (List.prefix_append _ _).isInfix)

/-- A text does not get shorter when it hangs. If it has a line break and its last line is not blank, it gets longer by
a margin at least. -/
theorem length_addAll_within (margin : String) (cs : List Char) :
    let s := within.addAll margin cs
    cs.length ≤ (s.done.toList ++ s.held.toList).length ∧
      (s.inLine = true → (∃ c ∈ cs, isLineBreak c = true) →
        cs.length + margin.toList.length ≤ (s.done.toList ++ s.held.toList).length) := by
  intro s
  induction cs using List.reverseRecOn with
  | nil => simp
  | append_singleton cs c ih =>
    obtain ⟨hle, hmargin⟩ := ih
    simp only [s, addAll_concat]
    generalize within.addAll margin cs = s' at hle hmargin
    obtain ⟨done, held, inLine⟩ := s'
    simp only [List.length_append] at hle hmargin
    cases inLine with
    | true =>
      refine ⟨by simp [add]; omega, fun hin hbreak => ?_⟩
      have hc : isLineBreak c = false := by simpa [add] using hin
      have := hmargin rfl (by simpa [hc] using hbreak)
      simp [add]
      omega
    | false =>
      unfold add
      simp only [Bool.false_eq_true, if_false]
      split_ifs
      · exact ⟨by simp; omega, fun hin => hin.elim⟩
      · exact ⟨by simp; omega, fun hin => hin.elim⟩
      · exact ⟨by simp; omega, fun _ _ => by simp; omega⟩

theorem length_hang_le (margin : String) (cs : List Char) : cs.length ≤ (hang margin.toList cs).length := by
  have hle := (length_addAll_within margin cs).1
  rw [addAll_of_inLine holds_within rfl] at hle
  simpa [within] using hle

theorem Capped.length_hang_lt (h : Capped q) (hm : margin ≠ "") (hb : ∃ c ∈ q, isLineBreak c = true) :
    q.length < (Text.hang margin.toList q).length := by
  obtain ⟨first, middle, last, rfl, hfirst, hlast⟩ := h
  have hlt := (length_addAll_within margin (first :: (middle ++ [last]))).2 ?_ hb
  · rw [addAll_of_inLine holds_within rfl] at hlt
    have hpos : 0 < margin.toList.length := by simpa [List.length_pos_iff] using hm
    simp [within] at hlt ⊢
    omega
  · rw [← List.cons_append, addAll_concat]
    exact (add_of_not_blank margin _ hlast).1

/-! ## Hanging by many margins -/

theorem hung_succ (margin : List Char) (n : Nat) (cs : List Char) :
    hung margin (n + 1) cs = hang margin (hung margin n cs) := Function.iterate_succ_apply' ..

theorem Capped.hung (h : Capped q) (margin : String) (n : Nat) : Capped (hung margin.toList n q) := by
  induction n with
  | zero => exact h
  | succ n ih =>
    rw [hung_succ]
    exact ih.hang margin

theorem length_hung_le (margin : String) (n : Nat) (cs : List Char) : cs.length ≤ (hung margin.toList n cs).length := by
  induction n with
  | zero => exact Nat.le_refl _
  | succ n ih =>
    rw [hung_succ]
    exact ih.trans (length_hang_le margin _)

/-- A `Capped` text stays as it is, under no margins or if it has no line break, and not otherwise. -/
theorem Capped.hung_eq_iff (h : Capped q) (hm : margin ≠ "") (n : Nat) :
    Text.hung margin.toList n q = q ↔ n = 0 ∨ ∀ c ∈ q, isLineBreak c = false := by
  constructor
  · intro heq
    by_contra hnot
    obtain ⟨hn, hbreak⟩ : n ≠ 0 ∧ ∃ c ∈ q, isLineBreak c = true := by simpa using hnot
    obtain ⟨n, rfl⟩ := Nat.exists_eq_succ_of_ne_zero hn
    have hlt := h.length_hang_lt hm hbreak
    -- The first margin makes the text longer, and the others do not make it shorter again.
    have hle : (Text.hang margin.toList q).length ≤ (Text.hung margin.toList (n + 1) q).length :=
      length_hung_le margin n _
    rw [heq] at hle
    omega
  · rintro (rfl | hbreak)
    · rfl
    · exact Function.iterate_fixed (hang_of_no_break hbreak _) n

end

end HindiScript.Text
