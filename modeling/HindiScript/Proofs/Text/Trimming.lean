import HindiScript.Proofs.Text.Hanging
import Mathlib.Data.List.TakeWhile

/-!
# Trimmed texts and single lines

What trimming leaves is the one part of a text that has no blanks at its ends and nothing but blanks before and behind
it (`exists_trim`, `trim_eq_of_blanks`). The breaks at the ends of lines are blanks, so a trimmed line holds none
(`unbroken_trim`), and lines without breaks that are joined by line feeds are cut apart again (`lines_append_newline`).
-/

namespace HindiScript.Text

variable {cs ds : List Char}

/-! ## Trimming -/

/-- No blank stands at an end. -/
structure Trimmed (cs : List Char) : Prop where
  first : ∀ c ∈ cs.head?, isBlank c = false
  last : ∀ c ∈ cs.getLast?, isBlank c = false

theorem trimmed_nil : Trimmed [] := ⟨by simp, by simp⟩

def Blanks (cs : List Char) : Prop := ∀ c ∈ cs, isBlank c = true

theorem blanks_nil : Blanks [] := List.forall_mem_nil _

theorem blanks_space : Blanks [' '] := List.forall_mem_singleton.2 (by decide)

theorem blanks_newline : Blanks ['\n'] := List.forall_mem_singleton.2 (by decide)

theorem Blanks.append (h : Blanks cs) (h' : Blanks ds) : Blanks (cs ++ ds) := by
  intro c hc
  rcases List.mem_append.1 hc with hc | hc
  · exact h c hc
  · exact h' c hc

theorem dropWhile_blanks (h : Blanks cs) (hd : ∀ c ∈ ds.head?, isBlank c = false) :
    (cs ++ ds).dropWhile isBlank = ds := by
  rw [List.dropWhile_append_of_pos h]
  cases ds with
  | nil => rfl
  | cons d rest => rw [List.dropWhile_cons_of_neg (by simp [hd d rfl])]

theorem not_isBlank_dropWhile (cs : List Char) : ∀ c ∈ (cs.dropWhile isBlank).head?, isBlank c = false := by
  intro c hc
  have hnot := List.head?_dropWhile_not isBlank cs
  rw [Option.mem_def.1 hc] at hnot
  simpa using hnot

/-- `trim` takes away the blanks before and behind a text without blanks at its ends. -/
theorem trim_eq_of_blanks {before behind : List Char} (hb : Blanks before) (hd : Blanks behind) (h : Trimmed cs) :
    trim (before ++ cs ++ behind) = cs := by
  by_cases hne : cs = []
  · subst hne
    have hall : (before ++ behind).dropWhile isBlank = [] := List.dropWhile_eq_nil_iff.2 (hb.append hd)
    rw [trim, List.append_nil, hall]
    rfl
  · have hfirst : ∀ c ∈ (cs ++ behind).head?, isBlank c = false := by
      rw [List.head?_append_of_ne_nil _ hne]
      exact h.first
    have hlast : ∀ c ∈ cs.reverse.head?, isBlank c = false := by
      rw [List.head?_reverse]
      exact h.last
    have hbehind : Blanks behind.reverse := fun c hc => hd c (List.mem_reverse.1 hc)
    rw [trim, List.append_assoc, dropWhile_blanks hb hfirst, List.reverse_append, dropWhile_blanks hbehind hlast,
      List.reverse_reverse]

/-- Every text is what `trim` leaves, with blanks before and behind it. -/
theorem exists_trim (cs : List Char) :
    ∃ before behind, Blanks before ∧ Blanks behind ∧ cs = before ++ trim cs ++ behind := by
  let rest := cs.dropWhile isBlank
  refine ⟨cs.takeWhile isBlank, (rest.reverse.takeWhile isBlank).reverse, fun c hc => List.mem_takeWhile_imp hc,
    fun c hc => List.mem_takeWhile_imp (List.mem_reverse.1 hc), ?_⟩
  have hrest : trim cs ++ (rest.reverse.takeWhile isBlank).reverse = rest := by
    rw [trim, ← List.reverse_append, List.takeWhile_append_dropWhile, List.reverse_reverse]
  rw [List.append_assoc, hrest, List.takeWhile_append_dropWhile]

theorem trimmed_trim (cs : List Char) : Trimmed (trim cs) := by
  constructor
  · -- What is dropped at the end does not change how the rest starts.
    have hprefix : trim cs <+: cs.dropWhile isBlank := by
      rw [trim, ← List.reverse_suffix, List.reverse_reverse]
      exact List.dropWhile_suffix _
    obtain ⟨more, hmore⟩ := hprefix
    intro c hc
    apply not_isBlank_dropWhile cs c
    rw [← hmore, List.head?_append, Option.mem_def.1 hc]
    rfl
  · intro c hc
    rw [trim, List.getLast?_reverse] at hc
    exact not_isBlank_dropWhile _ c hc

theorem trim_eq_self (h : Trimmed cs) : trim cs = cs := by
  simpa using trim_eq_of_blanks blanks_nil blanks_nil h

theorem trim_append_blanks (h : Blanks ds) (cs : List Char) : trim (cs ++ ds) = trim cs := by
  obtain ⟨before, behind, hbefore, hbehind, hcs⟩ := exists_trim cs
  have htrim := trim_eq_of_blanks hbefore (hbehind.append h) (trimmed_trim cs)
  rwa [← List.append_assoc, ← hcs] at htrim

theorem mem_of_mem_trim {c : Char} (h : c ∈ trim cs) : c ∈ cs := by
  obtain ⟨before, behind, -, -, hcs⟩ := exists_trim cs
  rw [hcs]
  simp [h]

theorem trim_ne_nil {c : Char} {rest : List Char} (h : isBlank c = false) : trim (c :: rest) ≠ [] := by
  intro htrim
  obtain ⟨before, behind, hbefore, hbehind, hcs⟩ := exists_trim (c :: rest)
  rw [htrim, List.append_nil] at hcs
  have hc := hbefore.append hbehind c (hcs ▸ List.mem_cons_self)
  exact absurd (h.symm.trans hc) (by decide)

/-! ## Lines -/

def Unbroken (cs : List Char) : Prop := ∀ c ∈ cs, isLineBreak c = false

theorem unbroken_nil : Unbroken [] := List.forall_mem_nil _

/-- A line of a text has no break but at its end. -/
theorem exists_unbroken_of_mem_lines {line : List Char} (h : line ∈ lines cs) :
    ∃ inner ending, line = inner ++ ending ∧ Unbroken inner ∧ Blanks ending := by
  fun_induction lines cs generalizing line with
  | case1 => cases h
  | case2 rest ih =>
    rcases List.mem_cons.1 h with rfl | h
    · exact ⟨[], ['\r', '\n'], rfl, unbroken_nil, by simp [Blanks]; decide⟩
    · exact ih h
  | case3 c rest _ hbreak ih =>
    rcases List.mem_cons.1 h with rfl | h
    · exact ⟨[], [c], rfl, unbroken_nil, by simpa [Blanks] using isBlank_of_isLineBreak hbreak⟩
    · exact ih h
  | case4 c rest _ hbreak _ ih =>
    obtain rfl := List.mem_singleton.1 h
    exact ⟨[c], [], rfl, by simpa [Unbroken] using hbreak, blanks_nil⟩
  | case5 c rest _ hbreak line' more hlines ih =>
    rcases List.mem_cons.1 h with rfl | h
    · obtain ⟨inner, ending, rfl, hinner, hending⟩ := ih (hlines ▸ List.mem_cons_self)
      refine ⟨c :: inner, ending, rfl, ?_, hending⟩
      exact List.forall_mem_cons.2 ⟨by simpa using hbreak, hinner⟩
    · exact ih (hlines ▸ List.mem_cons_of_mem _ h)

theorem unbroken_trim {line : List Char} (h : line ∈ lines cs) : Unbroken (trim line) := by
  obtain ⟨inner, ending, rfl, hinner, hending⟩ := exists_unbroken_of_mem_lines h
  rw [trim_append_blanks hending]
  exact fun c hc => hinner c (mem_of_mem_trim hc)

/-- A line feed ends the line before it. -/
theorem lines_append_newline (h : Unbroken cs) (ds : List Char) :
    lines (cs ++ '\n' :: ds) = (cs ++ ['\n']) :: lines ds := by
  induction cs with
  | nil => rfl
  | cons c rest ih =>
    obtain ⟨hc, hrest⟩ := List.forall_mem_cons.1 h
    rw [List.cons_append, lines_of_not_break hc, ih hrest]
    rfl

theorem lines_of_unbroken (h : Unbroken cs) (hne : cs ≠ []) : lines cs = [cs] := by
  induction cs with
  | nil => exact absurd rfl hne
  | cons c rest ih =>
    obtain ⟨hc, hrest⟩ := List.forall_mem_cons.1 h
    rw [lines_of_not_break hc]
    cases rest with
    | nil => rfl
    | cons d more => rw [ih hrest (List.cons_ne_nil d more)]

end HindiScript.Text
