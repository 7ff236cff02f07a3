import HindiScript.Text.Lines

/-!
# Margins

Setting a text in by a margin, in one pass over its characters. Main statement: `toList_indent`, the margin
stands before every line that is not blank, and nothing else changes.
-/

namespace HindiScript.Text

/-- Where setting in stands: the finished text (`done`), the blanks at the start of a line that may yet turn out to be
blank (`held`), and whether the line is known not to be (`inLine`). -/
structure Indenting where
  done : String := ""
  held : String := ""
  inLine : Bool := false

def Indenting.add (margin : String) (s : Indenting) (c : Char) : Indenting :=
  match s with
  | ⟨done, held, inLine⟩ =>
    if inLine then ⟨done.push c, held, !isLineBreak c⟩
    else if isLineBreak c then ⟨done ++ held.push c, "", false⟩
    else if isBlank c then ⟨done, held.push c, false⟩
    else ⟨(done ++ margin ++ held).push c, "", true⟩

/-- `text` with `margin` before every line that is not blank. -/
def indent (margin text : String) : String :=
  match text.foldl (Indenting.add margin) {} with
  | ⟨done, held, _⟩ => done ++ held

/-! ## Line by line -/

/-- `line` with `margin`, unless it is blank. -/
def setIn (margin line : List Char) : List Char := if line.all isBlank then line else margin ++ line

/-- What is still to come of a line of which `s` has read some, and of the lines after it. -/
def remaining (margin : List Char) (s : Indenting) (cs : List Char) : List Char :=
  if s.inLine then
    match lines cs with
    | [] => []
    | line :: more => line ++ more.flatMap (setIn margin)
  else
    match lines cs with
    | [] => s.held.toList
    | line :: more => setIn margin (s.held.toList ++ line) ++ more.flatMap (setIn margin)

/-- What is `held` is blank, and nothing is held in a line that is not. -/
def Indenting.Holds (s : Indenting) : Prop :=
  s.held.toList.all isBlank = true ∧ (s.inLine = true → s.held = "")

theorem holds_add {margin : String} {s : Indenting} (h : s.Holds) (c : Char) :
    (s.add margin c).Holds := by
  obtain ⟨done, held, inLine⟩ := s
  simp only [Indenting.Holds, Indenting.add] at *
  split
  · next hi => simp [h.2 hi]
  · split
    · simp
    · split
      · next hb => simpa [hb] using h.1
      · simp

theorem lines_of_not_break {c : Char} (h : isLineBreak c = false) (rest : List Char) :
    lines (c :: rest) =
      match lines rest with
      | [] => [[c]]
      | line :: more => (c :: line) :: more := by
  have : c ≠ '\r' := by rintro rfl; exact absurd h (by decide)
  rw [lines]
  · exact if_neg (by simp [h])
  · simp [this]

/-- A line break ends its line; a carriage return may take the line feed after it along, which is blank. -/
theorem flatMap_lines_of_break {c : Char} (h : isLineBreak c = true) (margin rest : List Char) :
    ∃ line more, lines (c :: rest) = (c :: line) :: more ∧ line.all isBlank = true ∧
      line ++ more.flatMap (setIn margin) = (lines rest).flatMap (setIn margin) := by
  by_cases hc : ∃ rest', c = '\r' ∧ rest = '\n' :: rest'
  · obtain ⟨rest', rfl, rfl⟩ := hc
    refine ⟨['\n'], lines rest', rfl, by decide, ?_⟩
    have : lines ('\n' :: rest') = ['\n'] :: lines rest' := by
      rw [lines]
      · rw [if_pos (by decide)]
      · simp
    rw [this, List.flatMap_cons, setIn, if_pos (by decide)]
  · refine ⟨[], lines rest, ?_, rfl, rfl⟩
    rw [lines]
    · simp [h]
    · rintro rest' hr rfl
      exact hc ⟨rest', hr, rfl⟩

theorem remaining_of_not_inLine (margin : List Char) {s : Indenting} (h : s.inLine = false)
    (hb : s.held = "") (cs : List Char) : remaining margin s cs = (lines cs).flatMap (setIn margin) := by
  simp only [remaining, h, hb]
  cases lines cs <;> simp

theorem remaining_cons {margin : String} {s : Indenting} (hs : s.Holds) (c : Char) (rest : List Char) :
    s.done.toList ++ remaining margin.toList s (c :: rest) =
      (s.add margin c).done.toList ++ remaining margin.toList (s.add margin c) rest := by
  obtain ⟨done, held, inLine⟩ := s
  simp only [Indenting.Holds] at hs
  cases inLine with
  | true =>
    have hheld := hs.2 rfl
    subst hheld
    by_cases hb : isLineBreak c = true
    · obtain ⟨line, more, hl, -, hm⟩ := flatMap_lines_of_break hb margin.toList rest
      have h' : remaining margin.toList ⟨done.push c, "", false⟩ rest = _ :=
        remaining_of_not_inLine margin.toList rfl rfl rest
      simp only [Indenting.add, if_true, hb, Bool.not_true, h', ← hm]
      simp [remaining, hl]
    · have hb' : isLineBreak c = false := by simpa using hb
      simp only [Indenting.add, if_true, remaining, hb', Bool.not_false, lines_of_not_break hb' rest]
      cases lines rest <;> simp
  | false =>
    by_cases hb : isLineBreak c = true
    · obtain ⟨line, more, hl, hline, hm⟩ := flatMap_lines_of_break hb margin.toList rest
      have hblank := isBlank_of_isLineBreak hb
      have hall : (held.toList ++ c :: line).all isBlank = true := by
        simp only [List.all_append, List.all_cons, hblank, hline, hs.1, Bool.and_self]
      have h' : remaining margin.toList ⟨done ++ held.push c, "", false⟩ rest = _ :=
        remaining_of_not_inLine margin.toList rfl rfl rest
      simp only [Indenting.add, hb, if_true, Bool.false_eq_true, if_false, h', ← hm]
      simp only [remaining, hl, setIn, hall, if_true, Bool.false_eq_true, if_false]
      simp
    · have hb' : isLineBreak c = false := by simpa using hb
      by_cases hblank : isBlank c = true
      · simp only [Indenting.add, hb', hblank, if_true, Bool.false_eq_true, if_false, remaining,
          lines_of_not_break hb' rest]
        cases lines rest with
        | nil =>
          have : (held.toList ++ [c]).all isBlank = true := by simp [hblank, hs.1]
          simp [setIn, this]
        | cons line more => simp
      · have hnot : ∀ line : List Char, (held.toList ++ c :: line).all isBlank = false := by
          intro line
          simp [hblank]
        simp only [Indenting.add, hb', hblank, Bool.false_eq_true, if_false, if_true, remaining,
          lines_of_not_break hb' rest]
        cases lines rest with
        | nil => simp [setIn, hnot]
        | cons line more => simp [setIn, hnot]

theorem foldl_add {margin : String} (cs : List Char) {s : Indenting} (hs : s.Holds) :
    (cs.foldl (Indenting.add margin) s).done.toList ++ (cs.foldl (Indenting.add margin) s).held.toList =
      s.done.toList ++ remaining margin.toList s cs := by
  induction cs generalizing s with
  | nil =>
    simp only [List.foldl_nil, remaining, lines]
    cases h : s.inLine with
    | true => simp [hs.2 h]
    | false => simp
  | cons c rest ih => rw [List.foldl_cons, ih (holds_add hs c), ← remaining_cons hs c rest]

/-- `margin` stands before every line that is not blank, and nothing else changes. -/
theorem toList_indent (margin text : String) :
    (indent margin text).toList = (lines text.toList).flatMap (setIn margin.toList) := by
  have h := @foldl_add margin text.toList {} ⟨rfl, fun h => absurd h (by decide)⟩
  rw [remaining_of_not_inLine _ rfl rfl] at h
  rw [indent, String.foldl_eq_foldl_toList]
  simpa using h

end HindiScript.Text
