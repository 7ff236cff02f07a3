import HindiScript.Text.Blank

/-!
# Lines and pieces of a text

Cutting a text at its line breaks or at a separator, and trimming blanks. Main statements:
`flatten_lines`, cutting into lines loses no character, and `intercalate_pieces`, neither does cutting
at a separator.
-/

namespace HindiScript.Text

/-! ## Trimming -/

/-- `cs` without the blanks at both its ends. -/
def trim (cs : List Char) : List Char :=
  ((cs.dropWhile isBlank).reverse.dropWhile isBlank).reverse

/-! ## Lines -/

/-- The code points of the characters that end a line, in ascending runs. -/
def lineBreakRanges : Ranges where
  pairs := [(0xA, 0xD), (0x1C, 0x1E), (0x85, 0x85), (0x2028, 0x2029)]

/-- A character that ends a line. -/
def isLineBreak (c : Char) : Bool := lineBreakRanges.holds c

theorem isBlank_of_isLineBreak {c : Char} (h : isLineBreak c = true) : isBlank c = true := by
  rw [isLineBreak, Ranges.holds_iff] at h
  rw [isBlank, Ranges.holds_iff]
  simp only [lineBreakRanges, blankRanges, List.mem_cons, List.not_mem_nil, or_false, exists_eq_or_imp,
    exists_eq_left] at *
  omega

/-- The lines of a text, each with its line break. A carriage return and the line feed after it are
one break; a text that ends in a break has no empty line after it. -/
def lines : List Char → List (List Char)
  | [] => []
  | '\r' :: '\n' :: rest => ['\r', '\n'] :: lines rest
  | c :: rest =>
    if isLineBreak c then [c] :: lines rest
    else match lines rest with
      | [] => [[c]]
      | line :: more => (c :: line) :: more

theorem flatten_lines (cs : List Char) : (lines cs).flatten = cs := by
  fun_induction lines cs with
  | case1 => rfl
  | case2 rest ih => simp [ih]
  | case3 c rest _ _ ih => simp [ih]
  | case4 c rest _ _ h ih => simp [h] at ih; simp [← ih]
  | case5 c rest _ _ line more h ih => simp [h] at ih; simp [← ih]

/-! ## Pieces -/

/-- The pieces between the `sep`; a text without one is a single piece. -/
def pieces (sep : Char) : List Char → List (List Char)
  | [] => [[]]
  | c :: rest =>
    if c = sep then [] :: pieces sep rest
    else match pieces sep rest with
      | [] => [[c]]
      | piece :: more => (c :: piece) :: more

theorem pieces_ne_nil (sep : Char) (cs : List Char) : pieces sep cs ≠ [] := by
  fun_induction pieces sep cs <;> simp

theorem intercalate_pieces (sep : Char) (cs : List Char) :
    [sep].intercalate (pieces sep cs) = cs := by
  fun_induction pieces sep cs with
  | case1 => rfl
  | case2 rest ih =>
    obtain ⟨p, ps, h⟩ := List.exists_cons_of_ne_nil (pieces_ne_nil sep rest)
    rw [h] at ih ⊢
    simpa [List.intercalate] using ih
  | case3 c rest _ h => exact absurd h (pieces_ne_nil sep rest)
  | case4 c rest _ piece more h ih =>
    rw [h] at ih
    cases more with
    | nil => simpa [List.intercalate] using ih
    | cons m ms => simpa [List.intercalate] using ih

/-- The text before the first `sep`, and the text after it; nothing comes after a text without one. -/
def cut (sep : Char) (cs : List Char) : List Char × List Char :=
  (cs.takeWhile (· ≠ sep), (cs.dropWhile (· ≠ sep)).drop 1)

/-! ## Joining -/

/-- The `parts` that are not empty, one a line. -/
def joinLines (parts : List String) : String := "\n".intercalate (parts.filter (· ≠ ""))

end HindiScript.Text
