import HindiScript.Proofs.Text.Hanging

/-!
# Lines that are set in by their braces

A scan over the lines of a text keeps count of the blocks that are open and compares each line's spaces with the count
(`scanLines`). A piece of text in which every block has its braces at the ends of lines folds (`Folds`): such pieces
can be put one behind another in a line. Main statements: setting lines in takes the scan one block deeper
(`Aligned.setIn`), and a text that folds is a run of lines that the scan accepts (`Folds.aligned`).
-/

namespace HindiScript.Text

/-! ## Pieces -/

section

variable {sep : Char} {cs ds l : List Char} {ls : List (List Char)}

theorem pieces_of_not_mem (h : sep ∉ l) : pieces sep l = [l] := by
  induction l with
  | nil => rfl
  | cons c rest ih =>
    rw [List.mem_cons, not_or] at h
    rw [pieces, if_neg (Ne.symm h.1), ih h.2]

/-- `sep` parts the pieces before it from those behind it. -/
theorem pieces_append (sep : Char) (cs ds : List Char) :
    pieces sep (cs ++ sep :: ds) = pieces sep cs ++ pieces sep ds := by
  induction cs with
  | nil => simp [pieces]
  | cons c rest ih =>
    rw [List.cons_append, pieces, pieces, ih]
    split
    · rfl
    · cases hp : pieces sep rest with
      | nil => exact absurd hp (pieces_ne_nil sep rest)
      | cons p ps => rfl

/-- A character that is no separator starts the first piece. -/
theorem exists_pieces_cons {c : Char} (h : c ≠ sep) (cs : List Char) :
    ∃ more ps, pieces sep (c :: cs) = (c :: more) :: ps := by
  rw [pieces, if_neg h]
  cases hp : pieces sep cs with
  | nil => exact ⟨[], [], rfl⟩
  | cons p ps => exact ⟨p, ps, rfl⟩

theorem not_mem_of_mem_pieces (h : l ∈ pieces sep cs) : sep ∉ l := by
  induction cs generalizing l with
  | nil =>
    obtain rfl := List.mem_singleton.1 h
    exact List.not_mem_nil
  | cons c rest ih =>
    unfold pieces at h
    split at h
    · rcases List.mem_cons.1 h with rfl | h
      · exact List.not_mem_nil
      · exact ih h
    · next hc =>
      cases hp : pieces sep rest with
      | nil => exact absurd hp (pieces_ne_nil sep rest)
      | cons p ps =>
        rw [hp] at h ih
        rcases List.mem_cons.1 h with rfl | h
        · rw [List.mem_cons, not_or]
          exact ⟨Ne.symm hc, ih List.mem_cons_self⟩
        · exact ih (List.mem_cons_of_mem _ h)

/-- A text with `sep` before it is its pieces, each behind a `sep`. -/
theorem cons_eq_flatMap_pieces (sep : Char) (cs : List Char) :
    sep :: cs = (pieces sep cs).flatMap (sep :: ·) := by
  induction cs with
  | nil => rfl
  | cons c rest ih =>
    unfold pieces
    split
    · next hc =>
      subst hc
      rw [List.flatMap_cons, ← ih]
      rfl
    · cases hp : pieces sep rest with
      | nil => exact absurd hp (pieces_ne_nil sep rest)
      | cons p ps =>
        rw [hp, List.flatMap_cons, List.cons_append, List.cons_inj_right] at ih
        rw [ih]
        rfl

theorem mem_of_mem_pieces {c : Char} (h : l ∈ pieces sep cs) (hc : c ∈ l) : c ∈ cs := by
  have hmem : c ∈ sep :: cs := by
    rw [cons_eq_flatMap_pieces]
    exact List.mem_flatMap.2 ⟨l, h, List.mem_cons_of_mem _ hc⟩
  rcases List.mem_cons.1 hmem with rfl | hmem
  · exact absurd hc (not_mem_of_mem_pieces h)
  · exact hmem

/-- Pieces come back from the text that they make with separators between them. -/
theorem pieces_intercalate (hne : ls ≠ []) (h : ∀ l ∈ ls, sep ∉ l) : pieces sep ([sep].intercalate ls) = ls := by
  induction ls with
  | nil => exact absurd rfl hne
  | cons l rest ih =>
    have hl := pieces_of_not_mem (h l List.mem_cons_self)
    cases rest with
    | nil => rw [List.intercalate_singleton, hl]
    | cons next rest =>
      have hrest := ih (List.cons_ne_nil _ _) fun l' hl' => h l' (List.mem_cons_of_mem _ hl')
      rw [List.intercalate_cons_cons, List.append_assoc, List.singleton_append, pieces_append, hl, hrest,
        List.singleton_append]

theorem pieces_flatMap (h : ∀ l ∈ ls, sep ∉ l) (cs ds : List Char) :
    pieces sep (cs ++ (ls.flatMap (sep :: ·) ++ sep :: ds)) = pieces sep cs ++ ls ++ pieces sep ds := by
  induction ls generalizing cs with
  | nil => simp [pieces_append]
  | cons l rest ih =>
    have hl := pieces_of_not_mem (h l List.mem_cons_self)
    have hrest := ih (fun l' hl' => h l' (List.mem_cons_of_mem _ hl')) l
    simp only [List.flatMap_cons, List.cons_append, List.append_assoc]
    rw [pieces_append, hrest, hl]
    simp

end

/-! ## The scan -/

/-- How many spaces the line starts with. -/
def leadingSpaces (line : List Char) : Nat := (line.takeWhile (· = ' ')).length

/-- The first character behind the spaces closes a block. -/
def closesBlock (line : List Char) : Bool := (line.dropWhile (· = ' ')).head? = some '\x7d'

/-- The last character opens a block. -/
def opensBlock (line : List Char) : Bool := line.getLast? = some '\x7b'

/-- The depth at which `line` stands. One that closes a block stands outside of that block. -/
def lineDepth (depth : Int) (line : List Char) : Int := if closesBlock line then depth - 1 else depth

/-- The depth behind `line`. There is none behind a line that closes more blocks than are open, or that has not four
spaces for each block around it. -/
def scanLine (depth : Int) (line : List Char) : Option Int :=
  if 0 ≤ lineDepth depth line ∧ leadingSpaces line = 4 * lineDepth depth line then
    some (if opensBlock line then lineDepth depth line + 1 else lineDepth depth line)
  else none

/-- The depth behind the lines `ls`, one `scanLine` after the other. -/
def scanLines (depth : Int) (ls : List (List Char)) : Option Int := ls.foldlM scanLine depth

/-- Behind its spaces, the line starts with a character that is not blank. -/
def Visible (line : List Char) : Prop :=
  ∃ k c more, line = List.replicate k ' ' ++ c :: more ∧ isBlank c = false

theorem ne_space {c : Char} (h : isBlank c = false) : c ≠ ' ' := by
  rintro rfl
  exact absurd h (by decide)

section

variable {c : Char} {more line : List Char}

theorem leadingSpaces_replicate (h : isBlank c = false) (k : Nat) (more : List Char) :
    leadingSpaces (List.replicate k ' ' ++ c :: more) = k := by
  simp [leadingSpaces, List.takeWhile_append_of_pos, ne_space h]

theorem closesBlock_replicate (h : isBlank c = false) (k : Nat) (more : List Char) :
    closesBlock (List.replicate k ' ' ++ c :: more) = decide (c = '\x7d') := by
  simp [closesBlock, List.dropWhile_append_of_pos, ne_space h]

theorem visible_of_head (h : isBlank c = false) (hline : line.head? = some c) : Visible line := by
  cases line with
  | nil => cases hline
  | cons first more =>
    obtain rfl := Option.some.inj hline
    exact ⟨0, first, more, rfl, h⟩

/-- A line without spaces at its start stands outside of all blocks. -/
theorem scanLine_of_head (h : isBlank c = false) (hline : line.head? = some c) :
    scanLine (if c = '\x7d' then 1 else 0) line = some (if opensBlock line then 1 else 0) := by
  cases line with
  | nil => cases hline
  | cons first more =>
    obtain rfl := Option.some.inj hline
    have hspaces := leadingSpaces_replicate h 0 more
    have hcloses := closesBlock_replicate h 0 more
    simp only [List.replicate_zero, List.nil_append] at hspaces hcloses
    have hdepth : lineDepth (if first = '\x7d' then 1 else 0) (first :: more) = 0 := by
      unfold lineDepth
      rw [hcloses]
      by_cases hc : first = '\x7d' <;> simp [hc]
    simp [scanLine, hspaces, hdepth]

end

/-! ## Setting in -/

/-- `cs` with `margin` before every line that is not blank. -/
def setInLines (margin cs : List Char) : List Char := (lines cs).flatMap (setIn margin)

section

open Indenting

variable {margin : String} {cs ds line : List Char} {ls : List (List Char)} {c : Char}

theorem holds_between (done : String) : Holds ⟨done, "", false⟩ := ⟨rfl, nofun⟩

theorem setInLines_eq_addAll (margin : String) (cs : List Char) :
    setInLines margin.toList cs = (addAll margin {} cs).done.toList ++ (addAll margin {} cs).held.toList := by
  have h := @foldl_add margin cs {} (holds_between "")
  rw [remaining_of_not_inLine _ rfl rfl] at h
  exact h.symm

/-- With a line feed, all that was `held` is done. -/
theorem add_newline (margin : String) {s : Indenting} (hs : s.Holds) :
    s.add margin '\n' = ⟨s.done ++ s.held ++ "\n", "", false⟩ := by
  obtain ⟨done, held, inLine⟩ := s
  have hbreak : isLineBreak '\n' = true := by decide
  cases inLine with
  | true =>
    have hheld : held = "" := hs.2 rfl
    subst hheld
    simp [add, hbreak, String.push_eq_append]
  | false => simp [add, hbreak, String.push_eq_append, String.append_assoc]

/-- A line feed parts what is set in before it from what is set in behind it. -/
theorem setInLines_append (margin : String) (cs ds : List Char) :
    setInLines margin.toList (cs ++ '\n' :: ds) =
      setInLines margin.toList cs ++ '\n' :: setInLines margin.toList ds := by
  have hs : (addAll margin {} cs).Holds := holds_addAll (holds_between "") cs
  have hstep : addAll margin {} (cs ++ '\n' :: ds) = addAll margin ((addAll margin {} cs).add margin '\n') ds :=
    addAll_append ..
  rw [setInLines_eq_addAll, setInLines_eq_addAll margin cs, hstep, add_newline margin hs, addAll,
    foldl_add ds (holds_between _), remaining_of_not_inLine _ rfl rfl]
  simp [setInLines]

theorem add_ends (margin : String) {s : Indenting} (hs : s.Holds) (c : Char) :
    ∃ front, (s.add margin c).done.toList ++ (s.add margin c).held.toList = front ++ [c] := by
  obtain ⟨done, held, inLine⟩ := s
  cases inLine with
  | true =>
    have hheld : held = "" := hs.2 rfl
    subst hheld
    exact ⟨done.toList, by simp [add]⟩
  | false =>
    unfold add
    simp only [Bool.false_eq_true, if_false]
    split_ifs
    · exact ⟨done.toList ++ held.toList, by simp⟩
    · exact ⟨done.toList ++ held.toList, by simp⟩
    · exact ⟨done.toList ++ margin.toList ++ held.toList, by simp⟩

theorem getLast?_setInLines (margin : String) (cs : List Char) :
    (setInLines margin.toList cs).getLast? = cs.getLast? := by
  induction cs using List.reverseRecOn with
  | nil => rfl
  | append_singleton cs c _ =>
    obtain ⟨front, hfront⟩ := add_ends margin (holds_addAll (holds_between "") cs) c
    rw [setInLines_eq_addAll, addAll_concat, hfront, List.getLast?_concat, List.getLast?_concat]

theorem addAll_spaces (margin : String) (k : Nat) :
    addAll margin {} (List.replicate k ' ') = ⟨"", String.ofList (List.replicate k ' '), false⟩ := by
  have hbreak : isLineBreak ' ' = false := by decide
  have hblank : isBlank ' ' = true := by decide
  induction k with
  | zero => rfl
  | succ k ih => simp [List.replicate_succ', addAll_concat, ih, add, hbreak, hblank, String.push_eq_append]

theorem setInLines_replicate (h : isBlank c = false) (margin : String) (k : Nat) (more : List Char) :
    setInLines margin.toList (List.replicate k ' ' ++ c :: more) =
      margin.toList ++ (List.replicate k ' ' ++ c :: hang margin.toList more) := by
  have hadd : addAll margin {} (List.replicate k ' ' ++ c :: more) =
      addAll margin ⟨(margin ++ String.ofList (List.replicate k ' ')).push c, "", true⟩ more := by
    have hbreak := isLineBreak_of_not_blank h
    rw [List.append_cons, addAll_append, addAll_concat, addAll_spaces]
    simp [add, h, hbreak]
  rw [setInLines_eq_addAll, hadd, addAll_of_inLine ⟨rfl, fun _ => rfl⟩ rfl]
  simp

theorem head?_setInLines (hm : margin.toList.head? = some ' ') (hv : Visible line) :
    (setInLines margin.toList line).head? = some ' ' := by
  obtain ⟨k, c, more, rfl, hc⟩ := hv
  rw [setInLines_replicate hc, List.head?_append, hm, Option.some_or]

theorem mem_setInLines {margin : List Char} (h : c ∈ setInLines margin cs) : c ∈ margin ∨ c ∈ cs := by
  obtain ⟨line, hline, hc⟩ := List.mem_flatMap.1 h
  unfold setIn at hc
  have hmem (hc : c ∈ line) : c ∈ cs := by
    rw [← flatten_lines cs]
    exact List.mem_flatten.2 ⟨line, hline, hc⟩
  split at hc
  · exact .inr (hmem hc)
  · exact (List.mem_append.1 hc).imp_right hmem

theorem pieces_setInLines (h : '\n' ∉ margin.toList) (cs : List Char) :
    pieces '\n' (setInLines margin.toList cs) = (pieces '\n' cs).map (setInLines margin.toList) := by
  have hlines (l : List Char) (ls : List (List Char)) (hl : '\n' ∉ l) (hls : ∀ l' ∈ ls, '\n' ∉ l') :
      pieces '\n' (setInLines margin.toList (l ++ ls.flatMap ('\n' :: ·))) =
        (l :: ls).map (setInLines margin.toList) := by
    have hfirst : '\n' ∉ setInLines margin.toList l := fun hmem => (mem_setInLines hmem).elim h hl
    induction ls generalizing l with
    | nil => simpa using pieces_of_not_mem hfirst
    | cons l' rest ih =>
      rw [List.forall_mem_cons] at hls
      rw [List.flatMap_cons, List.cons_append, setInLines_append, pieces_append, pieces_of_not_mem hfirst,
        ih l' hls.1 hls.2 fun hmem => (mem_setInLines hmem).elim h hls.1]
      rfl
  have hcs := cons_eq_flatMap_pieces '\n' cs
  have hfree (l : List Char) (hl : l ∈ pieces '\n' cs) := not_mem_of_mem_pieces hl
  cases hp : pieces '\n' cs with
  | nil => exact absurd hp (pieces_ne_nil _ _)
  | cons l ls =>
    rw [hp, List.flatMap_cons, List.cons_append, List.cons_inj_right] at hcs
    rw [hp, List.forall_mem_cons] at hfree
    rw [hcs, hlines l ls hfree.1 hfree.2]

end

/-! ## Aligned lines -/

/-- The scan takes the lines `ls` from `depth` to `after`, and each starts with a character that is not blank. -/
structure Aligned (depth : Int) (ls : List (List Char)) (after : Int) : Prop where
  scan : scanLines depth ls = some after
  visible : ∀ l ∈ ls, Visible l

namespace Aligned

variable {a b c : Int} {ls ms : List (List Char)} {margin : String}

theorem nil (a : Int) : Aligned a [] a := ⟨rfl, nofun⟩

theorem cons {line : List Char} (hline : scanLine a line = some b) (hv : Visible line) (h : Aligned b ls c) :
    Aligned a (line :: ls) c := by
  refine ⟨?_, List.forall_mem_cons.2 ⟨hv, h.visible⟩⟩
  rw [scanLines, List.foldlM_cons, hline]
  exact h.scan

theorem append (h : Aligned a ls b) (h' : Aligned b ms c) : Aligned a (ls ++ ms) c := by
  refine ⟨?_, List.forall_mem_append.2 ⟨h.visible, h'.visible⟩⟩
  have hfirst := h.scan
  unfold scanLines at hfirst ⊢
  rw [List.foldlM_append, hfirst]
  exact h'.scan

end Aligned

/-- Set in, a line stands one block deeper. -/
theorem scanLine_setInLines {a b : Int} {line : List Char} {margin : String}
    (hm : margin.toList = List.replicate 4 ' ') (hv : Visible line) (h : scanLine a line = some b) :
    scanLine (a + 1) (setInLines margin.toList line) = some (b + 1) ∧ Visible (setInLines margin.toList line) := by
  have hlast := getLast?_setInLines margin line
  obtain ⟨k, c, more, rfl, hc⟩ := hv
  have hset : setInLines margin.toList (List.replicate k ' ' ++ c :: more) =
      List.replicate (4 + k) ' ' ++ c :: hang margin.toList more := by
    rw [setInLines_replicate hc, hm, ← List.append_assoc, List.replicate_append_replicate]
  refine ⟨?_, 4 + k, c, _, hset, hc⟩
  have hopens : opensBlock (setInLines margin.toList (List.replicate k ' ' ++ c :: more)) =
      opensBlock (List.replicate k ' ' ++ c :: more) := by
    unfold opensBlock
    rw [hlast]
  have hdepth : lineDepth (a + 1) (setInLines margin.toList (List.replicate k ' ' ++ c :: more)) =
      lineDepth a (List.replicate k ' ' ++ c :: more) + 1 := by
    unfold lineDepth
    rw [hset, closesBlock_replicate hc, closesBlock_replicate hc]
    split <;> omega
  have hspaces : (leadingSpaces (setInLines margin.toList (List.replicate k ' ' ++ c :: more)) : Int) =
      4 + leadingSpaces (List.replicate k ' ' ++ c :: more) := by
    rw [hset, leadingSpaces_replicate hc, leadingSpaces_replicate hc]
    rfl
  unfold scanLine at h ⊢
  rw [hopens, hdepth, hspaces]
  split at h
  · next hok =>
    obtain rfl := Option.some.inj h
    rw [if_pos ⟨by omega, by omega⟩]
    split <;> rfl
  · cases h

namespace Aligned

variable {a b : Int} {ls : List (List Char)} {margin : String}

theorem setIn (hm : margin.toList = List.replicate 4 ' ') (h : Aligned a ls b) :
    Aligned (a + 1) (ls.map (setInLines margin.toList)) (b + 1) := by
  obtain ⟨hscan, hvisible⟩ := h
  induction ls generalizing a with
  | nil =>
    obtain rfl : a = b := Option.some.inj hscan
    exact nil _
  | cons line rest ih =>
    rw [List.forall_mem_cons] at hvisible
    rw [scanLines, List.foldlM_cons] at hscan
    obtain ⟨d, hline, hrest⟩ := Option.bind_eq_some_iff.1 hscan
    obtain ⟨hline', hv⟩ := scanLine_setInLines hm hvisible.1 hline
    exact cons hline' hv (ih hrest hvisible.2)

end Aligned

/-! ## Texts that fold -/

/-- A text that may stand within a line: blocks in it end the line behind their opening brace, and their closing brace
starts a line. The lines between are set in, and one block deeper. -/
inductive Folds : List Char → Prop where
  | flat {cs} : '\n' ∉ cs → Folds cs
  | fold {front ls back} : '\n' ∉ front → (∀ l ∈ ls, '\n' ∉ l) → (∀ l ∈ ls, l.head? = some ' ') → Aligned 1 ls 1 →
    Folds back →
    Folds (front ++ '\x7b' :: (ls.flatMap ('\n' :: ·) ++ '\n' :: '\x7d' :: back))

namespace Folds

variable {cs ds : List Char}

theorem append (h : Folds cs) (h' : Folds ds) : Folds (cs ++ ds) := by
  induction h with
  | @flat cs hcs =>
    cases h' with
    | flat hds => exact .flat (by simp [hcs, hds])
    | @fold front ls back hfront hls hset hscan hback =>
      rw [← List.append_assoc]
      exact .fold (by simp [hcs, hfront]) hls hset hscan hback
  | @fold front ls back hfront hls hset hscan _ ih =>
    have hsplit : front ++ '\x7b' :: (ls.flatMap ('\n' :: ·) ++ '\n' :: '\x7d' :: back) ++ ds =
        front ++ '\x7b' :: (ls.flatMap ('\n' :: ·) ++ '\n' :: '\x7d' :: (back ++ ds)) := by simp
    rw [hsplit]
    exact .fold hfront hls hset hscan ih

/-- A text that `Folds`, at the end of a line of which `start` is there already: the scan comes out of all blocks
again. The induction is on the blocks of the text; behind each of them the brace that closes it starts the line. -/
theorem aligned (h : Folds cs) {c : Char} (hc : isBlank c = false) {start : List Char} (hstart : '\n' ∉ start)
    (hfirst : (start ++ cs).head? = some c) (hlast : (start ++ cs).getLast? ≠ some '\x7b') :
    Aligned (if c = '\x7d' then 1 else 0) (pieces '\n' (start ++ cs)) 0 := by
  induction h generalizing start c with
  | @flat cs hcs =>
    have hline : '\n' ∉ start ++ cs := by simp [hstart, hcs]
    have hopens : opensBlock (start ++ cs) = false := decide_eq_false hlast
    have hscan := scanLine_of_head hc hfirst
    rw [hopens] at hscan
    rw [pieces_of_not_mem hline]
    exact .cons hscan (visible_of_head hc hfirst) (.nil 0)
  | @fold front ls back hfront hls _ hinner _ ih =>
    -- The first line ends with the opening brace, and the last block's lines end before the line of its closing brace.
    have hline : '\n' ∉ start ++ front ++ ['\x7b'] := by simp [hstart, hfront]
    have hhead : (start ++ front ++ ['\x7b']).head? = some c := by
      rw [← hfirst]
      simp
    have hopens : opensBlock (start ++ front ++ ['\x7b']) = true := by simp [opensBlock]
    have hscan := scanLine_of_head hc hhead
    rw [hopens] at hscan
    have hsplit : start ++ (front ++ '\x7b' :: (ls.flatMap ('\n' :: ·) ++ '\n' :: '\x7d' :: back)) =
        (start ++ front ++ ['\x7b']) ++ (ls.flatMap ('\n' :: ·) ++ '\n' :: '\x7d' :: back) := by simp
    rw [hsplit] at hlast ⊢
    have hend : (['\x7d'] ++ back).getLast? ≠ some '\x7b' := by
      rwa [List.append_cons _ '\n', ← List.append_assoc,
        List.getLast?_append_of_ne_nil _ (List.cons_ne_nil _ _)] at hlast
    have hback := @ih '\x7d' (by decide) ['\x7d'] (by decide) rfl hend
    rw [pieces_flatMap hls, pieces_of_not_mem hline]
    exact (Aligned.cons hscan (visible_of_head hc hhead) hinner).append hback

/-- All lines of a text that `Folds` but the first are set in or start with a closing brace. -/
theorem head?_of_mem_tail (h : Folds cs) {start l : List Char} (hstart : '\n' ∉ start)
    (hl : l ∈ (pieces '\n' (start ++ cs)).tail) : l.head? = some ' ' ∨ l.head? = some '\x7d' := by
  induction h generalizing start with
  | @flat cs hcs =>
    have hline : '\n' ∉ start ++ cs := by simp [hstart, hcs]
    rw [pieces_of_not_mem hline] at hl
    cases hl
  | @fold front ls back hfront hls hset _ _ ih =>
    have hline : '\n' ∉ start ++ front ++ ['\x7b'] := by simp [hstart, hfront]
    have hsplit : start ++ (front ++ '\x7b' :: (ls.flatMap ('\n' :: ·) ++ '\n' :: '\x7d' :: back)) =
        (start ++ front ++ ['\x7b']) ++ (ls.flatMap ('\n' :: ·) ++ '\n' :: '\x7d' :: back) := by simp
    obtain ⟨more, ps, hback⟩ := exists_pieces_cons (show '\x7d' ≠ '\n' by decide) back
    rw [hsplit, pieces_flatMap hls, pieces_of_not_mem hline, hback] at hl
    rcases List.mem_append.1 hl with hl | hl
    · exact .inl (hset l hl)
    · rcases List.mem_cons.1 hl with rfl | hl
      · exact .inr rfl
      · refine @ih ['\x7d'] (by decide) ?_
        rw [List.singleton_append, hback]
        exact hl

end Folds

end HindiScript.Text
