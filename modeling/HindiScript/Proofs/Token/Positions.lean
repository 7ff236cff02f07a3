import HindiScript.Proofs.Token.Tiling
import Mathlib.Logic.Function.Iterate

/-!
# Where tokens stand

Lines and columns are counted one character at a time, while the characters of blanks, comments, strings and operators
are passed. What is counted is right wherever the cursor stands (`Behind`): it depends on the characters before it only.
So each token carries the line and the column of its first character, every token but the end of the text starts behind
the one before it, and no call leaves the cursor beyond the text (`positions_calls`), also after calls that fail.
-/

namespace HindiScript

namespace Cursor

variable {c : Cursor} {before : List Char}

/-! ## Counting -/

/-- The index at which the last line of `cs` starts: just behind the last line feed, if there is one. -/
def lineStart (cs : List Char) : Nat := cs.length - cs.reverse.idxOf '\n'

theorem lineStart_append_newline (cs : List Char) : lineStart (cs ++ ['\n']) = (cs ++ ['\n']).length := by
  simp [lineStart]

theorem lineStart_append_singleton {ch : Char} (h : ch ≠ '\n') (cs : List Char) :
    lineStart (cs ++ [ch]) = lineStart cs := by
  have hne : (ch == '\n') = false := by simpa using h
  simp [lineStart, List.idxOf_cons, hne]

example : lineStart "ab\n\ncd".toList = 4 ∧ lineStart "ab".toList = 0 := by decide

theorem lineStart_le (cs : List Char) : lineStart cs ≤ cs.length := Nat.sub_le _ _

/-- `c` has counted the characters `before` it: their number, their lines, and the characters of the last line. -/
structure Behind (c : Cursor) (before : List Char) : Prop where
  offset : c.offset = before.length
  line : c.line = 1 + before.count '\n'
  column : c.column = before.length - lineStart before + 1

theorem behind_start (text : String) : (start text).Behind [] := ⟨rfl, rfl, rfl⟩

theorem Behind.next (h : c.Behind before) {ch : Char} {rest : List Char} (hc : c.rest = ch :: rest) :
    c.next.Behind (before ++ [ch]) := by
  have hcurrent : c.current? = some ch := by simp [current?, hc]
  by_cases hnl : ch = '\n'
  · subst hnl
    constructor
    · simp [Cursor.next, h.offset]
    · simp [Cursor.next, hcurrent, h.line, List.count_append]
      omega
    · simp [Cursor.next, hcurrent, lineStart_append_newline]
  · constructor
    · simp [Cursor.next, h.offset]
    · simp [Cursor.next, hcurrent, h.line, hnl, List.count_append]
    · have := lineStart_le before
      simp [Cursor.next, hcurrent, h.column, hnl, lineStart_append_singleton hnl]
      omega

theorem Behind.pass {passed rest : List Char} (h : c.Behind before) (hc : c.rest = passed ++ rest) :
    (Cursor.pass passed.length c).Behind (before ++ passed) := by
  induction passed generalizing c before with
  | nil => simpa using h
  | cons ch passed ih =>
    have hnext := h.next hc
    have hrest : c.next.rest = passed ++ rest := by simp [hc]
    simpa using ih hnext hrest

theorem offset_pass (n : Nat) (c : Cursor) : (Cursor.pass n c).offset = c.offset + n := by
  induction n generalizing c with
  | zero => rfl
  | succ n ih =>
    rw [pass_succ, ih]
    simp only [Cursor.next]
    omega

/-! ## Calls -/

/-- `chars` are those of the lexeme `l`, or there are none left and it is `eof`. -/
def SpellsOrEnds (chars more : List Char) (l : Lexeme) : Prop := Spells chars more l ∨ chars = [] ∧ more = [] ∧ l = .eof

theorem SpellsOrEnds.ne_nil {chars more : List Char} {l : Lexeme} (h : SpellsOrEnds chars more l) (hl : l ≠ .eof) : chars ≠ [] := by
  rcases h with hs | ⟨-, -, heof⟩
  · exact hs.ne_nil
  · exact absurd heof hl

theorem readToken_of_spellsOrEnds {trivia chars more : List Char} {l : Lexeme} (ht : Trivia (chars ++ more) trivia)
    (hs : SpellsOrEnds chars more l) (hc : c.rest = trivia ++ (chars ++ more)) :
    c.readToken = (.ok ((Cursor.pass trivia.length c).tokenOf l), Cursor.pass (trivia ++ chars).length c) := by
  rcases hs with hs | ⟨rfl, rfl, rfl⟩
  · exact (readToken_of_piece ht hs (by rw [hc, List.append_assoc])).2
  · simp only [List.append_nil] at hc ht ⊢
    rw [← hc] at ht ⊢
    exact readToken_of_last ht

/-- `readToken` passes over trivia and takes the characters of a lexeme, or of a number that it fails at. -/
theorem readToken_cases (c : Cursor) : ∃ trivia chars more, c.rest = trivia ++ (chars ++ more) ∧
    Trivia (chars ++ more) trivia ∧ c.readToken.2 = Cursor.pass (trivia ++ chars).length c ∧
    ((∃ l, SpellsOrEnds chars more l) ∨ IsRun Char.isDigit chars more ∧ maxDigits < chars.length ∧
      c.readToken.1 = .error (.tooManyDigits chars.length)) := by
  obtain ⟨trivia, rest, hc, ht, hrest⟩ := exists_trivia c.rest
  by_cases hne : rest = []
  · subst hne
    have hs : SpellsOrEnds [] [] .eof := .inr ⟨rfl, rfl, rfl⟩
    exact ⟨trivia, [], [], hc, ht, by rw [readToken_of_spellsOrEnds ht hs hc], .inl ⟨_, hs⟩⟩
  · rcases exists_spells hne hrest with ⟨chars, more, l, rfl, hs⟩ | ⟨digits, more, rfl, hrun, hlen⟩
    · exact ⟨trivia, chars, more, hc, ht, by rw [readToken_of_spellsOrEnds ht (.inl hs) hc], .inl ⟨l, .inl hs⟩⟩
    · have hne : digits ≠ [] := by
        rintro rfl
        cases hlen
      have hskip : c.skipTrivia = Cursor.pass trivia.length c := by
        rw [skipTrivia, hc, ht.length_eq (triviaLength_of_digits hrun hne)]
      have hbehind : (Cursor.pass trivia.length c).rest = digits ++ more := by rw [rest_pass, hc, List.drop_left]
      have hnumber : numberLexeme digits = .error (.tooManyDigits digits.length) := by simp [numberLexeme, hne, hlen]
      have hread := readLexeme_of_digits hrun hne hbehind
      refine ⟨trivia, digits, more, hc, ht, ?_, .inr ⟨hrun, hlen, ?_⟩⟩
      · rw [readToken, hskip, hread, List.length_append, pass_add]
      · rw [readToken, hskip, hread, hnumber]
        rfl

/-- The cursor before the call `n`, where the first one is 0 and those that fail are counted too. -/
def calls (text : String) (n : Nat) : Cursor := (fun c => c.readToken.2)^[n] (start text)

theorem calls_succ (text : String) (n : Nat) : calls text (n + 1) = (calls text n).readToken.2 :=
  Function.iterate_succ_apply' ..

/-- The call `n` returns `tok`, and from `index` on stand the characters of its lexeme. In front of them are blanks
and comments only. -/
structure TokenAt (text : String) (n : Nat) (tok : Token) (index : Nat) : Prop where
  returned : (calls text n).readToken.1 = .ok tok
  starts : ∃ trivia chars more, (calls text n).rest = trivia ++ (chars ++ more) ∧ Trivia (chars ++ more) trivia ∧
    SpellsOrEnds chars more tok.lexeme ∧ index = (calls text n).offset + trivia.length

variable {text : String} {m n index : Nat} {tok : Token}

theorem exists_tokenAt (h : (calls text n).readToken.1 = .ok tok) : ∃ index, TokenAt text n tok index := by
  obtain ⟨trivia, chars, more, hc, ht, -, ⟨l, hs⟩ | ⟨-, -, he⟩⟩ := readToken_cases (calls text n)
  · have hlexeme : tok.lexeme = l := by
      rw [readToken_of_spellsOrEnds ht hs hc] at h
      cases h
      rfl
    exact ⟨_, h, trivia, chars, more, hc, ht, hlexeme ▸ hs, rfl⟩
  · cases he.symm.trans h

/-! ## The whole text -/

/-- After any number of calls the cursor is `Behind` all characters before it. -/
theorem exists_behind_calls (text : String) (n : Nat) :
    ∃ before, text.toList = before ++ (calls text n).rest ∧ (calls text n).Behind before := by
  induction n with
  | zero => exact ⟨[], rfl, behind_start text⟩
  | succ n ih =>
    obtain ⟨before, htext, hbehind⟩ := ih
    obtain ⟨trivia, chars, more, hc, -, hread, -⟩ := readToken_cases (calls text n)
    rw [← List.append_assoc] at hc
    refine ⟨before ++ (trivia ++ chars), ?_, ?_⟩
    · simp [calls_succ, hread, htext, hc]
    · rw [calls_succ, hread]
      exact hbehind.pass hc

theorem offset_calls_le (h : m ≤ n) : (calls text m).offset ≤ (calls text n).offset := by
  induction n, h using Nat.le_induction with
  | base => exact Nat.le_refl _
  | succ n _ ih =>
    obtain ⟨trivia, chars, more, -, -, hread, -⟩ := readToken_cases (calls text n)
    rw [calls_succ, hread, offset_pass]
    omega

theorem TokenAt.lt_offset (h : TokenAt text n tok index) (hne : tok.lexeme ≠ .eof) :
    index < (calls text (n + 1)).offset := by
  obtain ⟨trivia, chars, more, hc, ht, hs, rfl⟩ := h.starts
  have hpos := List.length_pos_iff.2 (hs.ne_nil hne)
  rw [calls_succ, readToken_of_spellsOrEnds ht hs hc, offset_pass, List.length_append]
  omega

theorem TokenAt.offset_le (h : TokenAt text n tok index) : (calls text n).offset ≤ index := by
  obtain ⟨trivia, _, _, -, -, -, rfl⟩ := h.starts
  omega

/-- The line and the column of a token are those that the characters before its index give. -/
theorem TokenAt.position (h : TokenAt text n tok index) :
    tok.line = 1 + (text.toList.take index).count '\n' ∧
      tok.column = index - lineStart (text.toList.take index) + 1 := by
  obtain ⟨trivia, chars, more, hc, ht, hs, rfl⟩ := h.starts
  obtain ⟨before, htext, hbehind⟩ := exists_behind_calls text n
  have hfirst := hbehind.pass hc
  have htake : text.toList.take ((calls text n).offset + trivia.length) = before ++ trivia := by
    rw [htext, hc, hbehind.offset, ← List.append_assoc, ← List.length_append, List.take_left]
  have hindex : (calls text n).offset + trivia.length = (before ++ trivia).length := by
    rw [hbehind.offset, List.length_append]
  have htok := h.returned
  rw [readToken_of_spellsOrEnds ht hs hc] at htok
  rw [← Except.ok.inj htok, htake, hindex]
  exact ⟨hfirst.line, hfirst.column⟩

/-- No call leaves the cursor beyond `text`. Each token that is returned starts at an index (`TokenAt`), with the line
and the column of this index, and the indices grow from each token to all later ones until the text is over. -/
theorem positions_calls (text : String) :
    (∀ n, (calls text n).offset ≤ text.length ∧ (calls text n).rest = text.toList.drop (calls text n).offset) ∧
    (∀ n tok, (calls text n).readToken.1 = .ok tok → ∃ index, TokenAt text n tok index) ∧
    (∀ n tok index, TokenAt text n tok index →
      tok.line = 1 + (text.toList.take index).count '\n' ∧
      tok.column = index - lineStart (text.toList.take index) + 1) ∧
    ∀ m n tok tok' index index', m < n → TokenAt text m tok index → tok.lexeme ≠ .eof →
      TokenAt text n tok' index' → index < index' := by
  refine ⟨fun n => ?_, fun _ _ => exists_tokenAt, fun _ _ _ h => h.position, ?_⟩
  · obtain ⟨before, htext, hbehind⟩ := exists_behind_calls text n
    constructor
    · rw [hbehind.offset, ← String.length_toList, htext, List.length_append]
      omega
    · rw [hbehind.offset, htext, List.drop_left]
  · intro m n tok tok' index index' hmn h hne h'
    calc index < (calls text (m + 1)).offset := h.lt_offset hne
      _ ≤ (calls text n).offset := offset_calls_le hmn
      _ ≤ index' := h'.offset_le

/-- A string over two lines, a comment, and a name behind a tab. -/
def linesSource : String := "'a\nb' // c\n\td"

theorem positions_calls_lines : ∃ index index',
    TokenAt linesSource 0 ⟨.string "a\nb", 1, 1⟩ index ∧ TokenAt linesSource 1 ⟨.ident "d", 3, 2⟩ index' ∧
      index < index' ∧ 3 = 1 + (linesSource.toList.take index').count '\n' ∧
      2 = index' - lineStart (linesSource.toList.take index') + 1 := by
  obtain ⟨-, htokens, hposition, hgrow⟩ := positions_calls linesSource
  obtain ⟨index, h⟩ := htokens 0 ⟨.string "a\nb", 1, 1⟩ (by decide +kernel)
  obtain ⟨index', h'⟩ := htokens 1 ⟨.ident "d", 3, 2⟩ (by decide +kernel)
  exact ⟨index, index', h, h', hgrow 0 1 _ _ _ _ Nat.one_pos h (by simp) h', hposition 1 _ _ h'⟩

end Cursor

end HindiScript
