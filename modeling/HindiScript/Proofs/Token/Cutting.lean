import HindiScript.Proofs.Token.Spelling

/-!
# Cutting a text token by token

Where a token stands does not change what it is, so the tokens of a text are found piece by piece: `Lexes`
says which tokens a text is cut into, wherever it stands, and there is a lemma for each kind of token in front
of a text whose tokens are known. A word and a number go on as long as they can, so these two ask that the text
behind them does not carry them on (`Boundary`).
-/

namespace HindiScript

namespace Cursor

variable {c c' : Cursor} {l : Lexeme} {cs more : List Char} {ls : List Lexeme}

/-! ## Scanning -/

/-- `scan` is `readToken` and `scan` again. -/
theorem scan_eq (c : Cursor) :
    c.scan = match c.readToken with
      | (.error e, c') => ⟨[], some e, c'⟩
      | (.ok tok, c') =>
        if tok.lexeme = .eof then ⟨[], none, c'⟩ else { c'.scan with tokens := tok :: c'.scan.tokens } := by
  rw [scan]
  split
  next e c' h => rw [h]
  next tok c' h =>
    rw [h]
    split
    next hne => simp [hne]
    next hne => simp [hne]

theorem scan_congr {d : Cursor} (h : c.readToken = d.readToken) : c.scan = d.scan := by
  rw [scan_eq, scan_eq d, h]

/-- `cs` is cut into the tokens `ls`, wherever it stands. -/
def Lexes (cs : List Char) (ls : List Lexeme) : Prop :=
  ∀ c : Cursor, c.rest = cs → c.scan.failure = none ∧ c.scan.tokens.map (·.lexeme) = ls

/-- `cs` starts with the token `l`, and `more` is left behind it. -/
def Starts (cs : List Char) (l : Lexeme) (more : List Char) : Prop :=
  ∀ c : Cursor, c.rest = cs → ∃ c', c.readToken = (.ok (c.tokenOf l), c') ∧ c'.rest = more

theorem lexes_nil : Lexes [] [] := by
  intro c hc
  have hr : c.readToken = (.ok (c.tokenOf .eof), c) := by
    simp [readToken, skipTrivia, hc, triviaLength, readLexeme]
  rw [scan_eq, hr]
  exact ⟨rfl, rfl⟩

theorem Starts.lexes (h : Starts cs l more) (hl : l ≠ .eof) (hm : Lexes more ls) : Lexes cs (l :: ls) := by
  intro c hc
  obtain ⟨c', hr, hc'⟩ := h c hc
  obtain ⟨hf, ht⟩ := hm c' hc'
  rw [scan_eq, hr]
  simp [tokenOf, hl, hf, ht]

theorem Lexes.blank (hm : Lexes more ls) : Lexes (' ' :: more) ls := by
  intro c hc
  have hblank : triviaLength false (' ' :: more) = triviaLength false more + 1 := rfl
  have hskip : c.skipTrivia = c.next.skipTrivia := by
    rw [skipTrivia, hc, hblank, pass_succ, skipTrivia, rest_next, hc, List.tail_cons]
  rw [scan_congr (d := c.next) (by rw [readToken, readToken, hskip])]
  exact hm c.next (by rw [rest_next, hc, List.tail_cons])

/-! ## Single tokens -/

/-- `readToken` starts at a character that is neither blank nor the start of a comment. -/
theorem readToken_of_not_trivia (h : triviaLength false c.rest = 0) : c.readToken = c.readLexeme := by
  rw [readToken, skipTrivia, h, pass_zero]

theorem starts_of_spells (h : Spells cs more l) : Starts (cs ++ more) l more := by
  intro c hc
  have htrivia : triviaLength false c.rest = 0 := by
    rw [hc]
    exact triviaLength_of_spells h
  refine ⟨pass cs.length c, ?_, by rw [rest_pass, hc, List.drop_left]⟩
  rw [readToken_of_not_trivia htrivia, readLexeme_of_spells h hc]

theorem starts_punct (mark : Punct) (more : List Char) : Starts (mark.char :: more) (.punct mark) more := by
  have h : Spells [mark.char] more (.punct mark) := rfl
  exact starts_of_spells h

/-- The text does not carry on a word or a number. -/
def Boundary (cs : List Char) : Prop := ∀ ch ∈ cs.head?, isWordChar ch = false

theorem Boundary.cons {ch : Char} (h : isWordChar ch = false) (cs : List Char) : Boundary (ch :: cs) := by
  rintro _ ⟨⟩
  exact h

theorem Boundary.nil : Boundary [] := by
  rintro _ ⟨⟩

theorem starts_word {ch : Char} (hfirst : (Text.isLetter ch || ch = '_') = true)
    (hcs : ∀ ch ∈ cs, isWordChar ch = true) (hb : Boundary more) :
    Starts (ch :: cs ++ more) (wordLexeme (String.ofList (ch :: cs))) more := by
  have hrun : IsRun isWordChar cs more := ⟨hcs, hb⟩
  exact starts_of_spells (spells_wordLexeme ⟨hrun.cons (isWordChar_of_start hfirst), ch, rfl, hfirst⟩)

theorem spells_number {n : Nat} (hn : (Nat.toDigits 10 n).length ≤ maxDigits) (hb : Boundary more) :
    Spells (Nat.toDigits 10 n) more (.number n) := by
  have hdigits : ∀ ch ∈ Nat.toDigits 10 n, ch.isDigit = true := fun ch hch =>
    Nat.isDigit_of_mem_toDigits (by decide) (by decide) hch
  have hstops : ∀ ch ∈ more.head?, ch.isDigit = false := by
    intro ch hch
    by_contra hdigit
    have hnumeric := Text.isNumeric_of_isDigit (Bool.not_eq_false _ ▸ hdigit)
    simpa [isWordChar, hnumeric] using hb ch hch
  exact ⟨⟨hdigits, hstops⟩, Nat.toDigits_ne_nil, hn, Nat.ofDigitChars_toDigits (by decide) (by decide)⟩

theorem starts_number {n : Nat} (hn : (Nat.toDigits 10 n).length ≤ maxDigits) (hb : Boundary more) :
    Starts (Nat.toDigits 10 n ++ more) (.number n) more :=
  starts_of_spells (spells_number hn hb)

theorem starts_string {text : List Char} (ht : ∀ ch ∈ text, ch ≠ '\x22') (more : List Char) :
    Starts ('\x22' :: text ++ '\x22' :: more) (.string (String.ofList text)) more := by
  have hspells : Spells ('\x22' :: text ++ ['\x22']) more (.string (String.ofList text)) := by
    refine ⟨'\x22', rfl, ?_, .inl (by rw [String.toList_ofList])⟩
    rw [String.toList_ofList]
    exact fun h => ht _ h rfl
  have := starts_of_spells hspells
  rwa [List.append_assoc] at this

theorem starts_operator₁ {first : Char} (hf : isOperatorChar first = true) (hs : ' ' ∉ secondOf first)
    (more : List Char) : Starts (first :: ' ' :: more) (.op (String.singleton first)) (' ' :: more) := by
  have hop : IsOperator [first] (' ' :: more) := .one hf (by rintro _ ⟨⟩; exact hs) (by simp)
  have hspells : Spells [first] (' ' :: more) (.op (String.singleton first)) := ⟨by simp, hop⟩
  exact starts_of_spells hspells

theorem starts_operator₂ {first second : Char} (hs : second ∈ secondOf first) (more : List Char) :
    Starts (first :: second :: more) (.op (String.ofList [first, second])) more := by
  have hspells : Spells [first, second] more (.op (String.ofList [first, second])) :=
    ⟨String.toList_ofList.symm, .two hs⟩
  exact starts_of_spells hspells

/-- The operators of one character that stand in expressions. -/
def shortOperators : List String := [">", "<", "+", "-", "*", "/", "%", "="]

/-- The operators of two characters that stand in expressions. -/
def longOperators : List String := ["||", "&&", "==", "!=", ">=", "<=", "=>"]

theorem starts_operator {symbol : String} (h : symbol ∈ shortOperators ++ longOperators) (more : List Char) :
    Starts (symbol.toList ++ ' ' :: more) (.op symbol) (' ' :: more) := by
  rcases List.mem_append.1 h with h | h
  · simp only [shortOperators, List.mem_cons, List.not_mem_nil, or_false] at h
    rcases h with rfl | rfl | rfl | rfl | rfl | rfl | rfl | rfl <;>
      exact starts_operator₁ rfl (by decide) more
  · simp only [longOperators, List.mem_cons, List.not_mem_nil, or_false] at h
    rcases h with rfl | rfl | rfl | rfl | rfl | rfl | rfl <;>
      exact starts_operator₂ (by decide) (' ' :: more)

/-! ## Texts in front of others -/

/-- `cs` is cut into the tokens `ls` in front of every text that does not carry it on. -/
def Cuts (cs : List Char) (ls : List Lexeme) : Prop :=
  ∀ more ms, Boundary more → Lexes more ms → Lexes (cs ++ more) (ls ++ ms)

theorem Cuts.lexes (h : Cuts cs ls) : Lexes cs ls := by
  have := h [] [] .nil lexes_nil
  rwa [List.append_nil, List.append_nil] at this

theorem cuts_nil : Cuts [] [] := fun _ _ _ hm => hm

/-- The character `ch` between two texts keeps them apart. -/
theorem Cuts.append {ch : Char} {cs' : List Char} {ls' : List Lexeme} (h : Cuts cs ls) (h' : Cuts (ch :: cs') ls')
    (hch : isWordChar ch = false) : Cuts (cs ++ ch :: cs') (ls ++ ls') := by
  intro more ms hb hm
  rw [List.append_assoc, List.append_assoc]
  exact h _ _ (.cons hch _) (h' more ms hb hm)

theorem Cuts.punct (mark : Punct) (h : Cuts cs ls) : Cuts (mark.char :: cs) (.punct mark :: ls) :=
  fun more ms hb hm => (starts_punct mark _).lexes (by simp) (h more ms hb hm)

theorem Cuts.blank (h : Cuts cs ls) : Cuts (' ' :: cs) ls :=
  fun more ms hb hm => (h more ms hb hm).blank

theorem Cuts.operator {symbol : String} (hs : symbol ∈ shortOperators ++ longOperators) (h : Cuts cs ls) :
    Cuts (symbol.toList ++ ' ' :: cs) (.op symbol :: ls) := by
  intro more ms hb hm
  rw [List.append_assoc]
  exact (starts_operator hs _).lexes (by simp) (h.blank more ms hb hm)

theorem cuts_number {n : Nat} (hn : (Nat.toDigits 10 n).length ≤ maxDigits) :
    Cuts (Nat.toDigits 10 n) [.number n] :=
  fun _ _ hb hm => (starts_number hn hb).lexes (by simp) hm

theorem cuts_string {text : List Char} (ht : ∀ ch ∈ text, ch ≠ '\x22') :
    Cuts ('\x22' :: text ++ ['\x22']) [.string (String.ofList text)] := by
  intro more ms _ hm
  rw [List.append_assoc]
  exact (starts_string ht more).lexes (by simp) hm

/-- The word is read as a name. -/
def isName (word : String) : Bool :=
  match word.toList with
  | [] => false
  | ch :: cs => (Text.isLetter ch || ch = '_') && cs.all isWordChar && wordLexeme word = .ident word

theorem exists_cons_of_isName {name : String} (h : isName name = true) :
    ∃ ch cs, name.toList = ch :: cs ∧ (Text.isLetter ch || ch = '_') = true ∧ ∀ c ∈ cs, isWordChar c = true := by
  unfold isName at h
  split at h
  · cases h
  · next ch cs htext =>
    simp only [Bool.and_eq_true, List.all_eq_true] at h
    exact ⟨ch, cs, htext, h.1⟩

theorem isWordChar_of_mem_name {name : String} (h : isName name = true) {c : Char} (hc : c ∈ name.toList) :
    isWordChar c = true := by
  obtain ⟨ch, cs, htext, hstart, hcs⟩ := exists_cons_of_isName h
  rw [htext] at hc
  rcases List.mem_cons.1 hc with rfl | hc
  · rcases Bool.or_eq_true_iff.1 hstart with hletter | hline
    · simp [isWordChar, hletter]
    · simp [isWordChar, of_decide_eq_true hline]
  · exact hcs c hc

theorem cuts_name {name : String} (h : isName name = true) : Cuts name.toList [.ident name] := by
  intro more ms hb hm
  unfold isName at h
  split at h
  · cases h
  next ch cs hcs =>
    simp only [Bool.and_eq_true, List.all_eq_true, decide_eq_true_eq] at h
    obtain ⟨⟨hfirst, hrest⟩, hword⟩ := h
    have hs := starts_word hfirst hrest hb
    rw [← hcs, String.ofList_toList, hword] at hs
    exact hs.lexes (by simp) hm

end Cursor

end HindiScript
