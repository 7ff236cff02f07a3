import HindiScript.Proofs.Token.Cutting

/-!
# Texts as tiles

A text that has tokens is laid out without gaps: blanks and comments, a lexeme, blanks and comments, and so on
(`Tiling`). What stands between lexemes is said without the scanner (`Trivia`), and so is what a lexeme is (`Spells`).
Main statement: the texts with such a layout are those that can be scanned, the scan gives its lexemes, and every call
of the scanner takes one of its pieces (`tokenize_eq_ok_iff_tiling`).
-/

namespace HindiScript

namespace Cursor

/-! ## Blanks and comments -/

/-- In front of `more`, these are blanks and comments. A comment goes from two slashes to the next line feed, or to
the end of the text, and the line feed is not part of it. -/
inductive Trivia (more : List Char) : List Char → Prop where
  | nil : Trivia more []
  | blank {ch cs} : Text.isBlank ch = true → Trivia more cs → Trivia more (ch :: cs)
  | comment {body cs} : '\n' ∉ body → (∀ ch ∈ (cs ++ more).head?, ch = '\n') → Trivia more cs →
    Trivia more ('/' :: '/' :: (body ++ cs))

variable {c : Cursor} {text more cs : List Char} {l : Lexeme}

/-- Where a line ends it does not matter whether a comment is open. -/
theorem triviaLength_true (h : ∀ ch ∈ cs.head?, ch = '\n') : triviaLength true cs = triviaLength false cs := by
  cases cs with
  | nil => rfl
  | cons ch cs =>
    obtain rfl := h ch rfl
    rfl

theorem triviaLength_body {body : List Char} (h : '\n' ∉ body) (cs : List Char) :
    triviaLength true (body ++ cs) = body.length + triviaLength true cs := by
  induction body with
  | nil => simp
  | cons ch body ih =>
    rw [List.mem_cons, not_or] at h
    have hopen : decide (ch ≠ '\n') = true := by simpa using Ne.symm h.1
    rw [List.cons_append, triviaLength, hopen, ih h.2, List.length_cons]
    omega

theorem triviaLength_comment {body : List Char} (h : '\n' ∉ body) (hcs : ∀ ch ∈ cs.head?, ch = '\n') :
    triviaLength false ('/' :: '/' :: (body ++ cs)) = body.length + triviaLength false cs + 2 := by
  have hslashes : triviaLength false ('/' :: '/' :: (body ++ cs)) = triviaLength true (body ++ cs) + 1 + 1 := rfl
  rw [hslashes, triviaLength_body h, triviaLength_true hcs]

/-- `Trivia` in front of a lexeme, or of the end of the text, are passed over. -/
theorem Trivia.length_eq {trivia : List Char} (h : Trivia more trivia) (hmore : triviaLength false more = 0) :
    triviaLength false (trivia ++ more) = trivia.length := by
  induction h with
  | nil => exact hmore
  | @blank ch cs hblank _ ih => simp [triviaLength, hblank, ih]
  | @comment body cs hbody hend _ ih =>
    have : '/' :: '/' :: (body ++ cs) ++ more = '/' :: '/' :: (body ++ (cs ++ more)) := by simp
    rw [this, triviaLength_comment hbody hend, ih]
    simp

theorem exists_trivia (cs : List Char) :
    ∃ trivia more, cs = trivia ++ more ∧ Trivia more trivia ∧ triviaLength false more = 0 := by
  match cs with
  | [] => exact ⟨[], [], rfl, .nil, rfl⟩
  | ch :: cs =>
    by_cases hblank : Text.isBlank ch = true
    · obtain ⟨trivia, more, rfl, htrivia, hmore⟩ := exists_trivia cs
      exact ⟨ch :: trivia, more, rfl, .blank hblank htrivia, hmore⟩
    · by_cases hcomment : ch = '/' ∧ cs.head? = some '/'
      · obtain ⟨rfl, hslash⟩ := hcomment
        obtain ⟨line, rfl⟩ := List.head?_eq_some_iff.1 hslash
        obtain ⟨body, rest, rfl, hrun⟩ := exists_isRun (· ≠ '\n') line
        obtain ⟨trivia, more, rfl, htrivia, hmore⟩ := exists_trivia rest
        refine ⟨'/' :: '/' :: (body ++ trivia), more, by simp, .comment ?_ ?_ htrivia, hmore⟩
        · intro hmem
          simpa using hrun.all _ hmem
        · intro ch hch
          simpa using hrun.stops ch hch
      · exact ⟨[], ch :: cs, rfl, .nil, triviaLength_cons_eq_zero_iff.2 ⟨by simpa using hblank, hcomment⟩⟩
termination_by cs.length

/-! ## Tilings -/

/-- What is passed over in front of a token, the characters of the token, and its lexeme. -/
structure Piece where
  trivia : List Char
  text : List Char
  lexeme : Lexeme

def Piece.chars (p : Piece) : List Char := p.trivia ++ p.text

/-- The text is laid out as pieces, with trivia behind the last. -/
inductive Tiling : List Char → List Piece → Prop where
  | last {trivia} : Trivia [] trivia → Tiling trivia []
  | piece {trivia text more lexeme pieces} : Trivia (text ++ more) trivia → Spells text more lexeme →
    Tiling more pieces → Tiling (trivia ++ text ++ more) (⟨trivia, text, lexeme⟩ :: pieces)

/-- The tokens of pieces, where the first piece starts at the cursor `c`. -/
def tokensOf (c : Cursor) : List Piece → List Token
  | [] => []
  | p :: pieces => (pass p.trivia.length c).tokenOf p.lexeme :: tokensOf (pass p.chars.length c) pieces

/-! ## Reading pieces -/

theorem readToken_of_piece {trivia : List Char} (ht : Trivia (text ++ more) trivia) (hs : Spells text more l)
    (hc : c.rest = trivia ++ text ++ more) :
    c.skipTrivia = pass trivia.length c ∧
      c.readToken = (.ok ((pass trivia.length c).tokenOf l), pass (trivia ++ text).length c) := by
  rw [List.append_assoc] at hc
  have hskip : c.skipTrivia = pass trivia.length c := by
    rw [skipTrivia, hc, ht.length_eq (triviaLength_of_spells hs)]
  have hrest : (pass trivia.length c).rest = text ++ more := by rw [rest_pass, hc, List.drop_left]
  refine ⟨hskip, ?_⟩
  rw [readToken, hskip, readLexeme_of_spells hs hrest, List.length_append, pass_add]

theorem readToken_of_last (h : Trivia [] c.rest) :
    c.readToken = (.ok ((pass c.rest.length c).tokenOf .eof), pass c.rest.length c) := by
  have hskip : c.skipTrivia = pass c.rest.length c := by
    have := h.length_eq rfl
    rw [List.append_nil] at this
    rw [skipTrivia, this]
  have hrest : (pass c.rest.length c).rest = [] := by rw [rest_pass, List.drop_length]
  rw [readToken, hskip, readLexeme, hrest]

/-- A number that is too long stops the scan. -/
theorem failure_of_digits {trivia digits : List Char} (ht : Trivia (digits ++ more) trivia)
    (hrun : IsRun Char.isDigit digits more) (hlen : maxDigits < digits.length)
    (hc : c.rest = trivia ++ (digits ++ more)) : c.scan.failure = some (.tooManyDigits digits.length) := by
  have hne : digits ≠ [] := by
    rintro rfl
    cases hlen
  have hskip : c.skipTrivia = pass trivia.length c := by
    rw [skipTrivia, hc, ht.length_eq (triviaLength_of_digits hrun hne)]
  have hrest : (pass trivia.length c).rest = digits ++ more := by rw [rest_pass, hc, List.drop_left]
  have hnumber : numberLexeme digits = .error (.tooManyDigits digits.length) := by simp [numberLexeme, hne, hlen]
  rw [scan_eq, readToken, hskip, readLexeme_of_digits hrun hne hrest, hnumber]
  rfl

theorem Spells.ne_nil (h : Spells text more l) : text ≠ [] := by
  rintro rfl
  cases l with
  | keyword word => obtain ⟨⟨-, _, ⟨⟩, -⟩, -⟩ := h
  | ident name => obtain ⟨⟨-, _, ⟨⟩, -⟩, -⟩ := h
  | number value => exact h.2.1 rfl
  | string value => obtain ⟨_, -, -, h | ⟨h, -⟩⟩ := h <;> cases h
  | op symbol => cases h.2
  | punct mark => cases h
  | unknown ch => cases h.1
  | eof => exact h

theorem Spells.ne_eof (h : Spells text more l) : l ≠ .eof := by
  rintro rfl
  exact h

/-- A name is written as itself, since the words that stand for others are no names. -/
theorem Spells.ofList_eq {name : String} (h : Spells text more (.ident name)) : String.ofList text = name := by
  obtain ⟨-, husual, hkeyword⟩ := h
  unfold usualSpelling at husual
  split at husual
  · exact absurd husual (hkeyword .lao)
  · split at husual
    · exact absurd husual (hkeyword .bol)
    · split at husual
      · exact absurd husual (hkeyword .nahitoh)
      · exact husual

/-! ## Scanning tilings -/

/-- `scan` gives the tokens of a tiling. -/
theorem Tiling.scan {pieces : List Piece} (h : Tiling cs pieces) :
    ∀ c : Cursor, c.rest = cs → c.scan.failure = none ∧ c.scan.tokens = tokensOf c pieces := by
  induction h with
  | last ht =>
    rintro c rfl
    rw [scan_eq, readToken_of_last ht]
    exact ⟨rfl, rfl⟩
  | @piece trivia text more lexeme pieces ht hs _ ih =>
    intro c hc
    obtain ⟨-, hread⟩ := readToken_of_piece ht hs hc
    obtain ⟨hfailure, htokens⟩ := ih (pass (trivia ++ text).length c) (by rw [rest_pass, hc, List.drop_left])
    rw [scan_eq, hread]
    simp only [tokenOf, hs.ne_eof, if_false, hfailure, htokens]
    exact ⟨trivial, rfl⟩

/-- A text that can be scanned has a tiling. -/
theorem exists_tiling (c : Cursor) (h : c.scan.failure = none) : ∃ pieces, Tiling c.rest pieces := by
  obtain ⟨trivia, rest, hc, ht, hrest⟩ := exists_trivia c.rest
  by_cases hne : rest = []
  · subst hne
    rw [List.append_nil] at hc
    exact ⟨[], hc ▸ .last ht⟩
  · rcases exists_spells hne hrest with ⟨text, more, l, rfl, hs⟩ | ⟨digits, more, rfl, hrun, hlen⟩
    · rw [← List.append_assoc] at hc
      obtain ⟨-, hread⟩ := readToken_of_piece ht hs hc
      have hbehind : (pass (trivia ++ text).length c).rest = more := by rw [rest_pass, hc, List.drop_left]
      have hshorter : (pass (trivia ++ text).length c).rest.length < c.rest.length := by
        have := List.length_pos_iff.2 hs.ne_nil
        rw [hbehind, hc, List.length_append, List.length_append]
        omega
      have hfailure : (pass (trivia ++ text).length c).scan.failure = none := by
        rw [scan_eq, hread] at h
        simpa [tokenOf, hs.ne_eof] using h
      obtain ⟨pieces, hpieces⟩ := exists_tiling _ hfailure
      rw [hbehind] at hpieces
      rw [hc]
      exact ⟨_, .piece ht hs hpieces⟩
    · rw [failure_of_digits ht hrun hlen hc] at h
      cases h
termination_by c.rest.length
decreasing_by exact hshorter

theorem tokenize_eq_ok_iff {text : String} {tokens : List Token} :
    tokenize text = .ok tokens ↔ (start text).scan.failure = none ∧ (start text).scan.tokens = tokens := by
  unfold tokenize
  dsimp only
  split
  next e he => simp [he]
  next hnone => simp [hnone]

/-- Where the pieces of `front` end, `p` starts. -/
theorem Tiling.split {front back : List Piece} {p : Piece} (h : Tiling cs (front ++ p :: back)) :
    ∃ more, cs = front.flatMap Piece.chars ++ (p.trivia ++ p.text ++ more) ∧ Trivia (p.text ++ more) p.trivia ∧
      Spells p.text more p.lexeme := by
  induction front generalizing cs with
  | nil =>
    cases h with
    | piece ht hs _ => exact ⟨_, rfl, ht, hs⟩
  | cons q front ih =>
    cases h with
    | piece _ _ h =>
      obtain ⟨more, rfl, ht, hs⟩ := ih h
      exact ⟨more, by simp [Piece.chars], ht, hs⟩

theorem Tiling.exists_last {pieces : List Piece} (h : Tiling cs pieces) :
    ∃ last, Trivia [] last ∧ cs = pieces.flatMap Piece.chars ++ last := by
  induction h with
  | @last trivia ht => exact ⟨trivia, ht, rfl⟩
  | piece _ _ _ ih =>
    obtain ⟨last, ht, rfl⟩ := ih
    exact ⟨last, ht, by simp [Piece.chars]⟩

theorem Tiling.spells_of_mem {pieces : List Piece} (h : Tiling cs pieces) {tok : Token} (ht : tok ∈ tokensOf c pieces) :
    ∃ text more, Spells text more tok.lexeme := by
  induction h generalizing c with
  | last => cases ht
  | piece _ hs _ ih =>
    rcases List.mem_cons.1 ht with rfl | ht
    · exact ⟨_, _, hs⟩
    · exact ih ht

/-- Every token of a text is written somewhere. -/
theorem exists_spells_of_tokenize {text : String} {tokens : List Token} (h : tokenize text = .ok tokens) {tok : Token}
    (ht : tok ∈ tokens) : ∃ cs more, Spells cs more tok.lexeme := by
  obtain ⟨hfailure, rfl⟩ := tokenize_eq_ok_iff.1 h
  obtain ⟨pieces, hpieces⟩ := exists_tiling _ hfailure
  rw [(hpieces.scan _ rfl).2] at ht
  exact hpieces.spells_of_mem ht

/-- `tokenize` gives the tokens of a `Tiling`, and it gives tokens if and only if there is a tiling. A tiling leaves
out no character, and each call of `readToken` passes over the trivia of one piece and takes the characters of its
token. -/
theorem tokenize_eq_ok_iff_tiling (text : String) :
    (∀ tokens, tokenize text = .ok tokens ↔
      ∃ pieces, Tiling text.toList pieces ∧ tokensOf (start text) pieces = tokens) ∧
    ∀ pieces, Tiling text.toList pieces →
      (∃ last, Trivia [] last ∧ text.toList = pieces.flatMap Piece.chars ++ last) ∧
      ∀ front p back, pieces = front ++ p :: back →
        let c := pass (front.flatMap Piece.chars).length (start text)
        c.skipTrivia = pass p.trivia.length c ∧
        c.readToken = (.ok ((pass p.trivia.length c).tokenOf p.lexeme), pass p.chars.length c) := by
  refine ⟨fun tokens => ?_, fun pieces h => ⟨h.exists_last, ?_⟩⟩
  · rw [tokenize_eq_ok_iff]
    constructor
    · rintro ⟨hfailure, rfl⟩
      obtain ⟨pieces, h⟩ := exists_tiling _ hfailure
      exact ⟨pieces, h, (h.scan _ rfl).2.symm⟩
    · rintro ⟨pieces, h, rfl⟩
      exact h.scan _ rfl
  · rintro front p back rfl
    obtain ⟨more, hc, ht, hs⟩ := h.split
    refine readToken_of_piece ht hs ?_
    rw [rest_pass, start, hc, List.drop_left]

end Cursor

end HindiScript
