import HindiScript.Token.Cursor

/-!
# Cutting source text into tokens

`Cursor.readToken` reads the next token and `Cursor.scan` all of them. Main statement:
`Cursor.readToken_shorter`, every token but the end of the text takes at least one character.
-/

namespace HindiScript

namespace Cursor

/-- The characters that start an operator. -/
def isOperatorChar (c : Char) : Bool :=
  c ∈ ['+', '-', '*', '/', '%', '=', '<', '>', '!', '&', '|']

/-- The two quotes that a string may be written in. -/
def isQuote (c : Char) : Bool := c = '\x22' || c = '\x27'

/-- The token at the cursor, where no blank and no comment stands. -/
def readLexeme (c : Cursor) : Except ReadError Token × Cursor :=
  match c.rest with
  | [] => (.ok (c.tokenOf .eof), c)
  | ch :: _ =>
    if Text.isLetter ch || ch = '_' then ((.ok c.readWord.1), c.readWord.2)
    else if ch.isDigit then c.readNumber
    else if isQuote ch then ((.ok c.readString.1), c.readString.2)
    else if isOperatorChar ch then ((.ok c.readOperator.1), c.readOperator.2)
    else match Punct.ofChar? ch with
      | some mark => (.ok (c.tokenOf (.punct mark)), c.next)
      | none => (.ok (c.tokenOf (.unknown ch)), c.next)

/-- The next token. At the end of the text it is `eof`, which takes nothing. -/
def readToken (c : Cursor) : Except ReadError Token × Cursor := c.skipTrivia.readLexeme

/-- A character that starts a word continues one too. -/
theorem isWordChar_of_start {ch : Char} (h : (Text.isLetter ch || ch = '_') = true) :
    isWordChar ch = true := by
  simp only [isWordChar, Bool.or_eq_true] at *
  grind

theorem length_pass_le (n : Nat) (c : Cursor) : (pass n c).rest.length ≤ c.rest.length := by
  simp

/-- A run that starts at the cursor takes at least one character. -/
theorem length_passRun_lt {p : Char → Bool} {c : Cursor} {ch : Char} {rest : List Char}
    (h : c.rest = ch :: rest) (hp : p ch = true) : (c.passRun p).rest.length < c.rest.length := by
  have hr : c.run p = ch :: rest.takeWhile p := by simp [run, h, hp]
  rw [passRun, rest_pass, List.length_drop, hr, h, List.length_cons, List.length_cons]
  omega

theorem length_passRun_le (p : Char → Bool) (c : Cursor) :
    (c.passRun p).rest.length ≤ c.rest.length := by
  simp [passRun]

theorem length_next_lt {c : Cursor} {ch : Char} {rest : List Char} (h : c.rest = ch :: rest) :
    c.next.rest.length < c.rest.length := by
  simp [h]

theorem length_readString_lt {c : Cursor} {ch : Char} {rest : List Char} (h : c.rest = ch :: rest) :
    c.readString.2.rest.length < c.rest.length := by
  have h1 := length_next_lt h
  have h2 := length_passRun_le (fun ch => decide (some ch ≠ c.current?)) c.next
  simp only [readString]
  split
  · simp only [rest_next, List.length_tail]
    omega
  · omega

theorem length_readOperator_lt {c : Cursor} {ch : Char} {rest : List Char}
    (h : c.rest = ch :: rest) : c.readOperator.2.rest.length < c.rest.length := by
  have h1 := length_next_lt h
  simp only [readOperator]
  split
  · exact h1
  · exact h1
  · split
    · simp only [rest_next, List.length_tail] at *
      omega
    · exact h1

theorem readLexeme_shorter {c c' : Cursor} {tok : Token} (h : c.readLexeme = (.ok tok, c'))
    (hne : tok.lexeme ≠ .eof) : c'.rest.length < c.rest.length := by
  unfold readLexeme at h
  split at h
  · cases h
    exact absurd rfl hne
  · rename_i ch rest hrest
    split at h
    · rename_i hl
      cases h
      exact length_passRun_lt hrest (isWordChar_of_start hl)
    · split at h
      · rename_i hd
        have : c' = c.passRun Char.isDigit := by
          simp only [readNumber, Prod.mk.injEq] at h
          exact h.2.symm
        rw [this]
        exact length_passRun_lt hrest hd
      · split at h
        · cases h
          exact length_readString_lt hrest
        · split at h
          · cases h
            exact length_readOperator_lt hrest
          · split at h <;> cases h <;> exact length_next_lt hrest

/-- Every token but `eof` takes at least one character. -/
theorem readToken_shorter {c c' : Cursor} {tok : Token} (h : c.readToken = (.ok tok, c'))
    (hne : tok.lexeme ≠ .eof) : c'.rest.length < c.rest.length := by
  have h1 := readLexeme_shorter h hne
  have h2 := length_pass_le (triviaLength false c.rest) c
  simp only [skipTrivia] at h1
  omega

/-- What scanning a text gives: its `tokens`, why it stopped before the end, if it did (`failure`), and where
(`stop`). -/
structure Scan where
  tokens : List Token
  failure : Option ReadError
  stop : Cursor
  deriving DecidableEq, Repr

/-- The tokens from the cursor on, without `eof`. -/
def scan (c : Cursor) : Scan :=
  match _h : c.readToken with
  | (.error e, c') => ⟨[], some e, c'⟩
  | (.ok tok, c') =>
    if _hne : tok.lexeme = .eof then ⟨[], none, c'⟩
    else
      let later := scan c'
      { later with tokens := tok :: later.tokens }
termination_by c.rest.length
decreasing_by exact readToken_shorter _h _hne

end Cursor

/-- The tokens of a text, or why it has none. -/
def tokenize (text : String) : Except Cursor.ReadError (List Token) :=
  let scan := (Cursor.start text).scan
  match scan.failure with
  | some e => .error e
  | none => .ok scan.tokens

end HindiScript
