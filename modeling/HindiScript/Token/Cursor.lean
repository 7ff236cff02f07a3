import HindiScript.Token.Basic
import HindiScript.Text.Blank
import HindiScript.Text.Letter
import HindiScript.Text.Mark
import HindiScript.Text.Numeric

/-!
# A place in source text

A cursor holds the text still to be read and where it starts. Reading a token moves it on, one
character at a time, so that lines and columns are counted in one place (`Cursor.next`). Each reader
can be applied anywhere; `Scan` decides where each one is.
-/

namespace HindiScript

/-- A place in source text: what is still to be read (`rest`), the number of characters before it (`offset`), and its
line and column. -/
structure Cursor where
  rest : List Char
  offset : Nat := 0
  line : Nat := 1
  column : Nat := 1
  deriving DecidableEq, Repr

namespace Cursor

def start (text : String) : Cursor := { rest := text.toList }

def current? (c : Cursor) : Option Char := c.rest.head?

/-- The character after `current?`. -/
def peek? (c : Cursor) : Option Char := c.rest.tail.head?

/-- One character on. A line feed starts a new line; beyond the end of the text the columns go on. -/
def next (c : Cursor) : Cursor where
  rest := c.rest.tail
  offset := c.offset + 1
  line := if c.current? = some '\n' then c.line + 1 else c.line
  column := if c.current? = some '\n' then 1 else c.column + 1

def pass : Nat → Cursor → Cursor
  | 0, c => c
  | n + 1, c => pass n c.next

@[simp] theorem pass_zero (c : Cursor) : pass 0 c = c := rfl

@[simp] theorem pass_succ (n : Nat) (c : Cursor) : pass (n + 1) c = pass n c.next := rfl

@[simp] theorem rest_next (c : Cursor) : c.next.rest = c.rest.tail := rfl

@[simp] theorem rest_pass (n : Nat) (c : Cursor) : (pass n c).rest = c.rest.drop n := by
  induction n generalizing c with
  | zero => simp
  | succ n ih => simp [ih, List.drop_tail]

/-- The characters at the cursor with the property `p`, up to the first without it. -/
def run (p : Char → Bool) (c : Cursor) : List Char := c.rest.takeWhile p

/-- The place behind `run p`. -/
def passRun (p : Char → Bool) (c : Cursor) : Cursor := pass (c.run p).length c

/-! ## Blanks and comments -/

/-- Behind the blanks at the cursor. -/
def skipBlanks (c : Cursor) : Cursor := c.passRun Text.isBlank

/-- Behind the line at the cursor, before its line feed. -/
def skipLine (c : Cursor) : Cursor := c.passRun (· ≠ '\n')

/-- The number of characters that belong to no token: blanks, and comments from two slashes to the end of the line.
The first argument tells whether a comment is open. -/
def triviaLength : Bool → List Char → Nat
  | _, [] => 0
  | true, c :: rest => triviaLength (c ≠ '\n') rest + 1
  | false, c :: rest =>
    if Text.isBlank c then triviaLength false rest + 1
    else if c = '/' && rest.head? = some '/' then triviaLength true rest + 1
    else 0

/-- Behind the blanks and comments at the cursor, which are `triviaLength` characters. -/
def skipTrivia (c : Cursor) : Cursor := pass (triviaLength false c.rest) c

/-! ## Readers -/

/-- Why a token cannot be read. -/
inductive ReadError where
  /-- A number was asked for where no digit stands. -/
  | noDigits
  /-- A number has more digits than are allowed. -/
  | tooManyDigits (count : Nat)
  deriving DecidableEq, Repr

/-- The most digits that a number may have, leading zeros included. -/
def maxDigits : Nat := 4300

/-- What is reported for a number that cannot be read. -/
def ReadError.message : ReadError → String
  | noDigits => "invalid literal for int() with base 10: ''"
  | tooManyDigits count =>
    "Exceeds the limit (" ++ toString maxDigits ++ " digits) for integer string conversion: value has "
      ++ toString count ++ " digits; use sys.set_int_max_str_digits() to increase the limit"

/-- A character that continues a word: a letter or number of any script, an underscore, or a
combining mark. -/
def isWordChar (c : Char) : Bool :=
  Text.isLetter c || Text.isNumeric c || c = '_' || Text.isMark c

/-- `word` is a keyword in one of its spellings, or else a name. -/
def wordLexeme (word : String) : Lexeme :=
  let usual := usualSpelling word
  match Keyword.ofSpelling? usual with
  | some keyword => .keyword keyword
  | none => .ident usual

def digitsValue (digits : List Char) : Nat :=
  digits.foldl (fun n d => 10 * n + (d.toNat - '0'.toNat)) 0

/-- The number that `digits` write, if they are at most `maxDigits`. -/
def numberLexeme (digits : List Char) : Except ReadError Lexeme :=
  if digits.isEmpty then .error .noDigits
  else if maxDigits < digits.length then .error (.tooManyDigits digits.length)
  else .ok (.number (digitsValue digits))

/-- The characters that may follow an operator character to make an operator of two. -/
def secondOf : Char → List Char
  | '>' => ['=']
  | '<' => ['=']
  | '=' => ['=', '>']
  | '!' => ['=']
  | '&' => ['&']
  | '|' => ['|']
  | _ => []

/-- The token that `lexeme` is at the cursor. -/
def tokenOf (c : Cursor) (lexeme : Lexeme) : Token := ⟨lexeme, c.line, c.column⟩

/-- The word at the cursor, which may be empty. -/
def readWord (c : Cursor) : Token × Cursor :=
  (c.tokenOf (wordLexeme (String.ofList (c.run isWordChar))), c.passRun isWordChar)

/-- The number at the cursor. Its digits are passed even if `numberLexeme` refuses them. -/
def readNumber (c : Cursor) : Except ReadError Token × Cursor :=
  ((numberLexeme (c.run Char.isDigit)).map c.tokenOf, c.passRun Char.isDigit)

/-- The string at the cursor: the character there is its quote, and nothing is escaped. A string
without a second quote goes on to the end of the text. -/
def readString (c : Cursor) : Token × Cursor :=
  let quote := c.current?
  let inner := c.next
  let close := inner.passRun fun ch => some ch ≠ quote
  (c.tokenOf (.string (String.ofList (inner.run fun ch => some ch ≠ quote))),
    if close.current? = quote then close.next else close)

/-- The operator at the cursor: the character there, and the next one if it is in `secondOf`. -/
def readOperator (c : Cursor) : Token × Cursor :=
  match c.current?, c.peek? with
  | none, _ => (c.tokenOf (.op ""), c.next)
  | some first, none => (c.tokenOf (.op (String.singleton first)), c.next)
  | some first, some second =>
    if second ∈ secondOf first then (c.tokenOf (.op (String.ofList [first, second])), c.next.next)
    else (c.tokenOf (.op (String.singleton first)), c.next)

end Cursor

end HindiScript
