import HindiScript.Text.Quoted

/-!
# Tokens

The vocabulary of the language: keywords, punctuation, and the tokens that source text is cut into.
-/

namespace HindiScript

/-! ## Keywords -/

/-- The reserved words. -/
inductive Keyword where
  /-- Declares a variable. -/
  | ye
  /-- Declares a constant. -/
  | sthayi
  /-- Prints a value. -/
  | bol
  /-- Starts a condition. -/
  | agar
  /-- Starts a further condition. -/
  | nahitoh
  /-- Starts what is done when no condition holds. -/
  | warna
  /-- Repeats while a condition holds. -/
  | lagataar
  /-- Repeats with a counter. -/
  | jabtak
  /-- Returns from a function. -/
  | wapas
  /-- Leaves a loop. -/
  | ruk
  /-- Goes on with the next turn of a loop. -/
  | chhod
  /-- Declares a function. -/
  | karya
  /-- Makes a function asynchronous. -/
  | aasynk
  /-- Waits for a value. -/
  | pratiksha
  /-- Fetches a resource. -/
  | lao
  /-- Imports a module. -/
  | aayaat
  /-- Exports a name. -/
  | niryaat
  /-- Stands before the source of an import. -/
  | se
  deriving DecidableEq, Repr

namespace Keyword

def all : List Keyword :=
  [ye, sthayi, bol, agar, nahitoh, warna, lagataar, jabtak, wapas, ruk, chhod, karya, aasynk,
    pratiksha, lao, aayaat, niryaat, se]

def spelling : Keyword → String
  | ye => "ye"
  | sthayi => "sthayi"
  | bol => "bol"
  | agar => "agar"
  | nahitoh => "nahitoh"
  | warna => "warna"
  | lagataar => "lagataar"
  | jabtak => "jabtak"
  | wapas => "wapas"
  | ruk => "ruk"
  | chhod => "chhod"
  | karya => "karya"
  | aasynk => "aasynk"
  | pratiksha => "pratiksha"
  | lao => "lao"
  | aayaat => "aayaat"
  | niryaat => "niryaat"
  | se => "se"

/-- The keyword of this `spelling`. -/
def ofSpelling? (word : String) : Option Keyword := all.find? (·.spelling = word)

theorem ofSpelling?_spelling (k : Keyword) : ofSpelling? k.spelling = some k := by
  cases k <;> decide

theorem ofSpelling?_eq_some {word : String} {k : Keyword} (h : ofSpelling? word = some k) :
    k.spelling = word := by
  simpa using List.find?_some h

end Keyword

/-- The usual spelling of a word: three keywords have a second spelling, every other word has one. -/
def usualSpelling (word : String) : String :=
  if word = "mangao" then "lao"
  else if word = "bolo" then "bol"
  else if word = "nahito" then "nahitoh"
  else word

/-! ## Punctuation -/

/-- The punctuation marks. -/
inductive Punct where
  | parenOpen
  | parenClose
  | braceOpen
  | braceClose
  | semicolon
  | comma
  | dot
  deriving DecidableEq, Repr

namespace Punct

def all : List Punct := [parenOpen, parenClose, braceOpen, braceClose, semicolon, comma, dot]

def char : Punct → Char
  | parenOpen => '('
  | parenClose => ')'
  | braceOpen => '\x7b'
  | braceClose => '\x7d'
  | semicolon => ';'
  | comma => ','
  | dot => '.'

def ofChar? (c : Char) : Option Punct := all.find? (·.char = c)

theorem ofChar?_char (p : Punct) : ofChar? p.char = some p := by cases p <;> decide

theorem ofChar?_eq_some {c : Char} {p : Punct} (h : ofChar? c = some p) : p.char = c := by
  simpa using List.find?_some h

end Punct

/-! ## Tokens -/

/-- What a token is, apart from where it stands. -/
inductive Lexeme where
  | keyword (word : Keyword)
  /-- A word that is no keyword. -/
  | ident (name : String)
  /-- A run of decimal digits, by its value. -/
  | number (value : Nat)
  /-- The text between two quotes. -/
  | string (text : String)
  /-- An operator of one or two characters; one that is asked for at the end of the text has none. -/
  | op (symbol : String)
  | punct (mark : Punct)
  /-- A character that starts no token. -/
  | unknown (char : Char)
  /-- The end of the text. -/
  | eof
  deriving DecidableEq, Repr

/-- A token and the line and column, both counted from one, at which it starts. -/
structure Token where
  lexeme : Lexeme
  line : Nat
  column : Nat
  deriving DecidableEq, Repr

namespace Lexeme

def kind : Lexeme → String
  | keyword _ => "KEYWORD"
  | ident _ => "IDENT"
  | number _ => "NUMBER"
  | string _ => "STRING"
  | op _ => "OP"
  | punct _ => "PUNCT"
  | unknown _ => "UNKNOWN"
  | eof => "EOF"

/-- The text of every token but a number, where it has one. -/
def text? : Lexeme → Option String
  | keyword word => some word.spelling
  | ident name => some name
  | number _ => none
  | string text => some text
  | op symbol => if symbol = "" then none else some symbol
  | punct mark => some (String.singleton mark.char)
  | unknown char => some (String.singleton char)
  | eof => none

/-- How a token is listed: its `kind`, with its value in parentheses. -/
def display (l : Lexeme) : String :=
  match l with
  | number value => l.kind ++ "(" ++ toString value ++ ")"
  | _ =>
    match l.text? with
    | some text => l.kind ++ "(" ++ Text.quoted text ++ ")"
    | none => l.kind

end Lexeme

namespace Token

/-- The token is of the `kind` and, if a `text` is given, has that text. -/
def fits (tok : Token) (kind : String) (text : Option String) : Bool :=
  tok.lexeme.kind = kind && (text.isNone || tok.lexeme.text? = text)

def display (tok : Token) : String := tok.lexeme.display

end Token

end HindiScript
