import HindiScript.Text.Unprintable

/-!
# Texts displayed in quotes

How a text is shown to a person in a token listing or a message: in single quotes, unless it holds
one and no double quote, with an escape for every character that cannot be printed as it is.
-/

namespace HindiScript.Text

/-- `n` in lower-case hexadecimal digits, with leading zeros up to `width`. -/
def hex (width n : Nat) : List Char :=
  let digits := Nat.toDigits 16 n
  List.replicate (width - digits.length) '0' ++ digits

/-- The quote that `cs` is displayed in: a single one, unless `cs` holds one and no double one. -/
def quoteOf (cs : List Char) : Char :=
  if cs.contains '\x27' && !cs.contains '\x22' then '\x22' else '\x27'

/-- The character `c` inside quotes `quote`. -/
def displayChar (quote c : Char) : List Char :=
  if c = quote || c = '\\' then ['\\', c]
  else if c = '\t' then ['\\', 't']
  else if c = '\n' then ['\\', 'n']
  else if c = '\r' then ['\\', 'r']
  else if !isUnprintable c then [c]
  else if c.toNat ≤ 0xFF then ['\\', 'x'] ++ hex 2 c.toNat
  else if c.toNat ≤ 0xFFFF then ['\\', 'u'] ++ hex 4 c.toNat
  else ['\\', 'U'] ++ hex 8 c.toNat

/-- `s` in the quotes of `quoteOf`. -/
def quoted (s : String) : String :=
  let quote := quoteOf s.toList
  String.ofList (quote :: s.toList.flatMap (displayChar quote) ++ [quote])

/-- A list of texts: each in quotes, with commas, in brackets. -/
def quotedList (items : List String) : String :=
  "[" ++ ", ".intercalate (items.map quoted) ++ "]"

end HindiScript.Text
