import HindiScript.Text.Quoted

/-!
# JSON strings

A text as a JSON string. `quote` escapes only what has to be; `quoteAscii` writes every other character
in ASCII too, one beyond U+FFFF as two escaped units.
-/

namespace HindiScript.Json

/-- An escape of four hexadecimal digits, `\u` before them. -/
def escapeUnit (n : Nat) : List Char := ['\\', 'u'] ++ Text.hex 4 n

/-- A character that has an escape of its own. -/
def shortEscape? : Char → Option Char
  | '\x22' => some '\x22'
  | '\\' => some '\\'
  | '\n' => some 'n'
  | '\r' => some 'r'
  | '\t' => some 't'
  | '\x0c' => some 'f'
  | '\x08' => some 'b'
  | _ => none

/-- A character in a string that may hold any character but controls. -/
def escapeChar (c : Char) : List Char :=
  match shortEscape? c with
  | some e => ['\\', e]
  | none => if c.toNat < 0x20 then escapeUnit c.toNat else [c]

/-- A character in a string of printable ASCII. -/
def escapeAsciiChar (c : Char) : List Char :=
  match shortEscape? c with
  | some e => ['\\', e]
  | none =>
    let n := c.toNat
    if 0x20 ≤ n && n ≤ 0x7E then [c]
    else if n ≤ 0xFFFF then escapeUnit n
    else escapeUnit (0xD800 + (n - 0x10000) / 0x400) ++ escapeUnit (0xDC00 + (n - 0x10000) % 0x400)

/-- `s` as a JSON string, each character by `escapeChar`. -/
def quote (s : String) : String :=
  String.ofList ('\x22' :: s.toList.flatMap escapeChar ++ ['\x22'])

/-- `s` as a JSON string of printable ASCII, each character by `escapeAsciiChar`. -/
def quoteAscii (s : String) : String :=
  String.ofList ('\x22' :: s.toList.flatMap escapeAsciiChar ++ ['\x22'])

end HindiScript.Json
