import HindiScript.Decimal.Shortest
import HindiScript.Json.Basic
import HindiScript.Registry

/-!
# Reading JSON values

`Json.parse` reads a whole text. Besides the standard it takes `NaN`, `Infinity` and `-Infinity` for
doubles; it takes no integer of more than 4300 digits. A name that an object has twice keeps its first
place and takes the last value.
-/

namespace HindiScript.Json

/-! ## Blanks and numbers -/

/-- The characters that may stand between the parts of a value. -/
def isSpace (c : Char) : Bool := c = ' ' || c = '\t' || c = '\n' || c = '\r'

def skipSpace (cs : List Char) : List Char := cs.dropWhile isSpace

/-- The value of a run of digits. -/
def natOf (digits : List Char) : Nat :=
  digits.foldl (fun n d => 10 * n + (d.toNat - '0'.toNat)) 0

/-- The most digits that an integer may have. -/
def maxDigits : Nat := 4300

/-- The digits of an integer: a single zero, or digits that start with none. -/
def integerDigits (cs : List Char) : Option (List Char × List Char) :=
  match cs with
  | '0' :: rest => some (['0'], rest)
  | _ =>
    let digits := cs.takeWhile Char.isDigit
    if digits.isEmpty then none else some (digits, cs.drop digits.length)

/-- The digits behind a point; no point is taken that no digit follows. -/
def fractionDigits (cs : List Char) : Option (List Char) × List Char :=
  match cs with
  | '.' :: rest =>
    let digits := rest.takeWhile Char.isDigit
    if digits.isEmpty then (none, cs) else (some digits, rest.drop digits.length)
  | _ => (none, cs)

/-- The sign and digits of an exponent; no mark is taken that no digit follows. -/
def exponentDigits (cs : List Char) : Option Int × List Char :=
  let read (negative : Bool) (rest : List Char) : Option Int × List Char :=
    let digits := rest.takeWhile Char.isDigit
    if digits.isEmpty then (none, cs)
    else (some (if negative then -(natOf digits : Int) else natOf digits), rest.drop digits.length)
  match cs with
  | e :: rest =>
    if e = 'e' || e = 'E' then
      match rest with
      | '-' :: rest => read true rest
      | '+' :: rest => read false rest
      | _ => read false rest
    else (none, cs)
  | [] => (none, cs)

/-- The number at the front of `cs`, without its sign. -/
def number (negative : Bool) (cs : List Char) : Option (Json × List Char) := do
  let (whole, rest) ← integerDigits cs
  let (fraction, rest) := fractionDigits rest
  let (exponent, rest) := exponentDigits rest
  if fraction.isNone && exponent.isNone then
    if maxDigits < whole.length then none
    else
      let n : Int := natOf whole
      some (.int (if negative then -n else n), rest)
  else
    let places := fraction.getD []
    let x := Decimal.toFloat ⟨natOf (whole ++ places), exponent.getD 0 - places.length⟩
    some (.float (if negative then -x else x), rest)

/-! ## Strings -/

/-- The value of a hexadecimal digit. -/
def hexDigit? (c : Char) : Option Nat :=
  if '0' ≤ c && c ≤ '9' then some (c.toNat - '0'.toNat)
  else if 'a' ≤ c && c ≤ 'f' then some (c.toNat - 'a'.toNat + 10)
  else if 'A' ≤ c && c ≤ 'F' then some (c.toNat - 'A'.toNat + 10)
  else none

/-- The value of four hexadecimal digits. -/
def unit? (a b c d : Char) : Option Nat := do
  return ((← hexDigit? a) * 16 + (← hexDigit? b)) * 256 + ((← hexDigit? c) * 16 + (← hexDigit? d))

/-- The character that an escape stands for. -/
def unescape? : Char → Option Char
  | '\x22' => some '\x22'
  | '\\' => some '\\'
  | '/' => some '/'
  | 'b' => some '\x08'
  | 'f' => some '\x0c'
  | 'n' => some '\n'
  | 'r' => some '\r'
  | 't' => some '\t'
  | _ => none

/-- The character beyond U+FFFF that the escaped units `high` and `low` make. -/
def pairOf? (high low : Nat) : Option Char :=
  if 0xD800 ≤ high && high ≤ 0xDBFF && 0xDC00 ≤ low && low ≤ 0xDFFF then
    some (Char.ofNat (0x10000 + (high - 0xD800) * 0x400 + (low - 0xDC00)))
  else none

/-- The character of the unit `n` by itself. Half of a pair, which is none, becomes the replacement character. -/
def charOfUnit (n : Nat) : Char :=
  if 0xD800 ≤ n && n ≤ 0xDFFF then '\uFFFD' else Char.ofNat n

/-- `c` before the text that was read. -/
def onto (c : Char) (r : Option (List Char × List Char)) : Option (List Char × List Char) :=
  r.map fun (text, rest) => (c :: text, rest)

/-- The text of a string, behind its opening quote, with the closing one. A control character is
refused. -/
def stringTail : List Char → Option (List Char × List Char)
  | [] => none
  | '\x22' :: rest => some ([], rest)
  | '\\' :: 'u' :: a :: b :: c :: d :: '\\' :: 'u' :: a' :: b' :: c' :: d' :: rest =>
    match unit? a b c d with
    | none => none
    | some high =>
      match unit? a' b' c' d' with
      | none => onto (charOfUnit high) (stringTail ('\\' :: 'u' :: a' :: b' :: c' :: d' :: rest))
      | some low =>
        match pairOf? high low with
        | some c => onto c (stringTail rest)
        | none => onto (charOfUnit high) (stringTail ('\\' :: 'u' :: a' :: b' :: c' :: d' :: rest))
  | '\\' :: 'u' :: a :: b :: c :: d :: rest =>
    match unit? a b c d with
    | none => none
    | some n => onto (charOfUnit n) (stringTail rest)
  | '\\' :: c :: rest =>
    match unescape? c with
    | none => none
    | some c => onto c (stringTail rest)
  | c :: rest => if c.toNat < 0x20 || c = '\\' then none else onto c (stringTail rest)

/-! ## Values -/

/-- The text behind `word`, if `cs` starts with it. -/
def afterWord? (word : String) (cs : List Char) : Option (List Char) :=
  if word.toList.isPrefixOf cs then some (cs.drop word.length) else none

def word? (cs : List Char) : Option (Json × List Char) :=
  [("null", Json.null), ("true", .bool true), ("false", .bool false), ("NaN", .float (0.0 / 0.0)),
    ("Infinity", .float (1.0 / 0.0)), ("-Infinity", .float (-1.0 / 0.0))].findSome?
    fun (word, value) => (afterWord? word cs).map (value, ·)

mutual

/-- The value at the front, and the text behind it. The first argument bounds how many parts the value has; twice the
length of the text is always enough. -/
def value : Nat → List Char → Option (Json × List Char)
  | 0, _ => none
  | n + 1, cs =>
    match cs with
    | '\x22' :: rest => (stringTail rest).map fun (text, rest) => (.str (String.ofList text), rest)
    | '[' :: rest =>
      match skipSpace rest with
      | ']' :: rest => some (.arr [], rest)
      | rest => (items n rest).map fun (items, rest) => (.arr items, rest)
    | '\x7b' :: rest =>
      match skipSpace rest with
      | '\x7d' :: rest => some (.obj [], rest)
      | rest => (fields n [] rest).map fun (fields, rest) => (.obj fields, rest)
    | '-' :: rest => (word? cs).or (number true rest)
    | _ => (word? cs).or (number false cs)

/-- The items of an array, from the first one to the closing bracket. -/
def items : Nat → List Char → Option (List Json × List Char)
  | 0, _ => none
  | n + 1, cs =>
    match value n cs with
    | none => none
    | some (item, rest) =>
      match skipSpace rest with
      | ']' :: rest => some ([item], rest)
      | ',' :: rest => (items n (skipSpace rest)).map fun (items, rest) => (item :: items, rest)
      | _ => none

/-- The fields of an object, put to those already read, from the next name to the closing brace. -/
def fields : Nat → List (String × Json) → List Char → Option (List (String × Json) × List Char)
  | 0, _, _ => none
  | n + 1, done, cs =>
    match cs with
    | '\x22' :: rest =>
      match stringTail rest with
      | none => none
      | some (name, rest) =>
        match skipSpace rest with
        | ':' :: rest =>
          match value n (skipSpace rest) with
          | none => none
          | some (item, rest) =>
            let done := Registry.putEntry (String.ofList name) item done
            match skipSpace rest with
            | '\x7d' :: rest => some (done, rest)
            | ',' :: rest => fields n done (skipSpace rest)
            | _ => none
        | _ => none
    | _ => none

end

/-- The value that the whole text writes. -/
def parse (text : String) : Option Json :=
  match value (2 * text.length + 1) (skipSpace text.toList) with
  | none => none
  | some (result, rest) => if (skipSpace rest).isEmpty then some result else none

end HindiScript.Json
