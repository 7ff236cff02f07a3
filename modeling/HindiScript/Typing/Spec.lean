import HindiScript.Registry
import HindiScript.Text.Letter
import HindiScript.Text.Numeric
import HindiScript.Typing.Union

/-!
# Type specs

A spec states the types of variables and functions, one declaration a line:

    # comment
    count: number
    label: string|number
    add(a: number, b: number): number

A line that is no declaration is passed over; a name that is declared again takes the new type.
-/

namespace HindiScript.Typing

/-- The declared type of a function. -/
structure Signature where
  params : Registry String
  returns : String
  deriving DecidableEq, Repr

def Signature.display (s : Signature) : String :=
  "(" ++ ", ".intercalate (s.params.entries.map fun (name, type) => name ++ ": " ++ type) ++ "): "
    ++ s.returns

/-- The declared types of variables and functions. -/
structure Spec where
  vars : Registry String := {}
  funcs : Registry Signature := {}
  deriving DecidableEq, Repr, Inhabited

namespace Spec

/-- A character that starts a declared name. -/
def isNameStart (c : Char) : Bool := c.isAlpha || c = '_'

/-- A character that continues a declared name. -/
def isNameChar (c : Char) : Bool := Text.isLetter c || Text.isNumeric c || c = '_'

def skipBlanks (cs : List Char) : List Char := cs.dropWhile Text.isBlank

/-- The name at the front of `line`, and the text behind it and the blanks there. -/
def nameAtFront? (line : List Char) : Option (String × List Char) :=
  if line.head?.any isNameStart then
    some (String.ofList (line.takeWhile isNameChar), skipBlanks (line.dropWhile isNameChar))
  else none

/-- The type behind a colon. -/
def typeAfterColon? (cs : List Char) : Option String :=
  match skipBlanks cs with
  | ':' :: rest =>
    let type := skipBlanks rest
    if type.isEmpty then none else some (String.ofList (Text.trim type))
  | _ => none

/-- The parameters between the parentheses. One without a type has type `any`. -/
def paramsOf (cs : List Char) : Registry String :=
  (Text.pieces ',' cs).foldl (fun params part =>
    let (name, type) := Text.cut ':' part
    let name := Text.trim name
    let type := Text.trim type
    if name.isEmpty then params
    else params.insert (String.ofList name) (if type.isEmpty then any else String.ofList type)) {}

/-- The declaration of a function. -/
def functionLine? (line : List Char) : Option (String × Signature) :=
  match nameAtFront? line with
  | some (name, '(' :: rest) =>
    match rest.dropWhile (· ≠ ')') with
    | ')' :: after =>
      (typeAfterColon? after).map fun returns => (name, ⟨paramsOf (rest.takeWhile (· ≠ ')')), returns⟩)
    | _ => none
  | _ => none

/-- The declaration of a variable. -/
def variableLine? (line : List Char) : Option (String × String) :=
  match nameAtFront? line with
  | some (name, rest) => (typeAfterColon? rest).map (name, ·)
  | none => none

/-- `spec` with the declaration of one line added; a line that declares nothing adds nothing. -/
def addLine (spec : Spec) (line : List Char) : Spec :=
  let line := Text.trim line
  if line.isEmpty || line.head? = some '#' then spec
  else match functionLine? line with
    | some (name, signature) => { spec with funcs := spec.funcs.insert name signature }
    | none =>
      match variableLine? line with
      | some (name, type) => { spec with vars := spec.vars.insert name type }
      | none => spec

/-- The spec that `text` writes, line by line. -/
def parse (text : String) : Spec := (Text.lines text.toList).foldl addLine {}

end Spec

end HindiScript.Typing
