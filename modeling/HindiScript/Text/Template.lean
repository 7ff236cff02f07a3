import HindiScript.Registry

/-!
# Templates

A template is a text with holes. A dollar sign with a name behind it, in braces or not, is a hole that takes
the value of the name; two dollar signs stand for one. `substitute` fills a template in one pass from left to
right: behind a hole it goes on with the template, and it never looks into a value that it has put in.
-/

namespace HindiScript.Template

/-- Why a template cannot be filled. -/
inductive Failure where
  /-- There is no value for the name of a hole. -/
  | unknownName (name : String)
  /-- Behind a dollar sign stands neither a name nor another one. -/
  | badPlaceholder
  deriving DecidableEq, Repr

/-- What a dollar sign and the characters behind it stand for. -/
inductive Placeholder where
  | dollar
  | hole (name : List Char)
  deriving DecidableEq, Repr

/-- A character that starts the name of a hole. -/
def isHoleStart (c : Char) : Bool := c.isAlpha || c = '_'

/-- A character that continues the name of a hole. -/
def isHoleChar (c : Char) : Bool := c.isAlphanum || c = '_'

/-- The name at the front of `cs`, without characters if there is none. -/
def nameAtFront (cs : List Char) : List Char :=
  if cs.head?.any isHoleStart then cs.takeWhile isHoleChar else []

/-- The placeholder whose dollar sign stands right before `cs`, and how many characters of `cs` belong to it. -/
def placeholder? (cs : List Char) : Option (Placeholder × Nat) :=
  match cs with
  | '$' :: _ => some (.dollar, 1)
  | '\x7b' :: rest =>
    let name := nameAtFront rest
    if !name.isEmpty && (rest.drop name.length).head? = some '\x7d' then some (.hole name, name.length + 2) else none
  | _ =>
    let name := nameAtFront cs
    if name.isEmpty then none else some (.hole name, name.length)

/-- The text of a placeholder: a dollar sign, or what `values` has under the name of the hole. -/
def Placeholder.value (values : Registry String) : Placeholder → Except Failure (List Char)
  | dollar => .ok ['$']
  | hole name =>
    match values.find? (String.ofList name) with
    | some value => .ok value.toList
    | none => .error (.unknownName (String.ofList name))

/-- The template with its holes filled. The first `skip` characters belong to a placeholder that has been
replaced already. -/
def fill (values : Registry String) (skip : Nat) (template : List Char) : Except Failure (List Char) :=
  match template, skip with
  | [], _ => .ok []
  | _ :: rest, skip + 1 => fill values skip rest
  | c :: rest, 0 =>
    if c = '$' then
      match placeholder? rest with
      | none => .error .badPlaceholder
      | some (p, length) => (p.value values).bind fun value => (fill values length rest).map (value ++ ·)
    else (fill values 0 rest).map (c :: ·)

/-- The text of `template` in which every hole has its value in `values`. -/
def substitute (values : Registry String) (template : String) : Except Failure String :=
  (fill values 0 template.toList).map String.ofList

end HindiScript.Template
