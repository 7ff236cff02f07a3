import HindiScript.Text.Lines

/-!
# Types

A type is a text: the name of a type, or a union of names with bars between them. `any` allows
everything and is allowed everywhere.
-/

namespace HindiScript.Typing

def any : String := "any"
def void : String := "void"
def number : String := "number"
def string : String := "string"
def boolean : String := "boolean"
def function : String := "function"

/-- The names in a union, without blanks around them; empty ones are left out. -/
def members (type : String) : List String :=
  (((Text.pieces '|' type.toList).map Text.trim).filter (· ≠ [])).map String.ofList

/-- A value of type `actual` may stand where `expected` is asked for: every member of the one is a member of the
other. An empty type asks for nothing. -/
def allows (expected actual : String) : Bool :=
  expected = "" || expected = any || actual = any || any ∈ members expected
    || (members actual).all (· ∈ members expected)

end HindiScript.Typing
