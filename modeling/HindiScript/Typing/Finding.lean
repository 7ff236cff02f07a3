/-!
# Findings of the type check

What the check has to say about a program: warnings, which are for information, and errors, after which
the generated program should not be run.
-/

namespace HindiScript.Typing

/-- A doubt about a program. -/
inductive Warning where
  /-- The test of a condition has a type that is not boolean. -/
  | ifTest (type : String)
  /-- The test of a loop has a type that is not boolean. -/
  | whileTest (type : String)
  /-- The test of a loop with a counter has a type that is not boolean. -/
  | forTest (type : String)
  /-- A return stands in no function. -/
  | returnOutside
  /-- An export lists a name that is not declared. -/
  | undeclaredExport (name : String)
  /-- A name is used that is not declared. -/
  | undeclaredUse (name : String)
  /-- A name is assigned to that is not declared. -/
  | undeclaredAssignment (name : String)
  deriving DecidableEq, Repr

def Warning.message : Warning → String
  | ifTest type => "Condition expression evaluated to '" ++ type ++ "', expected 'boolean'"
  | whileTest type => "While condition is '" ++ type ++ "', expected 'boolean'"
  | forTest type => "For loop test is '" ++ type ++ "', expected 'boolean'"
  | returnOutside => "Return used outside of function"
  | undeclaredExport name => "Export of undeclared identifier '" ++ name ++ "'"
  | undeclaredUse name => "Use of undeclared identifier '" ++ name ++ "' (assumed any)"
  | undeclaredAssignment name => "Assignment to undeclared identifier '" ++ name ++ "'"

/-- A mistake in a program. -/
inductive Mistake where
  /-- A variable is declared twice in one scope. -/
  | redeclared (name : String)
  /-- A variable is given a value that its declared type does not allow. -/
  | wrongValue (name declared assigned : String)
  /-- A function has another number of parameters than its signature. -/
  | paramCount (name : String) (expected found : Nat)
  /-- A function that should return a value has no return. -/
  | noReturn (name returns : String)
  /-- A function returns a value that its signature does not allow. -/
  | wrongReturn (name expected returned : String)
  /-- An arithmetic operator has operands that it cannot take. -/
  | wrongOperands (operator left right : String)
  deriving DecidableEq, Repr

def Mistake.message : Mistake → String
  | redeclared name => "Redeclaration of variable " ++ name
  | wrongValue name declared assigned =>
    "Type error: variable '" ++ name ++ "' declared as '" ++ declared ++ "' but assigned '" ++ assigned ++ "'"
  | paramCount name expected found =>
    "Function '" ++ name ++ "' parameter count mismatch: expected " ++ toString expected ++ " but got "
      ++ toString found
  | noReturn name returns =>
    "Function '" ++ name ++ "' must return '" ++ returns ++ "' but no return found"
  | wrongReturn name expected returned =>
    "Function '" ++ name ++ "' return type mismatch: expected '" ++ expected ++ "' but returned '"
      ++ returned ++ "'"
  | wrongOperands operator left right =>
    "Operator '" ++ operator ++ "' applied to incompatible types: '" ++ left ++ "' and '" ++ right ++ "'"

/-! ## Telling the kinds apart by their texts -/

theorem head?_toList_append {a : String} {c : Char} (h : a.toList.head? = some c) (b : String) :
    (a ++ b).toList.head? = some c := by
  rw [String.toList_append, List.head?_append, h, Option.some_or]

/-- The letter that `Warning.message` starts with for a warning of this kind. -/
def Warning.initial : Warning → Char
  | ifTest _ => 'C'
  | whileTest _ => 'W'
  | forTest _ => 'F'
  | returnOutside => 'R'
  | undeclaredExport _ => 'E'
  | undeclaredUse _ => 'U'
  | undeclaredAssignment _ => 'A'

theorem Warning.head?_message (w : Warning) : w.message.toList.head? = some w.initial := by
  cases w with
  | returnOutside => decide +kernel
  | _ =>
    unfold message initial
    simp only [String.append_assoc]
    exact head?_toList_append (by decide +kernel) _

theorem Warning.message_eq_iff (w : Warning) : w.message = returnOutside.message ↔ w = returnOutside := by
  constructor
  · intro h
    have hinitial : w.initial = 'R' := by
      have hfirst := w.head?_message
      rw [h, head?_message] at hfirst
      exact (Option.some.inj hfirst).symm
    cases w with
    | returnOutside => rfl
    | _ => simp [initial] at hinitial
  · rintro rfl
    rfl

/-- `Mistake.message` starts with the text. -/
def Mistake.startsWith (e : Mistake) (start : String) : Bool := start.toList.isPrefixOf e.message.toList

/-- The letter that `Mistake.message` starts with for a mistake of this kind. -/
def Mistake.initial : Mistake → Char
  | redeclared _ => 'R'
  | wrongValue .. => 'T'
  | paramCount .. | noReturn .. | wrongReturn .. => 'F'
  | wrongOperands .. => 'O'

theorem Mistake.head?_message (e : Mistake) : e.message.toList.head? = some e.initial := by
  cases e with
  | _ =>
    unfold message initial
    simp only [String.append_assoc]
    exact head?_toList_append (by decide +kernel) _

/-! ## Findings -/

/-- Warnings and errors, each in the order in which they were found. -/
structure Findings where
  warnings : List Warning := []
  errors : List Mistake := []
  deriving DecidableEq, Repr, Inhabited

namespace Findings

instance : Append Findings := ⟨fun a b => ⟨a.warnings ++ b.warnings, a.errors ++ b.errors⟩⟩

def warning (w : Warning) : Findings := { warnings := [w] }

def error (e : Mistake) : Findings := { errors := [e] }

/-- Nothing speaks against running the program. -/
def ok (f : Findings) : Bool := f.errors.isEmpty

/-- How the findings are summed up. -/
def display (f : Findings) : String :=
  "TypeCheckResult(warnings=" ++ toString f.warnings.length ++ ", errors=" ++ toString f.errors.length
    ++ ")"

@[simp] theorem warnings_append (a b : Findings) : (a ++ b).warnings = a.warnings ++ b.warnings := rfl

@[simp] theorem errors_append (a b : Findings) : (a ++ b).errors = a.errors ++ b.errors := rfl

theorem append_assoc (a b c : Findings) : a ++ b ++ c = a ++ (b ++ c) := by
  show Findings.mk _ _ = Findings.mk _ _
  simp

theorem empty_append (a : Findings) : ({} : Findings) ++ a = a := rfl

theorem append_empty (a : Findings) : a ++ ({} : Findings) = a := by
  show Findings.mk _ _ = _
  simp

end Findings

end HindiScript.Typing
