import HindiScript.Proofs.Tree.Relining

/-!
# How trees are written

`Written` is the grammar as a relation: it says which tokens write which tree, with the freedom that a writer
has. Parentheses may stand around every expression and have to stand where the operators would group
otherwise; a fetch may be written in two ways; every statement is followed by semicolons, and a statement that
ends in a block may do without.
-/

namespace HindiScript

open Lexeme Punct Keyword

/-! ## Words -/

def commaSeparated (names : List String) : List Lexeme := (names.map ident).intersperse (punct comma)

def parameters (names : List String) : List Lexeme :=
  punct parenOpen :: commaSeparated names ++ [punct parenClose]

def asyncWord (isAsync : Bool) : List Lexeme := if isAsync then [keyword aasynk] else []

/-- The word that starts a declaration. -/
def declaringWord (isConstant : Bool) : Keyword := if isConstant then sthayi else ye

/-- The most parameters for which a function without `aasynk` is told from an expression in parentheses. -/
def maxArrowParams : Nat := 9

/-- The tokens `ls` end in a block. -/
def endsInBlock (ls : List Lexeme) : Bool := ls.getLast? = some (punct braceClose)

/-! ## Phrases -/

/-- A place in the grammar, with what stands there. -/
inductive Phrase where
  /-- A name and the calls and members behind it. -/
  | chain (e : Node)
  /-- An expression that no operator breaks up. -/
  | unary (e : Node)
  /-- An expression whose outer operators bind at least as tightly as the level. -/
  | operand (level : Nat) (e : Node)
  | expr (e : Node)
  /-- Arguments, behind the opening parenthesis. -/
  | arguments (es : List Node)
  /-- What stands behind an arrow. -/
  | arrowBody (e : Node)
  /-- The value of a declaration, which may be left out. -/
  | initializer (e : Node)
  | declaration (e : Node)
  | function (e : Node)
  | block (e : Node)
  /-- What follows the block of a condition, which may be nothing. -/
  | alternate (e : Node)
  /-- What a loop does first, which may be nothing. -/
  | loopStart (e : Node)
  /-- An expression that may be left out. -/
  | optional (e : Node)
  | statement (e : Node)
  | statements (es : List Node)

/-- The tokens that write a phrase. The lines of the nodes do not matter. -/
inductive Written : Phrase → List Lexeme → Prop where
  -- Names, calls and members
  | ident {line name} : Written (.chain (.ident line name)) [ident name]
  | call {line callee args ls ms} :
    Written (.chain callee) ls → Written (.arguments args) ms →
    Written (.chain (.call line callee (some args))) (ls ++ punct parenOpen :: ms)
  | member {line line' object name ls} :
    Written (.chain object) ls →
    Written (.chain (.member line object (.ident line' name))) (ls ++ [punct dot, ident name])
  | noArguments : Written (.arguments []) [punct parenClose]
  | lastArgument {e ls} : Written (.expr e) ls → Written (.arguments [e]) (ls ++ [punct parenClose])
  | nextArgument {e e' es ls ms} :
    Written (.expr e) ls → Written (.arguments (e' :: es)) ms →
    Written (.arguments (e :: e' :: es)) (ls ++ punct comma :: ms)
  -- What no operator breaks up
  | ofChain {e ls} : Written (.chain e) ls → Written (.unary e) ls
  | number {line} {value : Nat} : Written (.unary (.literal line (.number value))) [number value]
  | string {line text} : Written (.unary (.literal line (.string text))) [string text]
  | fetch {line line' args ls} :
    Written (.arguments args) ls →
    Written (.unary (.call line (.ident line' fetchName) (some args))) (keyword lao :: punct parenOpen :: ls)
  | parentheses {e ls} :
    Written (.expr e) ls → Written (.unary e) (punct parenOpen :: ls ++ [punct parenClose])
  | await {line e ls} : Written (.unary e) ls → Written (.unary (.await line e)) (keyword pratiksha :: ls)
  -- Operators; those of one level group to the left
  | ofUnary {level e ls} : Written (.unary e) ls → Written (.operand level e) ls
  | binary {level line symbol left right ls ms} :
    0 < precedence symbol → level ≤ precedence symbol →
    Written (.operand (precedence symbol) left) ls → Written (.operand (precedence symbol + 1) right) ms →
    Written (.operand level (.binary line symbol left right)) (ls ++ op symbol :: ms)
  -- Expressions
  | ofOperand {e ls} : Written (.operand 1 e) ls → Written (.expr e) ls
  | assign {line target value ls ms} :
    Written (.operand 1 target) ls → Written (.expr value) ms →
    Written (.expr (.assign line target value)) (ls ++ op "=" :: ms)
  | arrow {line params body isAsync ls} :
    (isAsync = false → params.length ≤ maxArrowParams) → Written (.arrowBody body) ls →
    Written (.expr (.arrow line (some params) body isAsync))
      (asyncWord isAsync ++ parameters params ++ op "=>" :: ls)
  | arrowExpr {e ls} : Written (.expr e) ls → Written (.arrowBody e) ls
  | arrowBlock {e ls} : Written (.block e) ls → Written (.arrowBody e) ls
  -- Parts of statements
  | noValue : Written (.initializer .missing) []
  | value {e ls} : Written (.expr e) ls → Written (.initializer e) (op "=" :: ls)
  | declaration {line name value} (isConstant : Bool) {ls} :
    Written (.initializer value) ls →
    Written (.declaration (.variableDecl line (some name) value (if isConstant then "const" else "let")))
      (keyword (declaringWord isConstant) :: Lexeme.ident name :: ls)
  | function {line name params body isAsync ls} :
    Written (.block body) ls →
    Written (.function (.functionDecl line (some name) (some params) body isAsync))
      (asyncWord isAsync ++ keyword karya :: Lexeme.ident name :: parameters params ++ ls)
  | block {line es ls} :
    Written (.statements es) ls →
    Written (.block (.block line es)) (punct braceOpen :: ls ++ [punct braceClose])
  | noAlternate : Written (.alternate .missing) []
  | elseIf {line test consequent alternate ls ms ns} :
    Written (.expr test) ls → Written (.block consequent) ms → Written (.alternate alternate) ns →
    Written (.alternate (.ifStmt line test consequent alternate)) (keyword nahitoh :: (ls ++ (ms ++ ns)))
  | elseBlock {e ls} : Written (.block e) ls → Written (.alternate e) (keyword warna :: ls)
  | startDeclaration {e ls} : Written (.declaration e) ls → Written (.loopStart e) ls
  | startOptional {e ls} : Written (.optional e) ls → Written (.loopStart e) ls
  | leftOut : Written (.optional .missing) []
  | given {e ls} : Written (.expr e) ls → Written (.optional e) ls
  -- Statements
  | declarationStmt {e ls} : Written (.declaration e) ls → Written (.statement e) ls
  | printStmt {line e ls} : Written (.expr e) ls → Written (.statement (.printStmt line e)) (keyword bol :: ls)
  | ifStmt {line test consequent alternate ls ms ns} :
    Written (.expr test) ls → Written (.block consequent) ms → Written (.alternate alternate) ns →
    Written (.statement (.ifStmt line test consequent alternate)) (keyword agar :: (ls ++ (ms ++ ns)))
  | whileStmt {line test body ls ms} :
    Written (.expr test) ls → Written (.block body) ms →
    Written (.statement (.whileStmt line test body)) (keyword lagataar :: (ls ++ ms))
  | forStmt {line init test update body ls ms ns os} :
    Written (.loopStart init) ls → Written (.optional test) ms → Written (.optional update) ns →
    Written (.block body) os →
    Written (.statement (.forStmt line init test update body))
      (keyword jabtak :: punct parenOpen ::
        (ls ++ punct semicolon :: (ms ++ punct semicolon :: (ns ++ punct parenClose :: os))))
  | foreverStmt {line body ls} :
    Written (.block body) ls →
    Written (.statement (.forStmt line .missing .missing .missing body)) (keyword jabtak :: ls)
  | returnStmt {line e ls} :
    Written (.optional e) ls → Written (.statement (.returnStmt line e)) (keyword wapas :: ls)
  | breakStmt {line} : Written (.statement (.breakStmt line)) [keyword ruk]
  | continueStmt {line} : Written (.statement (.continueStmt line)) [keyword chhod]
  | functionStmt {e ls} : Written (.function e) ls → Written (.statement e) ls
  | importModule {line source} :
    Written (.statement (.importDecl line (some source) none)) [keyword aayaat, Lexeme.string source]
  | importNames {line source names} :
    Written (.statement (.importDecl line (some source) (some names)))
      (keyword aayaat :: punct braceOpen ::
        (commaSeparated names ++ [punct braceClose, keyword se, Lexeme.string source]))
  | exportDeclaration {line e ls} :
    Written (.declaration e) ls → Written (.statement (.exportDecl line e none)) (keyword niryaat :: ls)
  | exportFunction {line e ls} :
    Written (.function e) ls → Written (.statement (.exportDecl line e none)) (keyword niryaat :: ls)
  | exportName {line name} :
    Written (.statement (.exportDecl line .missing (some [name]))) [keyword niryaat, Lexeme.ident name]
  | blockStmt {e ls} : Written (.block e) ls → Written (.statement e) ls
  | exprStmt {line e ls} : Written (.expr e) ls → Written (.statement (.exprStmt line e)) ls
  | noStatements : Written (.statements []) []
  | nextStatement {e es ls ms} (semicolons : Nat) :
    Written (.statement e) ls → (endsInBlock ls = false → 0 < semicolons) → Written (.statements es) ms →
    Written (.statements (e :: es)) (ls ++ (List.replicate semicolons (punct semicolon) ++ ms))

/-! ## How the tokens of a phrase begin and end -/

/-- An expression may begin with these tokens. -/
def startsExpr : List Lexeme → Bool
  | ident _ :: _ | number _ :: _ | string _ :: _ | punct parenOpen :: _ | keyword lao :: _
  | keyword pratiksha :: _ | keyword aasynk :: punct parenOpen :: _ => true
  | _ => false

/-- A statement may begin with these tokens. -/
def startsStatement : List Lexeme → Bool
  | keyword ye :: _ | keyword sthayi :: _ | keyword bol :: _ | keyword agar :: _ | keyword lagataar :: _
  | keyword jabtak :: _ | keyword wapas :: _ | keyword ruk :: _ | keyword chhod :: _ | keyword karya :: _
  | keyword aasynk :: _ | keyword aayaat :: _ | keyword niryaat :: _ | punct braceOpen :: _ => true
  | ls => startsExpr ls

theorem startsExpr_append {ls : List Lexeme} (h : startsExpr ls = true) (ms : List Lexeme) :
    startsExpr (ls ++ ms) = true := by
  unfold startsExpr at h
  split at h
  case h_8 => cases h
  all_goals rfl

theorem startsStatement_of_startsExpr {ls : List Lexeme} (h : startsExpr ls = true) :
    startsStatement ls = true := by
  unfold startsStatement
  split
  case h_15 => exact h
  all_goals rfl

@[simp] theorem endsInBlock_append_cons (ls : List Lexeme) (l : Lexeme) (ms : List Lexeme) :
    endsInBlock (ls ++ l :: ms) = endsInBlock (l :: ms) := by
  simp [endsInBlock, List.getLast?_append]

theorem endsInBlock_cons {l : Lexeme} (h : l ≠ punct braceClose) (ms : List Lexeme) :
    endsInBlock (l :: ms) = endsInBlock ms := by
  cases ms <;> simp [endsInBlock, h]

namespace Phrase

/-- Something stands in the place. -/
def Present : Phrase → Prop
  | chain e | unary e | operand _ e | expr e | arrowBody e | declaration e | function e | block e
  | statement e => e.isMissing = false
  | _ => True

/-- The tokens begin as the phrase has to, by `startsExpr` or `startsStatement`. -/
def Begins : Phrase → List Lexeme → Prop
  | chain _, ls | unary _, ls | operand _ _, ls | expr _, ls => startsExpr ls = true
  | declaration _, ls | function _, ls | block _, ls | statement _, ls => startsStatement ls = true
  | _, _ => True

/-- The tokens do not end in a block where the phrase cannot. -/
def StaysOpen : Phrase → List Lexeme → Prop
  | chain _, ls | unary _, ls | operand _ _, ls | arguments _, ls => endsInBlock ls = false
  | _, _ => True

end Phrase

namespace Written

variable {φ : Phrase} {ls : List Lexeme}

theorem present (h : Written φ ls) : φ.Present := by
  induction h with
  | ofChain _ ih | parentheses _ ih | ofUnary _ ih | ofOperand _ ih | arrowExpr _ ih | arrowBlock _ ih
  | declarationStmt _ ih | functionStmt _ ih | blockStmt _ ih => exact ih
  | noArguments | lastArgument | nextArgument | noValue | value | noAlternate | elseIf | elseBlock
  | startDeclaration | startOptional | leftOut | given | noStatements | nextStatement => trivial
  | _ => rfl

theorem begins (h : Written φ ls) : φ.Begins ls := by
  induction h with
  | call _ _ ih | member _ ih | binary _ _ _ _ ih | assign _ _ ih => exact startsExpr_append ih _
  | ofChain _ ih | ofUnary _ ih | ofOperand _ ih | declarationStmt _ ih | functionStmt _ ih
  | blockStmt _ ih => exact ih
  | exprStmt _ ih => exact startsStatement_of_startsExpr ih
  | @arrow _ _ _ isAsync => cases isAsync <;> rfl
  | @declaration _ _ _ isConstant => cases isConstant <;> rfl
  | @function _ _ _ _ isAsync => cases isAsync <;> rfl
  | noArguments | lastArgument | nextArgument | arrowExpr | arrowBlock | noValue | value | noAlternate | elseIf
  | elseBlock | startDeclaration | startOptional | leftOut | given | noStatements | nextStatement => trivial
  | _ => rfl

theorem staysOpen (h : Written φ ls) : φ.StaysOpen ls := by
  induction h with
  | ofChain _ ih | ofUnary _ ih => exact ih
  | call _ _ _ ih | binary _ _ _ _ _ ih | nextArgument _ _ _ ih =>
    rw [Phrase.StaysOpen, endsInBlock_append_cons, endsInBlock_cons (by simp)]
    exact ih
  | member | lastArgument | parentheses => exact endsInBlock_append_cons _ _ _
  | fetch _ ih =>
    rw [Phrase.StaysOpen, endsInBlock_cons (by simp), endsInBlock_cons (by simp)]
    exact ih
  | await _ ih =>
    rw [Phrase.StaysOpen, endsInBlock_cons (by simp)]
    exact ih
  | ident | noArguments | number | string => rfl
  | _ => trivial

end Written

end HindiScript
