import HindiScript.Json.Quote
import HindiScript.Text.Indent
import HindiScript.Tree.Grammar

/-!
# The JavaScript text of a tree

Every node has one text (`Node.text`); imports have none, since a build binds their names. What a place
takes of the node that stands there is decided by the place: an expression's place takes only the text
of an expression, a block's place writes an empty block for a missing one. Operands are put in
parentheses where the text would otherwise be read with another grouping.
-/

namespace HindiScript

/-- A constant in JavaScript. -/
def Literal.text : Literal → String
  | .null => "null"
  | .boolean value => if value then "true" else "false"
  | .number value => toString value
  | .string text => Json.quote text

/-- The name of the generated function that fetches. -/
def fetchHelper : String := "__shar_fetch"

/-- The name of the generated table of exports. -/
def exportsName : String := "__shar_exports"

/-- The statement that puts `name` into the table of exports, and makes the table if there is none. -/
def exportAssignment (name : String) : String :=
  "var " ++ exportsName ++ " = " ++ exportsName ++ " || \x7b\x7d; " ++ exportsName ++ "[\"" ++ name
    ++ "\"] = " ++ name ++ ";"

/-- What the text of a block is set in by. -/
def blockMargin : String := "    "

/-- `inner` in braces, set in by `blockMargin`. -/
def braces (inner : String) : String :=
  if inner = "" then "\x7b\n\x7d"
  else "\x7b\n" ++ Text.indent blockMargin inner ++ "\n\x7d"

namespace Node

/-! ## Places -/

/-- What an expression's place takes of the `text` of the node there. -/
def asExpr (node : Node) (text : String) : String := if node.isExpression then text else ""

/-- What a statement's place takes of the `text` of the node there. -/
def asStatement (node : Node) (text : String) : String := if node.isStatement then text else ""

/-- What a block's place takes of the `text` of the node there: a node that holds no statements gives empty `braces`.
-/
def asBlock (node : Node) (text : String) : String :=
  match node with
  | block .. => text
  | program .. => braces text
  | _ => braces ""

/-- What the place behind a condition's block takes of the text of the node there: a further condition
as it is, a block, or nothing. -/
def asAlternate (node : Node) (text : String) : String :=
  match node with
  | missing => ""
  | ifStmt .. => " else " ++ text
  | _ => " else " ++ node.asBlock text

/-- What the place behind an arrow takes of the text of the node there: a block or an expression. -/
def asArrowBody (node : Node) (text : String) : String :=
  match node with
  | block .. => text
  | _ => node.asExpr text

/-- How tightly the parts of a node hold together, for those that an operator can break up. -/
def cohesion? : Node → Option Nat
  | binary _ operator _ _ => some (precedence operator)
  | assign .. => some 0
  | arrow .. => some 0
  | _ => none

/-- What an operand's place takes of the `text` of the node there. A node that holds together less tightly
(`cohesion?`) than the operator is put in parentheses, and on the right side one that holds equally. -/
def asOperand (operator : Nat) (rightSide : Bool) (node : Node) (text : String) : String :=
  match node.cohesion? with
  | some p =>
    if p < operator || (rightSide && p = operator) then "(" ++ node.asExpr text ++ ")"
    else node.asExpr text
  | none => node.asExpr text

def declarationText (name : Option String) (value : Node) (valueText : String) (kind : String) :
    String :=
  (if kind = "const" then "const" else "let") ++ " " ++ name.getD ""
    ++ if value.isMissing then "" else " = " ++ value.asExpr valueText

def paramsText (params : Option (List String)) : String :=
  "(" ++ ", ".intercalate (params.getD []) ++ ")"

def asyncText (isAsync : Bool) : String := if isAsync then "async " else ""

/-- A loop with three parts and a block. -/
def forText (init test update body : String) : String :=
  "for (" ++ init ++ "; " ++ test ++ "; " ++ update ++ ") " ++ body

/-- The names that an export makes known: that of its declaration, or else those it lists. -/
def exportedNames : Node → List String
  | exportDecl _ declaration names =>
    if declaration.isMissing then names.getD []
    else declaration.name?.toList.filter (· ≠ "")
  | _ => []

/-- The text of what is called: a call of `fetchName` calls `fetchHelper`. -/
def calleeText (callee : Node) (text : String) : String :=
  match callee with
  | ident _ name => if name = fetchName then fetchHelper else name
  | _ => callee.asExpr text

/-! ## Texts -/

mutual

/-- The JavaScript text of a node. -/
def text : Node → String
  | missing => ""
  | program _ body => Text.joinLines (texts body)
  | variableDecl _ name value kind => declarationText name value value.text kind ++ ";"
  | printStmt _ value => "console.log(" ++ value.asExpr value.text ++ ");"
  | ifStmt _ test consequent alternate =>
    "if (" ++ test.asExpr test.text ++ ") " ++ consequent.asBlock consequent.text
      ++ alternate.asAlternate alternate.text
  | whileStmt _ test body => "while (" ++ test.asExpr test.text ++ ") " ++ body.asBlock body.text
  | forStmt _ (variableDecl _ name value kind) test update body =>
    forText (declarationText name value value.text kind) (test.asExpr test.text)
      (update.asExpr update.text) (body.asBlock body.text)
  | forStmt _ init test update body =>
    forText (init.asExpr init.text) (test.asExpr test.text) (update.asExpr update.text)
      (body.asBlock body.text)
  | returnStmt _ value =>
    if value.isMissing then "return;" else "return " ++ value.asExpr value.text ++ ";"
  | breakStmt _ => "break;"
  | continueStmt _ => "continue;"
  | block _ body => braces (Text.joinLines (texts body))
  | exprStmt _ value => value.asExpr value.text ++ ";"
  | functionDecl _ name params body isAsync =>
    asyncText isAsync ++ "function " ++ name.getD "" ++ paramsText params ++ " "
      ++ body.asBlock body.text
  | importDecl .. => ""
  | exportDecl line declaration names =>
    "\n".intercalate
      ((if declaration.isMissing then [] else [declaration.asStatement declaration.text])
        ++ (exportedNames (exportDecl line declaration names)).map exportAssignment)
  | binary _ operator left right =>
    left.asOperand (precedence operator) false left.text ++ " " ++ operator ++ " "
      ++ right.asOperand (precedence operator) true right.text
  | assign _ target value => target.asExpr target.text ++ " = " ++ value.asExpr value.text
  | await _ value => "await " ++ value.asOperand (maxPrecedence + 1) true value.text
  | arrow _ params body isAsync =>
    asyncText isAsync ++ paramsText params ++ " => "
      ++ body.asArrowBody body.text
  | call _ callee none => calleeText callee callee.text ++ "()"
  | call _ callee (some args) =>
    calleeText callee callee.text ++ "(" ++ ", ".intercalate (argTexts args) ++ ")"
  | member _ object property => object.asExpr object.text ++ "." ++ property.asExpr property.text
  | literal _ value => value.text
  | ident _ name => name

def texts : List Node → List String
  | [] => []
  | node :: rest => node.text :: texts rest

def argTexts : List Node → List String
  | [] => []
  | node :: rest => node.asExpr node.text :: argTexts rest

end

section

variable (line : Option Int) (name : Option String) (init test update body value : Node)

theorem text_variableDecl (kind : String) :
    (variableDecl line name value kind).text = declarationText name value value.text kind ++ ";" := rfl

theorem text_printStmt : (printStmt line value).text = "console.log(" ++ value.asExpr value.text ++ ");" := rfl

theorem text_ifStmt (alternate : Node) : (ifStmt line test body alternate).text =
    "if (" ++ test.asExpr test.text ++ ") " ++ body.asBlock body.text ++ alternate.asAlternate alternate.text := rfl

theorem text_whileStmt : (whileStmt line test body).text =
    "while (" ++ test.asExpr test.text ++ ") " ++ body.asBlock body.text := rfl

/-- Whatever a loop does first, the texts of its other parts stand behind it. -/
theorem text_forStmt : ∃ start, (forStmt line init test update body).text =
    forText start (test.asExpr test.text) (update.asExpr update.text) (body.asBlock body.text) := by
  cases init <;> exact ⟨_, rfl⟩

theorem text_forStmt_declaration (line' : Option Int) (kind : String) :
    (forStmt line (variableDecl line' name value kind) test update body).text =
      forText (declarationText name value value.text kind) (test.asExpr test.text) (update.asExpr update.text)
        (body.asBlock body.text) := rfl

theorem text_forStmt_expr (h : init.isExpression = true) : (forStmt line init test update body).text =
    forText (init.asExpr init.text) (test.asExpr test.text) (update.asExpr update.text) (body.asBlock body.text) := by
  cases init <;> first | rfl | cases h

theorem text_returnStmt : (returnStmt line value).text =
    if value.isMissing then "return;" else "return " ++ value.asExpr value.text ++ ";" := rfl

theorem text_exprStmt : (exprStmt line value).text = value.asExpr value.text ++ ";" := rfl

theorem text_functionDecl (params : Option (List String)) (isAsync : Bool) :
    (functionDecl line name params body isAsync).text =
      asyncText isAsync ++ "function " ++ name.getD "" ++ paramsText params ++ " " ++ body.asBlock body.text := rfl

theorem text_exportDecl (declaration : Node) (names : Option (List String)) :
    (exportDecl line declaration names).text = "\n".intercalate
      ((if declaration.isMissing then [] else [declaration.asStatement declaration.text])
        ++ (exportedNames (exportDecl line declaration names)).map exportAssignment) := rfl

theorem text_binary (operator : String) (left right : Node) : (binary line operator left right).text =
    left.asOperand (precedence operator) false left.text ++ " " ++ operator ++ " "
      ++ right.asOperand (precedence operator) true right.text := rfl

theorem text_await : (await line value).text = "await " ++ value.asOperand (maxPrecedence + 1) true value.text := rfl

theorem text_arrow (params : Option (List String)) (isAsync : Bool) : (arrow line params body isAsync).text =
    asyncText isAsync ++ paramsText params ++ " => " ++ body.asArrowBody body.text := rfl

theorem text_call_none (callee : Node) : (call line callee none).text = calleeText callee callee.text ++ "()" := rfl

theorem text_call (callee : Node) (args : List Node) : (call line callee (some args)).text =
    calleeText callee callee.text ++ "(" ++ ", ".intercalate (argTexts args) ++ ")" := rfl

theorem text_assign (target : Node) :
    (assign line target value).text = target.asExpr target.text ++ " = " ++ value.asExpr value.text := rfl

theorem text_member (property : Node) :
    (member line value property).text = value.asExpr value.text ++ "." ++ property.asExpr property.text := rfl

end

/-- `text` in an expression's place. -/
def exprText (node : Node) : String := node.asExpr node.text

/-- `text` in a statement's place. -/
def statementText (node : Node) : String := node.asStatement node.text

/-- `text` in a block's place. -/
def blockText (node : Node) : String := node.asBlock node.text

theorem texts_eq_map (nodes : List Node) : texts nodes = nodes.map text := by
  induction nodes with
  | nil => rfl
  | cons node rest ih => simp [texts, ih]

theorem argTexts_eq_map (nodes : List Node) : argTexts nodes = nodes.map exprText := by
  induction nodes with
  | nil => rfl
  | cons node rest ih => simp [argTexts, ih, exprText]

end Node

end HindiScript
