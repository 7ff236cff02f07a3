import HindiScript.Token.Scan
import HindiScript.Tree.Basic

/-!
# Reading a tree from tokens

Reading never fails: a part that is missing or malformed becomes `Node.missing`, and a token that
fits nowhere is passed over.

Each rule of the grammar takes at least one token before it reads a part of its own kind again. So the
rules are written over readers for the inner parts (`Inner`), and `Inner.upTo n` ties them together for
lists of at most `n` tokens: with no token left every part is missing, and with one more token the
rules read their inner parts one level down.
-/

namespace HindiScript

/-- A reader takes tokens from the front of a list and leaves the others. -/
abbrev Parse := StateM (List Token)

namespace Parse

/-! ## Single tokens -/

/-- Takes a token, and gives its line. -/
def takeLine : Parse (Option Int) := fun ts => (ts.head?.map (·.line), ts.tail)

def front? : Parse (Option Lexeme) := fun ts => (ts.head?.map (·.lexeme), ts)

/-- Whether `lexeme` is at the front. -/
def sees (lexeme : Lexeme) : Parse Bool := fun ts => (ts.head?.map (·.lexeme) = some lexeme, ts)

/-- Takes the token at the front if it has the property `p`. -/
def takeIf (p : Token → Bool) : Parse (Option Token) := fun ts =>
  match ts with
  | [] => (none, [])
  | tok :: rest => if p tok then (some tok, rest) else (none, tok :: rest)

/-- Takes the token at the front if it is `lexeme`, and tells whether it was. -/
def accept (lexeme : Lexeme) : Parse Bool := fun ts =>
  match ts with
  | [] => (false, [])
  | tok :: rest => if tok.lexeme = lexeme then (true, rest) else (false, tok :: rest)

/-- Takes the name at the front. -/
def takeName : Parse (Option String) := fun ts =>
  match ts with
  | [] => (none, [])
  | tok :: rest =>
    match tok.lexeme with
    | .ident name => (some name, rest)
    | _ => (none, tok :: rest)

/-- Takes the string at the front. -/
def takeString : Parse (Option String) := fun ts =>
  match ts with
  | [] => (none, [])
  | tok :: rest =>
    match tok.lexeme with
    | .string text => (some text, rest)
    | _ => (none, tok :: rest)

def skipSemicolon : Parse Unit := do
  let _ ← accept (.punct .semicolon)

/-! ## Lists of names -/

/-- The names up to a closing parenthesis. A comma may follow each; any other token is passed over. -/
def paramNames : List Token → List String × List Token
  | [] => ([], [])
  | tok :: rest =>
    match tok.lexeme with
    | .punct .parenClose => ([], tok :: rest)
    | .ident name =>
      match rest with
      | [] => ([name], [])
      | comma :: rest' =>
        let (names, left) :=
          if comma.lexeme = .punct .comma then paramNames rest' else paramNames (comma :: rest')
        (name :: names, left)
    | _ => paramNames rest

/-- Parameters in parentheses; without an opening parenthesis there are none. -/
def params : Parse (List String) := do
  if ← accept (.punct .parenOpen) then
    let names ← paramNames
    let _ ← accept (.punct .parenClose)
    return names
  else
    return []

/-- Names and commas, up to the first other token. -/
def importNames : List Token → List String × List Token
  | [] => ([], [])
  | tok :: rest =>
    match tok.lexeme with
    | .ident name =>
      let (names, left) := importNames rest
      (name :: names, left)
    | .punct .comma => importNames rest
    | _ => ([], tok :: rest)

/-! ## Looking ahead for an arrow -/

/-- How many tokens, the opening parenthesis included, are looked at for the end of the parameters. -/
def arrowReach : Nat := 20

/-- Names and commas, fewer than the given number, then a closing parenthesis and an arrow. -/
def namesThenArrow : Nat → List Token → Bool
  | 0, _ => false
  | _, [] => false
  | n + 1, tok :: rest =>
    match tok.lexeme with
    | .punct .parenClose => rest.head?.map (·.lexeme) = some (.op "=>")
    | .ident _ | .punct .comma => namesThenArrow n rest
    | _ => false

/-- The token at the front opens the parameters of an arrow function, which end within `arrowReach` tokens. -/
def arrowAhead : Parse Bool := fun ts => (namesThenArrow (arrowReach - 1) ts.tail, ts)

end Parse

/-! ## Operators -/

/-- How tightly an operator binds its operands; what is no binary operator binds least. -/
def precedence (operator : String) : Nat :=
  if operator = "||" then 1
  else if operator = "&&" then 2
  else if operator ∈ ["==", "!="] then 3
  else if operator ∈ [">", "<", ">=", "<="] then 4
  else if operator ∈ ["+", "-"] then 5
  else if operator ∈ ["*", "/", "%"] then 6
  else 0

/-- The tightest binding of a binary operator. -/
def maxPrecedence : Nat := 6

/-- The name whose call fetches a resource. -/
def fetchName : String := "fetch"

/-! ## Rules -/

/-- Readers for the parts inside a construct. -/
structure Inner where
  /-- Statements, up to the end or, if told so, to a closing brace. -/
  statements (untilBrace : Bool) : Parse (List Node)
  /-- An expression. -/
  expr : Parse Node
  /-- An expression of operators that bind more tightly than the floor. -/
  operand (floor : Int) : Parse Node
  /-- The operators above the floor that follow a left operand, with their right operands. -/
  operators (floor : Int) (left : Node) : Parse Node
  /-- Arguments, behind the opening parenthesis. -/
  arguments : Parse (List Node)
  /-- The calls and members that follow an expression. -/
  chain (head : Node) : Parse Node
  /-- What follows the block of a condition: a further condition, or the last block. -/
  alternative : Parse Node

namespace Grammar

open Parse

def block (inner : Inner) : Parse Node := do
  if ← sees (.punct .braceOpen) then
    let line ← takeLine
    let body ← inner.statements true
    let _ ← accept (.punct .braceClose)
    return .block line body
  else
    return .missing

/-- What stands behind an arrow: a block or an expression. -/
def arrowBody (inner : Inner) : Parse Node := do
  if ← sees (.punct .braceOpen) then block inner else inner.expr

/-- Parameters, an arrow, and a block or an expression. The `line` is that of the first token. -/
def arrowFunction (inner : Inner) (line : Option Int) (isAsync : Bool) : Parse Node := do
  let names ← params
  if ← accept (.op "=>") then
    let body ← arrowBody inner
    return .arrow line (some names) body isAsync
  else
    return .missing

/-- `lao`, and arguments in parentheses or a single expression: a call that fetches. -/
def fetchCall (inner : Inner) : Parse Node := do
  let line ← takeLine
  if ← accept (.punct .parenOpen) then
    let args ← inner.arguments
    return .call line (.ident line fetchName) (some args)
  else
    let arg ← inner.expr
    return .call line (.ident line fetchName) (some (if arg.isMissing then [] else [arg]))

/-- The calls and members that follow the expression `head`. -/
def chain (inner : Inner) (head : Node) : Parse Node := fun ts =>
  match ts with
  | [] => (head, [])
  | tok :: rest =>
    match tok.lexeme with
    | .punct .parenOpen => (do
        let args ← inner.arguments
        inner.chain (.call (some tok.line) head (some args)) : Parse Node) rest
    | .punct .dot =>
      match rest with
      | [] => (head, tok :: rest)
      | property :: rest' =>
        match property.lexeme with
        | .ident name =>
          inner.chain (.member (some property.line) head (.ident (some property.line) name)) rest'
        | _ => (head, tok :: rest)
    | _ => (head, tok :: rest)

/-- An arrow function, if `arrowAhead` says so, or an expression in parentheses. The `line` is that of the opening
parenthesis. -/
def parenthesized (inner : Inner) (line : Option Int) : Parse Node := do
  if ← arrowAhead then
    arrowFunction inner line false
  else
    let _ ← takeLine
    let value ← inner.expr
    let _ ← accept (.punct .parenClose)
    return value

/-- A literal, a name with its calls and members, a call that fetches, an arrow function, or an
expression in parentheses. -/
def primary (inner : Inner) : Parse Node := do
  match ← get with
  | [] => return .missing
  | tok :: rest =>
    match tok.lexeme with
    | .number value =>
      set rest
      return .literal (some tok.line) (.number value)
    | .string text =>
      set rest
      return .literal (some tok.line) (.string text)
    | .keyword .aasynk =>
      if rest.head?.map (·.lexeme) = some (.punct .parenOpen) then
        set rest
        arrowFunction inner (some tok.line) true
      else
        return .missing
    | .keyword .lao => fetchCall inner
    | .ident name =>
      set rest
      chain inner (.ident (some tok.line) name)
    | .punct .parenOpen => parenthesized inner (some tok.line)
    | _ => return .missing

/-- `pratiksha` and its operand, or a primary expression. -/
def unary (inner : Inner) : Parse Node := do
  if ← sees (.keyword .pratiksha) then
    let line ← takeLine
    let value ← inner.operand maxPrecedence
    return .await line value
  else
    primary inner

/-- The operators above `floor` that follow the operand `left`, with their right operands. A right operand takes only
operators that bind more tightly, so equal ones group to the left. -/
def operators (inner : Inner) (floor : Int) (left : Node) : Parse Node := fun ts =>
  match ts with
  | [] => (left, [])
  | tok :: rest =>
    match tok.lexeme with
    | .op symbol =>
      if (precedence symbol : Int) ≤ floor then (left, tok :: rest)
      else (do
        let right ← inner.operand (precedence symbol)
        inner.operators floor (.binary (some tok.line) symbol left right) : Parse Node) rest
    | _ => (left, tok :: rest)

/-- An operand and the operators above `floor` that follow it. -/
def operand (inner : Inner) (floor : Int) : Parse Node := do
  let left ← unary inner
  if left.isMissing then return .missing else operators inner floor left

/-- An expression of operators, or an assignment to one; assignments group to the right. -/
def expr (inner : Inner) : Parse Node := do
  let left ← operand inner 0
  if left.isMissing then
    return .missing
  else if ← sees (.op "=") then
    let line ← takeLine
    let value ← inner.expr
    return .assign line left value
  else
    return left

/-- What follows the argument `arg`: a comma, which may be left out, and the other arguments. Where no argument could
be read and no comma stands, the list ends. -/
def behindArgument (inner : Inner) (arg : Node) : Parse (List Node) := do
  let comma ← accept (.punct .comma)
  if arg.isMissing then
    if comma then
      inner.arguments
    else
      let _ ← accept (.punct .parenClose)
      return []
  else
    let more ← inner.arguments
    return arg :: more

/-- Arguments, behind the opening parenthesis, with the closing one. -/
def arguments (inner : Inner) : Parse (List Node) := do
  match (← front?) with
  | none => return []
  | some (.punct .parenClose) =>
    let _ ← accept (.punct .parenClose)
    return []
  | some _ =>
    let arg ← expr inner
    behindArgument inner arg

/-! ### Statements -/

/-- The value of a declaration, behind the equals sign. -/
def initializer (inner : Inner) : Parse Node := do
  if ← accept (.op "=") then inner.expr else return .missing

/-- `ye` or `sthayi`, a name, and a value. -/
def declaration (inner : Inner) : Parse Node := do
  let isConstant ← sees (.keyword .sthayi)
  let line ← takeLine
  let name ← takeName
  let value ← initializer inner
  return .variableDecl line name value (if isConstant then "const" else "let")

/-- A declaration as a statement. -/
def variableStatement (inner : Inner) : Parse Node := do
  let node ← declaration inner
  skipSemicolon
  return node

/-- `bol` and the value to print. -/
def printStatement (inner : Inner) : Parse Node := do
  let line ← takeLine
  let value ← inner.expr
  skipSemicolon
  return .printStmt line value

/-- What follows the block of a condition: `nahitoh` with a further condition, which is a condition of
its own in the place of the last block, or `warna` with the last block. -/
def alternative (inner : Inner) : Parse Node := do
  match (← front?) with
  | some (.keyword .nahitoh) =>
    let line ← takeLine
    let test ← inner.expr
    let consequent ← block inner
    let alternate ← inner.alternative
    return .ifStmt line test consequent alternate
  | some (.keyword .warna) =>
    let _ ← takeLine
    block inner
  | _ => return .missing

/-- `agar`, a test, a block, and what follows it. -/
def ifStatement (inner : Inner) : Parse Node := do
  let line ← takeLine
  let test ← inner.expr
  let consequent ← block inner
  let alternate ← inner.alternative
  return .ifStmt line test consequent alternate

/-- `lagataar`, a test and a block. -/
def whileStatement (inner : Inner) : Parse Node := do
  let line ← takeLine
  let test ← inner.expr
  let body ← block inner
  return .whileStmt line test body

/-- What a loop does first: a declaration or an expression, or nothing before a semicolon. -/
def loopStart (inner : Inner) : Parse Node := do
  match (← front?) with
  | some (.keyword .ye) | some (.keyword .sthayi) => declaration inner
  | some (.punct .semicolon) => return .missing
  | _ => inner.expr

/-- A part of a loop, or nothing before the mark `stop` that ends it. -/
def loopPart (inner : Inner) (stop : Punct) : Parse Node := do
  if ← sees (.punct stop) then return .missing else inner.expr

/-- `jabtak`, the three parts of the loop in parentheses, each of which may be left out, and a block. -/
def forStatement (inner : Inner) : Parse Node := do
  let line ← takeLine
  if ← accept (.punct .parenOpen) then
    let init ← loopStart inner
    skipSemicolon
    let test ← loopPart inner .semicolon
    skipSemicolon
    let update ← loopPart inner .parenClose
    let _ ← accept (.punct .parenClose)
    let body ← block inner
    return .forStmt line init test update body
  else
    let body ← block inner
    return .forStmt line .missing .missing .missing body

/-- `wapas` and the value to return. -/
def returnStatement (inner : Inner) : Parse Node := do
  let line ← takeLine
  let value ← inner.expr
  skipSemicolon
  return .returnStmt line value

/-- `ruk`. -/
def breakStatement : Parse Node := do
  let line ← takeLine
  skipSemicolon
  return .breakStmt line

/-- `chhod`. -/
def continueStatement : Parse Node := do
  let line ← takeLine
  skipSemicolon
  return .continueStmt line

/-- `karya`, which `aasynk` may come before, a name, parameters and a block. -/
def functionDeclaration (inner : Inner) : Parse Node := do
  let line := (← get).head?.map (·.line)
  let isAsync ← accept (.keyword .aasynk)
  let _ ← accept (.keyword .karya)
  let name ← takeName
  let names ← params
  let body ← block inner
  return .functionDecl line name (some names) body isAsync

/-- `aayaat` and the source, between which names in braces and `se` may stand. -/
def importStatement : Parse Node := do
  let line ← takeLine
  if ← accept (.punct .braceOpen) then
    let names ← importNames
    let _ ← accept (.punct .braceClose)
    let _ ← accept (.keyword .se)
    let source ← takeString
    skipSemicolon
    return .importDecl line source (some names)
  else
    let source ← takeString
    skipSemicolon
    return .importDecl line source none

/-- `niryaat` and a declaration or a name. -/
def exportStatement (inner : Inner) : Parse Node := do
  let line ← takeLine
  match (← front?) with
  | some (.keyword .ye) | some (.keyword .sthayi) =>
    let declared ← variableStatement inner
    return .exportDecl line declared none
  | some (.keyword .karya) | some (.keyword .aasynk) =>
    let declared ← functionDeclaration inner
    return .exportDecl line declared none
  | some (.ident name) =>
    let _ ← takeLine
    skipSemicolon
    return .exportDecl line .missing (some [name])
  | _ => return .exportDecl line .missing none

/-- An expression as a statement. -/
def expressionStatement (inner : Inner) : Parse Node := do
  let line := (← get).head?.map (·.line)
  let value ← expr inner
  skipSemicolon
  return if value.isMissing then .missing else .exprStmt line value

/-- A statement. A lone semicolon is none, and is taken. -/
def statement (inner : Inner) : Parse Node := do
  match ← get with
  | [] => return .missing
  | tok :: rest =>
    match tok.lexeme with
    | .keyword .ye | .keyword .sthayi => variableStatement inner
    | .keyword .bol => printStatement inner
    | .keyword .agar => ifStatement inner
    | .keyword .lagataar => whileStatement inner
    | .keyword .jabtak => forStatement inner
    | .keyword .wapas => returnStatement inner
    | .keyword .ruk => breakStatement
    | .keyword .chhod => continueStatement
    | .keyword .karya => functionDeclaration inner
    | .keyword .aayaat => importStatement
    | .keyword .niryaat => exportStatement inner
    | .keyword .aasynk =>
      if rest.head?.map (·.lexeme) = some (.keyword .karya) then functionDeclaration inner
      else expressionStatement inner
    | .punct .braceOpen => block inner
    | .punct .semicolon =>
      set rest
      return .missing
    | _ => expressionStatement inner

/-- Statements, up to the end or, if `untilBrace`, to a closing brace. Where no statement can be read, one token is
passed over. -/
def statements (inner : Inner) (untilBrace : Bool) : Parse (List Node) := fun ts =>
  match ts with
  | [] => ([], [])
  | tok :: rest =>
    if untilBrace && tok.lexeme = .punct .braceClose then ([], tok :: rest)
    else
      let (node, left) := statement inner (tok :: rest)
      if node.isMissing then
        inner.statements untilBrace (if left.length = (tok :: rest).length then rest else left)
      else
        let (more, left) := inner.statements untilBrace left
        (node :: more, left)

end Grammar

namespace Inner

def ofNone : Inner where
  statements _ := pure []
  expr := pure .missing
  operand _ := pure .missing
  operators _ left := pure left
  arguments := pure []
  chain head := pure head
  alternative := pure .missing

/-- The readers of a list with one token more, each the rule of its name with `inner` inside. -/
def step (inner : Inner) : Inner where
  statements := Grammar.statements inner
  expr := Grammar.expr inner
  operand := Grammar.operand inner
  operators := Grammar.operators inner
  arguments := Grammar.arguments inner
  chain := Grammar.chain inner
  alternative := Grammar.alternative inner

/-- The readers of a list with at most `n` tokens: `step` as often. -/
def upTo (n : Nat) : Inner := n.repeat step ofNone

/-- Reads by `rule` with as many inner readers (`upTo`) as there are tokens. -/
def enough {α : Type} (rule : Inner → Parse α) : Parse α := fun ts => rule (upTo ts.length) ts

end Inner

/-! ## Readers -/

namespace Parse

def statement : Parse Node := Inner.enough Grammar.statement

/-- Statements, up to the end or, if told so, to a closing brace. -/
def statements (untilBrace : Bool) : Parse (List Node) :=
  Inner.enough fun inner => Grammar.statements inner untilBrace

def block : Parse Node := Inner.enough Grammar.block

def expr : Parse Node := Inner.enough Grammar.expr

/-- An expression of operators that bind more tightly than the floor. -/
def operand (floor : Int) : Parse Node := Inner.enough fun inner => Grammar.operand inner floor

/-- The operators above the floor that follow a left operand, with their right operands. -/
def operators (floor : Int) (left : Node) : Parse Node :=
  Inner.enough fun inner => Grammar.operators inner floor left

/-- `pratiksha` and its operand, or a primary expression. -/
def unary : Parse Node := Inner.enough Grammar.unary

/-- An expression without operators around it. -/
def primary : Parse Node := Inner.enough Grammar.primary

/-- The calls and members that follow an expression. -/
def chain (head : Node) : Parse Node := Inner.enough fun inner => Grammar.chain inner head

/-- A call that fetches. -/
def fetchCall : Parse Node := Inner.enough Grammar.fetchCall

/-- Arguments, behind the opening parenthesis. -/
def arguments : Parse (List Node) := Inner.enough Grammar.arguments

/-- What follows the block of a condition. -/
def alternative : Parse Node := Inner.enough Grammar.alternative

/-- A whole program. -/
def program : Parse Node := do
  let body ← statements false
  return .program none body

end Parse

/-- The program that `tokens` make. -/
def parse (tokens : List Token) : Node := (Parse.program tokens).1

/-- The program that `text` makes, unless it holds a number that is too long. -/
def parseText (text : String) : Except Cursor.ReadError Node := (tokenize text).map parse

end HindiScript
