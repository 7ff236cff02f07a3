import HindiScript.Tree.Grammar
import HindiScript.Typing.Finding
import HindiScript.Typing.Scope
import HindiScript.Typing.Spec

/-!
# The type check

A best-effort check of a program against a spec. An expression only adds findings; a statement also adds
bindings to the scope it stands in and hands the types it returns to the function around it. What a block
binds ends with the block: `Outcome.env` of a statement differs from the environment before it in its
innermost scope only (`outer_checkStatement`), and so does that of statements in a row (`outer_checkEach`).
-/

namespace HindiScript.Typing

/-- Operators that calculate. -/
def isArithmetic (operator : String) : Bool := operator ∈ ["+", "-", "*", "/", "%"]

/-- Operators that compare. -/
def isComparison (operator : String) : Bool := operator ∈ ["==", "!=", ">", "<", ">=", "<="]

/-- Operators that join conditions. -/
def isLogical (operator : String) : Bool := operator ∈ ["&&", "||"]

/-! ## Types of expressions -/

def literalType : Literal → String
  | .null => any
  | .boolean _ => boolean
  | .number _ => number
  | .string _ => string

/-- The type of what an arithmetic `operator` makes of operands of these types. -/
def arithmeticType (operator left right : String) : String :=
  if operator = "+" && (left = string || right = string) then string
  else if left = number && right = number then number
  else any

/-- The type that a call of `name` has: what the signature in `spec` returns, if it returns something. -/
def callType (spec : Spec) (name : String) : String :=
  match spec.funcs.find? name with
  | some signature => if signature.returns = void then any else signature.returns
  | none => any

/-- The type that `name` is bound to, and `any` if it is to none. -/
def nameType (env : Env) (name : String) : String :=
  match env.lookup name with
  | some type => if type = "" then any else type
  | none => any

/-- The type of an expression, as far as it can be told. -/
def infer (spec : Spec) (env : Env) : Node → String
  | .literal _ value => literalType value
  | .ident _ name => nameType env name
  | .binary _ operator left right =>
    if isComparison operator || isLogical operator then boolean
    else if isArithmetic operator then
      arithmeticType operator (infer spec env left) (infer spec env right)
    else any
  | .assign _ _ value => infer spec env value
  | .arrow .. => function
  | .call _ (.ident _ name) _ => callType spec name
  | _ => any

/-! ## Single rules -/

/-- An arithmetic operator takes two numbers; `+` also takes a string on either side. -/
def operandFindings (operator left right : String) : Findings :=
  if isArithmetic operator && !(operator = "+" && (left = string || right = string))
      && !(left = number && right = number) && left ≠ any && right ≠ any then
    .error (.wrongOperands operator left right)
  else {}

/-- A name that is used should be declared. -/
def useFindings (env : Env) (name : String) : Findings :=
  if (env.lookup name).isNone then .warning (.undeclaredUse name) else {}

/-- A variable takes only what its type in `spec` `allows`. -/
def valueFindings (spec : Spec) (name inferred : String) : Findings :=
  match spec.vars.find? name with
  | some declared =>
    if allows declared inferred then {} else .error (.wrongValue name declared inferred)
  | none => {}

/-- A name that is assigned to should be declared, and takes only what its type allows. -/
def assignmentFindings (spec : Spec) (env : Env) (name inferred : String) : Findings :=
  (if (env.lookup name).isNone then Findings.warning (.undeclaredAssignment name) else {})
    ++ valueFindings spec name inferred

/-- A test is boolean, as far as its type can be told; else it gets the `warning` of its place. -/
def testFindings (warning : String → Warning) (inferred : String) : Findings :=
  if inferred = boolean || inferred = any then {} else .warning (warning inferred)

/-- The type that a declared variable is bound to: the one in `spec` if it does not allow the `inferred` one or
nothing could be inferred, and else the `inferred` one. -/
def boundType (spec : Spec) (name inferred : String) : String :=
  match spec.vars.find? name with
  | some declared => if !allows declared inferred || inferred = any then declared else inferred
  | none => inferred

/-- `env` with the variable declared, under its `boundType`. -/
def declareVariable (spec : Spec) (env : Env) (name inferred : String) : Env :=
  (env.addVariable name).declare name (some (boundType spec name inferred))

/-- A variable is declared once in a scope, with a value that its type allows. -/
def declarationFindings (spec : Spec) (env : Env) (name inferred : String) : Findings :=
  (if name ∈ env.scope.declared then Findings.error (.redeclared name) else {})
    ++ valueFindings spec name inferred

/-- The names of the functions that statements declare. They are bound before the first statement. -/
def functionNames (statements : List Node) : List String :=
  statements.filterMap fun statement =>
    let declared :=
      match statement with
      | .exportDecl _ declaration _ => declaration
      | _ => statement
    match declared with
    | .functionDecl _ (some name) _ _ _ => if name = "" then none else some name
    | _ => none

/-- The environment in which `statements` are checked: `env` with their `functionNames` bound. -/
def hoist (env : Env) (statements : List Node) : Env :=
  env.declareAll ((functionNames statements).map (·, function))

def signatureOf (spec : Spec) (name : Option String) : Option Signature :=
  match name with
  | some name => if name = "" then none else spec.funcs.find? name
  | none => none

/-- The environment of the body of a function: a scope in `env` with `params` bound to what `signature` says. -/
def paramEnv (env : Env) (signature : Option Signature) (params : List String) : Env :=
  env.child.declareAll (params.map fun param =>
    (param, (signature.bind (·.params.find? param)).getD any))

/-- A function has as many parameters as its signature. -/
def paramFindings (name : String) (signature : Option Signature) (params : List String) : Findings :=
  match signature with
  | some signature =>
    if signature.params.size = params.length then {}
    else .error (.paramCount name signature.params.size params.length)
  | none => {}

/-- A function returns what its `signature` says, in each of the `returned` types. -/
def returnFindings (name : String) (signature : Option Signature) (returned : List String) : Findings :=
  match signature with
  | some signature =>
    if signature.returns = "" || signature.returns = void then {}
    else if returned.isEmpty then .error (.noReturn name signature.returns)
    else
      let wrong := returned.filter (!allows signature.returns ·)
      { errors := wrong.map (.wrongReturn name signature.returns) }
  | none => {}

/-- The names that an export lists should be declared. -/
def exportFindings (env : Env) (names : List String) : Findings :=
  { warnings := (names.filter fun name => (env.lookup name).isNone).map .undeclaredExport }

/-! ## Kinds of findings -/

section

variable (spec : Spec) (env : Env) (name inferred : String) (signature : Option Signature)

@[simp] theorem warnings_operandFindings (operator left right : String) :
    (operandFindings operator left right).warnings = [] := by
  unfold operandFindings
  split <;> rfl

@[simp] theorem errors_useFindings : (useFindings env name).errors = [] := by
  unfold useFindings
  split <;> rfl

@[simp] theorem warnings_valueFindings : (valueFindings spec name inferred).warnings = [] := by
  unfold valueFindings
  split
  · split <;> rfl
  · rfl

@[simp] theorem errors_assignmentFindings :
    (assignmentFindings spec env name inferred).errors = (valueFindings spec name inferred).errors := by
  unfold assignmentFindings
  split <;> rfl

@[simp] theorem errors_testFindings (warning : String → Warning) : (testFindings warning inferred).errors = [] := by
  unfold testFindings
  split <;> rfl

@[simp] theorem warnings_declarationFindings : (declarationFindings spec env name inferred).warnings = [] := by
  unfold declarationFindings
  split <;> simp [Findings.error]

@[simp] theorem warnings_paramFindings (params : List String) :
    (paramFindings name signature params).warnings = [] := by
  unfold paramFindings
  split
  · split <;> rfl
  · rfl

@[simp] theorem warnings_returnFindings (returned : List String) :
    (returnFindings name signature returned).warnings = [] := by
  unfold returnFindings
  split
  · split
    · rfl
    · split <;> rfl
  · rfl

@[simp] theorem errors_exportFindings (names : List String) : (exportFindings env names).errors = [] := rfl

end

/-! ## Programs -/

/-- What checking statements gives: the environment after them, the findings, and the returns that belong to
the function around them, each with the type it returns. -/
structure Outcome where
  env : Env
  findings : Findings := {}
  returns : List (Node × String) := []

def isVariable : Node → Bool
  | .variableDecl .. => true
  | _ => false

def isCondition : Node → Bool
  | .ifStmt .. => true
  | _ => false

def isBlock : Node → Bool
  | .block .. => true
  | _ => false

def identName? : Node → Option String
  | .ident _ name => some name
  | _ => none

mutual

/-- The findings of an expression. -/
def checkExpr (spec : Spec) (env : Env) : Node → Findings
  | .binary _ operator left right =>
    operandFindings operator (infer spec env left) (infer spec env right)
      ++ checkExpr spec env left ++ checkExpr spec env right
  | .ident _ name => useFindings env name
  | .assign _ target value =>
    checkExpr spec env value
      ++ match identName? target with
        | some name => assignmentFindings spec env name (infer spec env value)
        | none => checkExpr spec env target
  | .call _ callee none => if identName? callee = some fetchName then {} else checkExpr spec env callee
  | .call _ callee (some args) =>
    (if identName? callee = some fetchName then {} else checkExpr spec env callee)
      ++ checkArgs spec env args
  | .member _ object _ => checkExpr spec env object
  | .await _ value => checkExpr spec env value
  | .arrow _ params body _ =>
    let inner := paramEnv env none (params.getD [])
    if isBlock body then (checkBody spec true inner body).findings else checkExpr spec inner body
  | _ => {}

def checkArgs (spec : Spec) (env : Env) : List Node → Findings
  | [] => {}
  | arg :: rest => checkExpr spec env arg ++ checkArgs spec env rest

/-- The outcome of a statement. `inFunction` tells whether a function is around it. -/
def checkStatement (spec : Spec) (inFunction : Bool) (env : Env) : Node → Outcome
  | .variableDecl _ name value _ =>
    let found := checkExpr spec env value
    let inferred := infer spec env value
    match name with
    | some name =>
      if name = "" then { env, findings := found }
      else
        { env := declareVariable spec env name inferred
          findings := found ++ declarationFindings spec env name inferred }
    | none => { env, findings := found }
  | .functionDecl _ name params body _ =>
    let params := params.getD []
    let signature := signatureOf spec name
    let inside := checkBody spec true (paramEnv env signature params) body
    { env
      findings := paramFindings (name.getD "") signature params ++ inside.findings
        ++ returnFindings (name.getD "") signature (inside.returns.map (·.2)) }
  | .block _ body =>
    let inside := checkEach spec inFunction (hoist env.child body) body
    { inside with env }
  | .ifStmt _ test consequent alternate =>
    let first := checkBody spec inFunction env.child consequent
    let other :=
      if isCondition alternate then checkStatement spec inFunction env alternate
      else checkBody spec inFunction env.child alternate
    { env
      findings := checkExpr spec env test ++ testFindings .ifTest (infer spec env test) ++ first.findings
        ++ other.findings
      returns := first.returns ++ other.returns }
  | .whileStmt _ test body =>
    let inside := checkBody spec inFunction env.child body
    { env
      findings := checkExpr spec env test ++ testFindings .whileTest (infer spec env test)
        ++ inside.findings
      returns := inside.returns }
  | .forStmt _ init test update body =>
    let start :=
      if isVariable init then checkStatement spec inFunction env.child init
      else { env := env.child, findings := checkExpr spec env.child init }
    let inside := checkBody spec inFunction start.env.child body
    { env
      findings := start.findings ++ checkExpr spec start.env test
        ++ testFindings .forTest (infer spec start.env test) ++ checkExpr spec start.env update
        ++ inside.findings
      returns := inside.returns }
  | .returnStmt line value =>
    let found := checkExpr spec env value
    if inFunction then
      { env, findings := found, returns := [(.returnStmt line value, infer spec env value)] }
    else { env, findings := found ++ .warning .returnOutside }
  | .exprStmt _ value => { env, findings := checkExpr spec env value }
  | .printStmt _ value => { env, findings := checkExpr spec env value }
  | .importDecl _ _ names => { env := env.declareAll ((names.getD []).map (·, any)) }
  | .exportDecl _ declaration names =>
    let declared := checkStatement spec inFunction env declaration
    { declared with findings := declared.findings ++ exportFindings declared.env (names.getD []) }
  | _ => { env }

/-- The outcome of the statements of a block, in the innermost scope of `env`. -/
def checkBody (spec : Spec) (inFunction : Bool) (env : Env) : Node → Outcome
  | .block _ body => checkEach spec inFunction (hoist env body) body
  | .program _ body => checkEach spec inFunction (hoist env body) body
  | _ => { env }

/-- The outcome of statements, one after the other. -/
def checkEach (spec : Spec) (inFunction : Bool) (env : Env) : List Node → Outcome
  | [] => { env }
  | statement :: rest =>
    let first := checkStatement spec inFunction env statement
    let later := checkEach spec inFunction first.env rest
    { env := later.env
      findings := first.findings ++ later.findings
      returns := first.returns ++ later.returns }

end

section

variable (spec : Spec) (inFunction : Bool) (env : Env) (line : Option Int)

theorem checkExpr_binary (operator : String) (left right : Node) :
    checkExpr spec env (.binary line operator left right) =
      operandFindings operator (infer spec env left) (infer spec env right) ++ checkExpr spec env left
        ++ checkExpr spec env right := rfl

theorem checkExpr_assign (target value : Node) :
    checkExpr spec env (.assign line target value) =
      checkExpr spec env value ++ match identName? target with
        | some name => assignmentFindings spec env name (infer spec env value)
        | none => checkExpr spec env target := rfl

theorem checkExpr_call (callee : Node) (args : List Node) :
    checkExpr spec env (.call line callee (some args)) =
      (if identName? callee = some fetchName then {} else checkExpr spec env callee) ++ checkArgs spec env args := rfl

theorem checkExpr_arrow (params : Option (List String)) (body : Node) (isAsync : Bool) :
    checkExpr spec env (.arrow line params body isAsync) =
      let inner := paramEnv env none (params.getD [])
      if isBlock body then (checkBody spec true inner body).findings else checkExpr spec inner body := rfl

theorem checkArgs_cons (arg : Node) (rest : List Node) :
    checkArgs spec env (arg :: rest) = checkExpr spec env arg ++ checkArgs spec env rest := rfl

theorem checkStatement_functionDecl (name : Option String) (params : Option (List String)) (body : Node)
    (isAsync : Bool) :
    checkStatement spec inFunction env (.functionDecl line name params body isAsync) =
      let signature := signatureOf spec name
      let inside := checkBody spec true (paramEnv env signature (params.getD [])) body
      ⟨env, paramFindings (name.getD "") signature (params.getD []) ++ inside.findings
        ++ returnFindings (name.getD "") signature (inside.returns.map (·.2)), []⟩ := rfl

theorem checkStatement_ifStmt (test consequent alternate : Node) :
    checkStatement spec inFunction env (.ifStmt line test consequent alternate) =
      let first := checkBody spec inFunction env.child consequent
      let other := if isCondition alternate then checkStatement spec inFunction env alternate
        else checkBody spec inFunction env.child alternate
      ⟨env, checkExpr spec env test ++ testFindings .ifTest (infer spec env test) ++ first.findings
        ++ other.findings, first.returns ++ other.returns⟩ := rfl

theorem checkStatement_whileStmt (test body : Node) :
    checkStatement spec inFunction env (.whileStmt line test body) =
      let inside := checkBody spec inFunction env.child body
      ⟨env, checkExpr spec env test ++ testFindings .whileTest (infer spec env test) ++ inside.findings,
        inside.returns⟩ := rfl

theorem checkStatement_returnStmt (value : Node) :
    checkStatement spec inFunction env (.returnStmt line value) =
      if inFunction then
        ⟨env, checkExpr spec env value, [(.returnStmt line value, infer spec env value)]⟩
      else ⟨env, checkExpr spec env value ++ .warning .returnOutside, []⟩ := rfl

theorem checkStatement_exportDecl (declaration : Node) (names : Option (List String)) :
    checkStatement spec inFunction env (.exportDecl line declaration names) =
      let declared := checkStatement spec inFunction env declaration
      ⟨declared.env, declared.findings ++ exportFindings declared.env (names.getD []), declared.returns⟩ := rfl

theorem checkEach_cons (statement : Node) (rest : List Node) :
    checkEach spec inFunction env (statement :: rest) =
      let first := checkStatement spec inFunction env statement
      let later := checkEach spec inFunction first.env rest
      ⟨later.env, first.findings ++ later.findings, first.returns ++ later.returns⟩ := rfl

end

/-! ## The scopes around -/

section

variable (spec : Spec) (inFunction : Bool)

/-- A statement leaves the scopes around its own (`Env.outer`) as they were. -/
theorem outer_checkStatement (env : Env) (node : Node) :
    (checkStatement spec inFunction env node).env.outer = env.outer := by
  cases node with
  | variableDecl line name value kind =>
    unfold checkStatement
    cases name with
    | none => rfl
    | some name =>
      dsimp only
      split <;> rfl
  | returnStmt line value =>
    rw [checkStatement_returnStmt]
    split <;> rfl
  | importDecl line path names => exact outer_declareAll ..
  | exportDecl line declaration names =>
    rw [checkStatement_exportDecl]
    exact outer_checkStatement env declaration
  -- all others give back the environment itself: what they declare is in a scope of their own
  | _ => rfl

theorem outer_checkEach (env : Env) (statements : List Node) :
    (checkEach spec inFunction env statements).env.outer = env.outer := by
  induction statements generalizing env with
  | nil => rfl
  | cons statement rest ih =>
    rw [checkEach_cons]
    exact (ih _).trans (outer_checkStatement spec inFunction env statement)

end

/-- The outermost environment: the variables of `spec` are bound. -/
def globalEnv (spec : Spec) : Env := Env.declareAll {} spec.vars.entries

/-- The findings for a program; any other node has none. -/
def check (spec : Spec) (node : Node) : Findings :=
  match node with
  | .program .. => (checkBody spec false (globalEnv spec) node).findings
  | _ => {}

end HindiScript.Typing
