import HindiScript.Typing.Check

/-!
# What is declared in a block stays there

Whatever the statements of a block declare, hoist, import or declare again ends with the block. So the findings
for a program are those for the statements before the one with the block, those for this one, and those for the
statements behind it, and another body of the block changes only what is found in the block itself
(`check_enclosed`). The one thing that a block hands on is the types that it returns, to the function around it.
-/

namespace HindiScript.Typing

/-! ## Blocks in a tree -/

/-- Where the returns in a block go. -/
inductive Returns where
  /-- To what stands around the tree. -/
  | outward
  /-- Nowhere: they are those of an arrow function. -/
  | dropped
  /-- To a declared function that has the block as its body. -/
  | own (name : Option String)

namespace Returns

/-- Where the returns go when the tree is the body of an arrow function. -/
def inArrow : Returns → Returns
  | outward => dropped
  | r => r

/-- What is handed on of the types that a block returns. -/
def passed : Returns → List String → List String
  | outward, returned => returned
  | _, _ => []

/-- What a function finds about the types that its body returns. -/
def findings (spec : Spec) : Returns → List String → Findings
  | own name, returned => returnFindings (name.getD "") (signatureOf spec name) returned
  | _, _ => {}

theorem passed_inArrow (r : Returns) (returned : List String) : r.inArrow.passed returned = [] := by
  cases r <;> rfl

theorem passed_eq_nil {r : Returns} (h : r ≠ outward) (returned : List String) : r.passed returned = [] := by
  cases r with
  | outward => exact absurd rfl h
  | _ => rfl

theorem findings_inArrow (spec : Spec) (r : Returns) : r.inArrow.findings spec = r.findings spec := by
  cases r <;> rfl

end Returns

/-- The kinds of trees that a block can stand in. -/
inductive Site where
  | expr
  | block
  | condition
  | statement

/-- The function puts statements into a block of a tree, as its whole body, and leaves the rest of the tree as it is.
-/
inductive Encloses : Site → Returns → (List Node → Node) → Prop where
  -- Blocks
  | body {line} : Encloses .block .outward fun body => .block line body
  | nested {line before after r fill} : Encloses .statement r fill →
    Encloses .block r fun body => .block line (before ++ fill body :: after)
  -- Statements
  | ofBlock {r fill} : Encloses .block r fill → Encloses .statement r fill
  | ofCondition {r fill} : Encloses .condition r fill → Encloses .statement r fill
  | ifTest {line consequent alternate r fill} : Encloses .expr r fill →
    Encloses .condition r fun body => .ifStmt line (fill body) consequent alternate
  | consequent {line test alternate r fill} : Encloses .block r fill →
    Encloses .condition r fun body => .ifStmt line test (fill body) alternate
  | elseBlock {line test consequent r fill} : Encloses .block r fill →
    Encloses .condition r fun body => .ifStmt line test consequent (fill body)
  | elseIf {line test consequent r fill} : Encloses .condition r fill →
    Encloses .condition r fun body => .ifStmt line test consequent (fill body)
  | whileTest {line inner r fill} : Encloses .expr r fill →
    Encloses .statement r fun body => .whileStmt line (fill body) inner
  | whileBody {line test r fill} : Encloses .block r fill →
    Encloses .statement r fun body => .whileStmt line test (fill body)
  | forVariable {line line' name kind test update inner r fill} : Encloses .expr r fill →
    Encloses .statement r fun body => .forStmt line (.variableDecl line' name (fill body) kind) test update inner
  | forStart {line test update inner r fill} : Encloses .expr r fill →
    Encloses .statement r fun body => .forStmt line (fill body) test update inner
  | forTest {line init update inner r fill} : Encloses .expr r fill →
    Encloses .statement r fun body => .forStmt line init (fill body) update inner
  | forUpdate {line init test inner r fill} : Encloses .expr r fill →
    Encloses .statement r fun body => .forStmt line init test (fill body) inner
  | forBody {line init test update r fill} : Encloses .block r fill →
    Encloses .statement r fun body => .forStmt line init test update (fill body)
  | variableDecl {line name kind r fill} : Encloses .expr r fill →
    Encloses .statement r fun body => .variableDecl line name (fill body) kind
  | printStmt {line r fill} : Encloses .expr r fill → Encloses .statement r fun body => .printStmt line (fill body)
  | returnStmt {line r fill} : Encloses .expr r fill → Encloses .statement r fun body => .returnStmt line (fill body)
  | exprStmt {line r fill} : Encloses .expr r fill → Encloses .statement r fun body => .exprStmt line (fill body)
  | functionBody {line line' name params isAsync} :
    Encloses .statement (.own name) fun body => .functionDecl line name params (.block line' body) isAsync
  | inFunction {line name params isAsync r fill} : r ≠ .outward → Encloses .block r fill →
    Encloses .statement r fun body => .functionDecl line name params (fill body) isAsync
  | exportDecl {line names r fill} : Encloses .statement r fill →
    Encloses .statement r fun body => .exportDecl line (fill body) names
  -- Expressions
  | left {line operator right r fill} : Encloses .expr r fill →
    Encloses .expr r fun body => .binary line operator (fill body) right
  | right {line operator left r fill} : Encloses .expr r fill →
    Encloses .expr r fun body => .binary line operator left (fill body)
  | target {line value r fill} : Encloses .expr r fill → Encloses .expr r fun body => .assign line (fill body) value
  | value {line target r fill} : Encloses .expr r fill → Encloses .expr r fun body => .assign line target (fill body)
  | callee {line args r fill} : Encloses .expr r fill → Encloses .expr r fun body => .call line (fill body) args
  | argument {line callee before after r fill} : Encloses .expr r fill →
    Encloses .expr r fun body => .call line callee (some (before ++ fill body :: after))
  | object {line property r fill} : Encloses .expr r fill →
    Encloses .expr r fun body => .member line (fill body) property
  | await {line r fill} : Encloses .expr r fill → Encloses .expr r fun body => .await line (fill body)
  | arrowExpr {line params isAsync r fill} : Encloses .expr r fill →
    Encloses .expr r fun body => .arrow line params (fill body) isAsync
  | arrowBlock {line params isAsync r fill} : Encloses .block r fill →
    Encloses .expr r.inArrow fun body => .arrow line params (fill body) isAsync

namespace Encloses

variable {r : Returns} {fill : List Node → Node}

theorem isBlock_eq (h : Encloses .block r fill) (body : List Node) : isBlock (fill body) = true := by
  cases h <;> rfl

theorem block_isCondition (h : Encloses .block r fill) (body : List Node) : isCondition (fill body) = false := by
  cases h <;> rfl

theorem isCondition_eq (h : Encloses .condition r fill) (body : List Node) : isCondition (fill body) = true := by
  cases h <;> rfl

/-- An expression with a block in it is no name, no block and no declaration. -/
theorem kinds_eq (h : Encloses .expr r fill) (body : List Node) :
    identName? (fill body) = none ∧ isBlock (fill body) = false ∧ isVariable (fill body) = false := by
  cases h <;> exact ⟨rfl, rfl, rfl⟩

theorem ne_outward (h : Encloses .expr r fill) : r ≠ .outward := by
  generalize hs : Site.expr = site at h
  induction h with
  | @arrowBlock _ _ _ r => cases r <;> simp [Returns.inArrow]
  | left _ ih | right _ ih | target _ ih | value _ ih | callee _ ih | argument _ ih | object _ ih | await _ ih
  | arrowExpr _ ih => exact ih hs
  | _ => cases hs

/-- `infer` does not depend on the blocks in an expression. -/
theorem infer_eq (h : Encloses .expr r fill) (spec : Spec) (env : Env) (body body' : List Node) :
    infer spec env (fill body) = infer spec env (fill body') := by
  generalize hs : Site.expr = site at h
  induction h with
  | left _ ih | right _ ih =>
    simp only [infer, ih hs]
  | value _ ih => simp only [infer, ih hs]
  | @callee _ _ _ fill h =>
    cases hs
    have hname (b : List Node) := (h.kinds_eq b).1
    have hcall (b : List Node) (line args) : infer spec env (.call line (fill b) args) = any := by
      have := hname b
      generalize fill b = e at this
      cases e with
      | ident => cases this
      | _ => rfl
    rw [hcall, hcall]
  | argument => rename_i callee _ _ _ _ _ _; cases callee <;> rfl
  | target | object | await | arrowExpr | arrowBlock => rfl
  | _ => cases hs

/-- `functionNames` do not depend on the blocks in statements. -/
theorem functionNames_eq (h : Encloses .statement r fill) (before after : List Node) (body body' : List Node) :
    functionNames (before ++ fill body :: after) = functionNames (before ++ fill body' :: after) := by
  have hone : functionNames [fill body] = functionNames [fill body'] := by
    have hfunction (line name params isAsync) (e e' : Node) :
        functionNames [.functionDecl line name params e isAsync] =
          functionNames [.functionDecl line name params e' isAsync] := by
      cases name <;> rfl
    have hexported (line line' name params isAsync names) (e e' : Node) :
        functionNames [.exportDecl line' (.functionDecl line name params e isAsync) names] =
          functionNames [.exportDecl line' (.functionDecl line name params e' isAsync) names] := by
      cases name <;> rfl
    cases h with
    | ofBlock h | ofCondition h => cases h <;> rfl
    | functionBody | inFunction => exact hfunction ..
    | exportDecl h =>
      cases h with
      | ofBlock h | ofCondition h => cases h <;> rfl
      | functionBody | inFunction => exact hexported ..
      | _ => rfl
    | _ => rfl
  have hsplit (e : Node) :
      functionNames (before ++ e :: after) = functionNames before ++ (functionNames [e] ++ functionNames after) := by
    simp only [functionNames, ← List.filterMap_append, List.singleton_append]
  rw [hsplit, hsplit, hone]

end Encloses

/-! ## Outcomes around a block -/

/-- Statements are checked in the environment that those before them leave. -/
theorem checkEach_append (spec : Spec) (inFunction : Bool) (env : Env) (before after : List Node) :
    checkEach spec inFunction env (before ++ after) =
      let first := checkEach spec inFunction env before
      let later := checkEach spec inFunction first.env after
      ⟨later.env, first.findings ++ later.findings, first.returns ++ later.returns⟩ := by
  induction before generalizing env with
  | nil => rfl
  | cons statement rest ih =>
    simp only [List.cons_append, checkEach_cons, ih, Findings.append_assoc, List.append_assoc]

section

variable {spec : Spec} {r : Returns} {o o' : List Node → Outcome}

def Outcome.returned (o : Outcome) : List String := o.returns.map (·.2)

/-- The outcome of the statements of `body`, hoisted in the innermost scope of `env`. -/
def checkInside (spec : Spec) (inFunction : Bool) (env : Env) (body : List Node) : Outcome :=
  checkEach spec inFunction (hoist env body) body

/-- The findings of the statements of `body` and, directly behind them, those on what a function returns that has the
block as its body (`Returns.findings`). -/
def insideFindings (spec : Spec) (r : Returns) (inFunction : Bool) (env : Env) (body : List Node) : Findings :=
  (checkInside spec inFunction env body).findings ++ r.findings spec (checkInside spec inFunction env body).returned

/-- Of the outcome `o`, only what is found in a block and the types that it hands on depend on the body of the block.
-/
def Framed (spec : Spec) (r : Returns) (o : List Node → Outcome) : Prop :=
  ∃ (env inner : Env) (inFunction : Bool) (front back : Findings) (before behind : List String), ∀ body,
    (o body).env = env ∧
    (o body).findings = front ++ insideFindings spec r inFunction inner body ++ back ∧
    (o body).returned = before ++ r.passed (checkInside spec inFunction inner body).returned ++ behind

namespace Framed

theorem extend (h : Framed spec r o) (env : Env) (front back : Findings) (before behind : List (Node × String))
    (ho : ∀ body, o' body = ⟨env, front ++ (o body).findings ++ back, before ++ (o body).returns ++ behind⟩) :
    Framed spec r o' := by
  obtain ⟨_, inner, inFunction, front', back', before', behind', h⟩ := h
  refine ⟨env, inner, inFunction, front ++ front', back' ++ back, before.map (·.2) ++ before',
    behind' ++ behind.map (·.2), ?_⟩
  intro body
  obtain ⟨-, hfindings, hreturned⟩ := h body
  rw [Outcome.returned] at hreturned
  simp only [ho body, hfindings, Outcome.returned, List.map_append, hreturned, Findings.append_assoc,
    List.append_assoc, true_and]

/-- Where no types are handed on, others may be returned in their place. -/
theorem keep (h : Framed spec r o) (hr : r ≠ .outward) (env : Env) (front back : Findings) (returned : List String)
    (ho : ∀ body, (o' body).env = env ∧ (o' body).findings = front ++ (o body).findings ++ back ∧
      (o' body).returned = returned) : Framed spec r o' := by
  obtain ⟨_, inner, inFunction, front', back', _, _, h⟩ := h
  refine ⟨env, inner, inFunction, front ++ front', back' ++ back, returned, [], ?_⟩
  intro body
  obtain ⟨henv, hfindings, hreturned⟩ := ho body
  rw [henv, hfindings, hreturned, (h body).2.1, Returns.passed_eq_nil hr]
  simp only [Findings.append_assoc, List.append_nil, true_and]

/-- An arrow function keeps what its body returns. -/
theorem inArrow (h : Framed spec r o) (env : Env) :
    Framed spec r.inArrow fun body => { env, findings := (o body).findings } := by
  obtain ⟨_, inner, inFunction, front, back, _, _, h⟩ := h
  refine ⟨env, inner, inFunction, front, back, [], [], ?_⟩
  intro body
  rw [(h body).2.1, insideFindings, insideFindings, Returns.findings_inArrow, Returns.passed_inArrow]
  exact ⟨rfl, rfl, rfl⟩

theorem returned_eq (h : Framed spec r o) (hr : r ≠ .outward) (body body' : List Node) :
    (o body).returned = (o body').returned := by
  obtain ⟨_, _, _, _, _, _, _, h⟩ := h
  rw [(h body).2.2, (h body').2.2, Returns.passed_eq_nil hr, Returns.passed_eq_nil hr]

theorem env_eq (h : Framed spec r o) (body body' : List Node) : (o body).env = (o body').env := by
  obtain ⟨_, _, _, _, _, _, _, h⟩ := h
  rw [(h body).1, (h body').1]

end Framed

/-- What is to be shown of the tree `fill` makes around a block, for the kind of the tree. -/
def Site.Framed (spec : Spec) (r : Returns) (fill : List Node → Node) : Site → Prop
  | expr => ∀ env, Typing.Framed spec r fun body => { env, findings := checkExpr spec env (fill body) }
  | block => ∀ inFunction env env',
    Typing.Framed spec r fun body =>
      ⟨env', (checkBody spec inFunction env (fill body)).findings, (checkBody spec inFunction env (fill body)).returns⟩
  | condition | statement => ∀ inFunction env,
    Typing.Framed spec r fun body => checkStatement spec inFunction env (fill body)

variable {fill : List Node → Node} {line : Option Int}

/-! ### Blocks -/

theorem framed_body : Site.block.Framed spec .outward fun body => .block line body := by
  intro inFunction env env'
  refine ⟨env', env, inFunction, {}, {}, [], [], ?_⟩
  intro body
  refine ⟨rfl, ?_, ?_⟩
  · simp only [insideFindings, Returns.findings, Findings.append_empty, Findings.empty_append]
    rfl
  · rw [List.append_nil]
    rfl

/-- The statements before the one with the block are checked in the same environment, and it leaves the same one to
the statements behind it. -/
theorem checkInside_enclosed (h : Encloses .statement r fill) (ih : Site.statement.Framed spec r fill)
    (inFunction : Bool) (env : Env) (before after body : List Node) :
    let start := hoist env (before ++ fill [] :: after)
    let first := checkEach spec inFunction start before
    let later := checkEach spec inFunction (checkStatement spec inFunction first.env (fill [])).env after
    checkInside spec inFunction env (before ++ fill body :: after) =
      ⟨later.env, first.findings ++ (checkStatement spec inFunction first.env (fill body)).findings ++ later.findings,
        first.returns ++ (checkStatement spec inFunction first.env (fill body)).returns ++ later.returns⟩ := by
  intro start first later
  have hstart : hoist env (before ++ fill body :: after) = start := by
    simp only [start, hoist, h.functionNames_eq before after body []]
  have henv := (ih inFunction first.env).env_eq body []
  rw [checkInside, hstart, checkEach_append]
  simp only [checkEach_cons, first, later, henv, Findings.append_assoc, List.append_assoc]

theorem framed_nested {before after : List Node} (h : Encloses .statement r fill)
    (ih : Site.statement.Framed spec r fill) :
    Site.block.Framed spec r fun body => .block line (before ++ fill body :: after) := by
  intro inFunction env env'
  let first := checkEach spec inFunction (hoist env (before ++ fill [] :: after)) before
  let later := checkEach spec inFunction (checkStatement spec inFunction first.env (fill [])).env after
  refine (ih inFunction first.env).extend env' first.findings later.findings first.returns later.returns ?_
  intro body
  have heq := checkInside_enclosed h ih inFunction env before after body
  exact congrArg (fun o => Outcome.mk env' o.findings o.returns) heq

/-! ### Statements -/

theorem framed_ofBlock (h : Encloses .block r fill) (ih : Site.block.Framed spec r fill) :
    Site.statement.Framed spec r fill := by
  intro inFunction env
  refine (ih inFunction env.child env).extend env {} {} [] [] fun body => ?_
  have hblock := h.isBlock_eq body
  generalize fill body = e at hblock
  cases e with
  | block line body =>
    simp only [Findings.empty_append, Findings.append_empty, List.nil_append, List.append_nil]
    rfl
  | _ => cases hblock

/-- An expression with a block is checked as a whole before what follows it in a statement. -/
theorem framed_ifTest {consequent alternate : Node} (h : Encloses .expr r fill) (ih : Site.expr.Framed spec r fill) :
    Site.condition.Framed spec r fun body => .ifStmt line (fill body) consequent alternate := by
  intro inFunction env
  let first := checkBody spec inFunction env.child consequent
  let other := if isCondition alternate then checkStatement spec inFunction env alternate
    else checkBody spec inFunction env.child alternate
  refine (ih env).extend env {} (testFindings .ifTest (infer spec env (fill [])) ++ first.findings ++ other.findings)
    (first.returns ++ other.returns) [] ?_
  intro body
  simp only [checkStatement_ifStmt, h.infer_eq spec env body [], first, other, Findings.empty_append,
    Findings.append_assoc, List.append_nil]

theorem framed_consequent {test alternate : Node} (ih : Site.block.Framed spec r fill) :
    Site.condition.Framed spec r fun body => .ifStmt line test (fill body) alternate := by
  intro inFunction env
  let other := if isCondition alternate then checkStatement spec inFunction env alternate
    else checkBody spec inFunction env.child alternate
  refine (ih inFunction env.child env).extend env
    (checkExpr spec env test ++ testFindings .ifTest (infer spec env test)) other.findings [] other.returns ?_
  intro body
  simp only [checkStatement_ifStmt, other, Findings.append_assoc, List.nil_append]

theorem framed_elseBlock {test consequent : Node} (h : Encloses .block r fill) (ih : Site.block.Framed spec r fill) :
    Site.condition.Framed spec r fun body => .ifStmt line test consequent (fill body) := by
  intro inFunction env
  let first := checkBody spec inFunction env.child consequent
  refine (ih inFunction env.child env).extend env
    (checkExpr spec env test ++ testFindings .ifTest (infer spec env test) ++ first.findings) {} first.returns [] ?_
  intro body
  simp only [checkStatement_ifStmt, first, h.block_isCondition body, Bool.false_eq_true, if_false,
    Findings.append_empty, List.append_nil]

theorem framed_elseIf {test consequent : Node} (h : Encloses .condition r fill)
    (ih : Site.condition.Framed spec r fill) :
    Site.condition.Framed spec r fun body => .ifStmt line test consequent (fill body) := by
  intro inFunction env
  let first := checkBody spec inFunction env.child consequent
  refine (ih inFunction env).extend env
    (checkExpr spec env test ++ testFindings .ifTest (infer spec env test) ++ first.findings) {} first.returns [] ?_
  intro body
  simp only [checkStatement_ifStmt, first, h.isCondition_eq body, if_true, Findings.append_empty, List.append_nil]

theorem framed_whileTest {inner : Node} (h : Encloses .expr r fill) (ih : Site.expr.Framed spec r fill) :
    Site.statement.Framed spec r fun body => .whileStmt line (fill body) inner := by
  intro inFunction env
  let inside := checkBody spec inFunction env.child inner
  refine (ih env).extend env {} (testFindings .whileTest (infer spec env (fill [])) ++ inside.findings) inside.returns
    [] ?_
  intro body
  simp only [checkStatement_whileStmt, h.infer_eq spec env body [], inside, Findings.empty_append,
    Findings.append_assoc, List.append_nil]

theorem framed_whileBody {test : Node} (ih : Site.block.Framed spec r fill) :
    Site.statement.Framed spec r fun body => .whileStmt line test (fill body) := by
  intro inFunction env
  refine (ih inFunction env.child env).extend env
    (checkExpr spec env test ++ testFindings .whileTest (infer spec env test)) {} [] [] ?_
  intro body
  simp only [checkStatement_whileStmt, Findings.append_empty, List.nil_append, List.append_nil]

/-- A declaration uses its value only for the findings on it and for its type. -/
theorem checkStatement_variableDecl (spec : Spec) (env : Env) (name : Option String) :
    ∃ (after : String → Env) (found : String → Findings), ∀ inFunction line value kind,
      checkStatement spec inFunction env (.variableDecl line name value kind) =
        ⟨after (infer spec env value), checkExpr spec env value ++ found (infer spec env value), []⟩ := by
  cases name with
  | none =>
    refine ⟨fun _ => env, fun _ => {}, ?_⟩
    simp only [checkStatement, Findings.append_empty, implies_true]
  | some name =>
    by_cases hn : name = ""
    · refine ⟨fun _ => env, fun _ => {}, ?_⟩
      simp only [checkStatement, hn, if_true, Findings.append_empty, implies_true]
    · refine ⟨declareVariable spec env name, declarationFindings spec env name, ?_⟩
      simp only [checkStatement, hn, if_false, implies_true]

theorem framed_variableDecl {name : Option String} {kind : String} (h : Encloses .expr r fill)
    (ih : Site.expr.Framed spec r fill) :
    Site.statement.Framed spec r fun body => .variableDecl line name (fill body) kind := by
  intro inFunction env
  obtain ⟨after, found, hcheck⟩ := checkStatement_variableDecl spec env name
  refine (ih env).extend (after (infer spec env (fill []))) {} (found (infer spec env (fill []))) [] [] ?_
  intro body
  rw [hcheck, h.infer_eq spec env body []]
  rfl

theorem framed_returnStmt (h : Encloses .expr r fill) (ih : Site.expr.Framed spec r fill) :
    Site.statement.Framed spec r fun body => .returnStmt line (fill body) := by
  intro inFunction env
  cases inFunction with
  | false =>
    refine (ih env).extend env {} (.warning .returnOutside) [] [] ?_
    intro body
    simp only [checkStatement_returnStmt, Bool.false_eq_true, if_false, Findings.empty_append, List.append_nil]
  | true =>
    -- The return that is noted holds the block, but only its type is used.
    refine (ih env).keep h.ne_outward env {} {} [infer spec env (fill [])] ?_
    intro body
    simp only [checkStatement_returnStmt, if_true, h.infer_eq spec env body [], Outcome.returned, Findings.empty_append,
      Findings.append_empty, List.map_cons, List.map_nil, true_and]

theorem framed_functionBody {line' : Option Int} {name : Option String} {params : Option (List String)}
    {isAsync : Bool} :
    Site.statement.Framed spec (.own name) fun body => .functionDecl line name params (.block line' body) isAsync := by
  intro inFunction env
  let signature := signatureOf spec name
  refine ⟨env, paramEnv env signature (params.getD []), true,
    paramFindings (name.getD "") signature (params.getD []), {}, [], [], ?_⟩
  intro body
  rw [Findings.append_empty, insideFindings, ← Findings.append_assoc]
  exact ⟨rfl, rfl, rfl⟩

theorem framed_inFunction {name : Option String} {params : Option (List String)} {isAsync : Bool}
    (hr : r ≠ .outward) (ih : Site.block.Framed spec r fill) :
    Site.statement.Framed spec r fun body => .functionDecl line name params (fill body) isAsync := by
  intro inFunction env
  let signature := signatureOf spec name
  let inner := paramEnv env signature (params.getD [])
  let returned := (checkBody spec true inner (fill [])).returned
  have hreturned (body : List Node) : (checkBody spec true inner (fill body)).returned = returned :=
    (ih true inner env).returned_eq hr body []
  refine (ih true inner env).keep hr env (paramFindings (name.getD "") signature (params.getD []))
    (returnFindings (name.getD "") signature returned) [] ?_
  intro body
  rw [← hreturned body]
  exact ⟨rfl, rfl, rfl⟩

theorem framed_exportDecl {names : Option (List String)} (ih : Site.statement.Framed spec r fill) :
    Site.statement.Framed spec r fun body => .exportDecl line (fill body) names := by
  intro inFunction env
  let declared := checkStatement spec inFunction env (fill [])
  have henv (body : List Node) : (checkStatement spec inFunction env (fill body)).env = declared.env :=
    (ih inFunction env).env_eq body []
  refine (ih inFunction env).extend declared.env {} (exportFindings declared.env (names.getD [])) [] [] ?_
  intro body
  simp only [checkStatement_exportDecl, henv, Findings.empty_append, List.nil_append, List.append_nil]

/-! ### Loops with a counter -/

/-- The outcome of the start of a loop, in the scope of the loop. -/
def checkStart (spec : Spec) (inFunction : Bool) (env : Env) (init : Node) : Outcome :=
  if isVariable init then checkStatement spec inFunction env.child init
  else { env := env.child, findings := checkExpr spec env.child init }

theorem checkStatement_forStmt (inFunction : Bool) (env : Env) (init test update body : Node) :
    checkStatement spec inFunction env (.forStmt line init test update body) =
      let start := checkStart spec inFunction env init
      let inside := checkBody spec inFunction start.env.child body
      ⟨env, start.findings ++ checkExpr spec start.env test ++ testFindings .forTest (infer spec start.env test)
        ++ checkExpr spec start.env update ++ inside.findings, inside.returns⟩ := rfl

theorem returns_checkStart (spec : Spec) (inFunction : Bool) (env : Env) (init : Node) :
    (checkStart spec inFunction env init).returns = [] := by
  cases init with
  | variableDecl line name value kind =>
    obtain ⟨after, found, hcheck⟩ := checkStatement_variableDecl spec env.child name
    simp only [checkStart, isVariable, if_true, hcheck]
  | _ => rfl

theorem framed_start {init : List Node → Node} {test update inner : Node}
    (ih : ∀ inFunction env, Framed spec r fun body => checkStart spec inFunction env (init body)) :
    Site.statement.Framed spec r fun body => .forStmt line (init body) test update inner := by
  intro inFunction env
  let start := checkStart spec inFunction env (init [])
  let inside := checkBody spec inFunction start.env.child inner
  refine (ih inFunction env).extend env {} (checkExpr spec start.env test
    ++ testFindings .forTest (infer spec start.env test) ++ checkExpr spec start.env update ++ inside.findings)
    [] inside.returns ?_
  intro body
  have henv : (checkStart spec inFunction env (init body)).env = start.env := (ih inFunction env).env_eq body []
  have hreturns := returns_checkStart spec inFunction env (init body)
  rw [checkStatement_forStmt]
  simp only [henv, hreturns, inside, Findings.empty_append, Findings.append_assoc, List.nil_append]

theorem framed_forVariable {line' : Option Int} {name : Option String} {kind : String} {test update inner : Node}
    (h : Encloses .expr r fill) (ih : Site.expr.Framed spec r fill) :
    Site.statement.Framed spec r fun body =>
      .forStmt line (.variableDecl line' name (fill body) kind) test update inner := by
  refine framed_start fun inFunction env => ?_
  have hstart : Site.statement.Framed spec r fun body => .variableDecl line' name (fill body) kind :=
    framed_variableDecl h ih
  exact hstart inFunction env.child

theorem framed_forStart {test update inner : Node} (h : Encloses .expr r fill) (ih : Site.expr.Framed spec r fill) :
    Site.statement.Framed spec r fun body => .forStmt line (fill body) test update inner := by
  refine framed_start fun inFunction env => ?_
  have hstart (body : List Node) : checkStart spec inFunction env (fill body) =
      { env := env.child, findings := checkExpr spec env.child (fill body) } := by
    simp only [checkStart, (h.kinds_eq body).2.2, Bool.false_eq_true, if_false]
  simp only [hstart]
  exact ih env.child

theorem framed_forTest {init update inner : Node} (h : Encloses .expr r fill) (ih : Site.expr.Framed spec r fill) :
    Site.statement.Framed spec r fun body => .forStmt line init (fill body) update inner := by
  intro inFunction env
  let start := checkStart spec inFunction env init
  let inside := checkBody spec inFunction start.env.child inner
  refine (ih start.env).extend env start.findings (testFindings .forTest (infer spec start.env (fill []))
    ++ checkExpr spec start.env update ++ inside.findings) [] inside.returns ?_
  intro body
  simp only [checkStatement_forStmt, h.infer_eq spec start.env body [], start, inside, Findings.append_assoc,
    List.nil_append]

theorem framed_forUpdate {init test inner : Node} (ih : Site.expr.Framed spec r fill) :
    Site.statement.Framed spec r fun body => .forStmt line init test (fill body) inner := by
  intro inFunction env
  let start := checkStart spec inFunction env init
  let inside := checkBody spec inFunction start.env.child inner
  refine (ih start.env).extend env (start.findings ++ checkExpr spec start.env test
    ++ testFindings .forTest (infer spec start.env test)) inside.findings [] inside.returns ?_
  intro body
  simp only [checkStatement_forStmt, start, inside, Findings.append_assoc, List.nil_append]

theorem framed_forBody {init test update : Node} (ih : Site.block.Framed spec r fill) :
    Site.statement.Framed spec r fun body => .forStmt line init test update (fill body) := by
  intro inFunction env
  let start := checkStart spec inFunction env init
  refine (ih inFunction start.env.child env).extend env (start.findings ++ checkExpr spec start.env test
    ++ testFindings .forTest (infer spec start.env test) ++ checkExpr spec start.env update) {} [] [] ?_
  intro body
  simp only [checkStatement_forStmt, start, Findings.append_empty, List.nil_append, List.append_nil]

/-! ### Expressions -/

/-- Findings around those of a part. -/
theorem Site.Framed.around (ih : Site.expr.Framed spec r fill) (env env' : Env) {found : List Node → Findings}
    (front back : Findings) (h : ∀ body, found body = front ++ checkExpr spec env' (fill body) ++ back) :
    Typing.Framed spec r fun body => { env, findings := found body } := by
  refine (ih env').extend env front back [] [] ?_
  intro body
  rw [h body]
  rfl

theorem framed_left {operator : String} {right : Node} (h : Encloses .expr r fill)
    (ih : Site.expr.Framed spec r fill) :
    Site.expr.Framed spec r fun body => .binary line operator (fill body) right := by
  intro env
  refine ih.around env env (operandFindings operator (infer spec env (fill [])) (infer spec env right))
    (checkExpr spec env right) ?_
  intro body
  simp only [checkExpr_binary, h.infer_eq spec env body []]

theorem framed_right {operator : String} {left : Node} (h : Encloses .expr r fill)
    (ih : Site.expr.Framed spec r fill) :
    Site.expr.Framed spec r fun body => .binary line operator left (fill body) := by
  intro env
  refine ih.around env env (operandFindings operator (infer spec env left) (infer spec env (fill []))
    ++ checkExpr spec env left) {} ?_
  intro body
  simp only [checkExpr_binary, h.infer_eq spec env body [], Findings.append_empty]

theorem framed_target {value : Node} (h : Encloses .expr r fill) (ih : Site.expr.Framed spec r fill) :
    Site.expr.Framed spec r fun body => .assign line (fill body) value := by
  intro env
  refine ih.around env env (checkExpr spec env value) {} ?_
  intro body
  simp only [checkExpr_assign, (h.kinds_eq body).1, Findings.append_empty]

theorem framed_value {target : Node} (h : Encloses .expr r fill) (ih : Site.expr.Framed spec r fill) :
    Site.expr.Framed spec r fun body => .assign line target (fill body) := by
  intro env
  cases ht : identName? target with
  | some name =>
    refine ih.around env env {} (assignmentFindings spec env name (infer spec env (fill []))) ?_
    intro body
    simp only [checkExpr_assign, ht, h.infer_eq spec env body [], Findings.empty_append]
  | none =>
    refine ih.around env env {} (checkExpr spec env target) ?_
    intro body
    simp only [checkExpr_assign, ht, Findings.empty_append]

theorem framed_callee {args : Option (List Node)} (h : Encloses .expr r fill) (ih : Site.expr.Framed spec r fill) :
    Site.expr.Framed spec r fun body => .call line (fill body) args := by
  intro env
  have hname (body : List Node) : identName? (fill body) ≠ some fetchName := by
    rw [(h.kinds_eq body).1]
    simp
  cases args with
  | none =>
    refine ih.around env env {} {} ?_
    intro body
    rw [Findings.empty_append, Findings.append_empty]
    exact if_neg (hname body)
  | some args =>
    refine ih.around env env {} (checkArgs spec env args) ?_
    intro body
    simp only [checkExpr_call, if_neg (hname body), Findings.empty_append]

theorem checkArgs_append (env : Env) (before after : List Node) :
    checkArgs spec env (before ++ after) = checkArgs spec env before ++ checkArgs spec env after := by
  induction before with
  | nil => rfl
  | cons arg rest ih => simp only [List.cons_append, checkArgs_cons, ih, Findings.append_assoc]

theorem framed_argument {callee : Node} {before after : List Node} (ih : Site.expr.Framed spec r fill) :
    Site.expr.Framed spec r fun body => .call line callee (some (before ++ fill body :: after)) := by
  intro env
  refine ih.around env env ((if identName? callee = some fetchName then {} else checkExpr spec env callee)
    ++ checkArgs spec env before) (checkArgs spec env after) ?_
  intro body
  simp only [checkExpr_call, checkArgs_append, checkArgs_cons, Findings.append_assoc]

theorem framed_arrowExpr {params : Option (List String)} {isAsync : Bool} (h : Encloses .expr r fill)
    (ih : Site.expr.Framed spec r fill) :
    Site.expr.Framed spec r fun body => .arrow line params (fill body) isAsync := by
  intro env
  refine ih.around env (paramEnv env none (params.getD [])) {} {} ?_
  intro body
  simp only [checkExpr_arrow, (h.kinds_eq body).2.1, Bool.false_eq_true, if_false, Findings.empty_append,
    Findings.append_empty]

theorem framed_arrowBlock {params : Option (List String)} {isAsync : Bool} (h : Encloses .block r fill)
    (ih : Site.block.Framed spec r fill) :
    Site.expr.Framed spec r.inArrow fun body => .arrow line params (fill body) isAsync := by
  intro env
  have hcheck (body : List Node) : checkExpr spec env (.arrow line params (fill body) isAsync) =
      (checkBody spec true (paramEnv env none (params.getD [])) (fill body)).findings := by
    simp only [checkExpr_arrow, h.isBlock_eq body, if_true]
  simp only [hcheck]
  exact (ih true (paramEnv env none (params.getD [])) env).inArrow env

/-! ### Every tree -/

/-- Whatever `fill` puts around a block, only what is found in the block and the types that it hands on depend on its
body. -/
theorem Encloses.framed {site : Site} (h : Encloses site r fill) (spec : Spec) : site.Framed spec r fill := by
  induction h with
  | body => exact framed_body
  | nested h ih => exact framed_nested h ih
  | ofBlock h ih => exact framed_ofBlock h ih
  | ofCondition _ ih => exact ih
  | ifTest h ih => exact framed_ifTest h ih
  | consequent _ ih => exact framed_consequent ih
  | elseBlock h ih => exact framed_elseBlock h ih
  | elseIf h ih => exact framed_elseIf h ih
  | whileTest h ih => exact framed_whileTest h ih
  | whileBody _ ih => exact framed_whileBody ih
  | forVariable h ih => exact framed_forVariable h ih
  | forStart h ih => exact framed_forStart h ih
  | forTest h ih => exact framed_forTest h ih
  | forUpdate _ ih => exact framed_forUpdate ih
  | forBody _ ih => exact framed_forBody ih
  | variableDecl h ih => exact framed_variableDecl h ih
  | printStmt _ ih | exprStmt _ ih =>
    intro inFunction env
    exact ih env
  | returnStmt h ih => exact framed_returnStmt h ih
  | functionBody => exact framed_functionBody
  | inFunction hr _ ih => exact framed_inFunction hr ih
  | exportDecl _ ih => exact framed_exportDecl ih
  | left h ih => exact framed_left h ih
  | right h ih => exact framed_right h ih
  | target h ih => exact framed_target h ih
  | value h ih => exact framed_value h ih
  | callee h ih => exact framed_callee h ih
  | argument _ ih => exact framed_argument ih
  | object _ ih | await _ ih =>
    intro env
    exact ih env
  | arrowExpr h ih => exact framed_arrowExpr h ih
  | arrowBlock h ih => exact framed_arrowBlock h ih

end

/-! ## Programs -/

/-- What `check` finds in a program is what it finds in the statements `before` the one with the block, in this one,
and in the statements `after` it. With another body of the block, only the findings in the block change, and directly
behind them those on what the function returns, where the block is the body of a declared function. -/
theorem check_enclosed (spec : Spec) (line : Option Int) (before after : List Node) {r : Returns}
    {fill : List Node → Node} (h : Encloses .statement r fill) :
    let first := checkEach spec false (hoist (globalEnv spec) (before ++ fill [] :: after)) before
    let later := checkEach spec false (checkStatement spec false first.env (fill [])).env after
    ∃ (inner : Env) (inFunction : Bool) (front back : Findings), ∀ body,
      check spec (.program line (before ++ fill body :: after)) =
        first.findings ++ (front ++ insideFindings spec r inFunction inner body ++ back) ++ later.findings := by
  intro first later
  obtain ⟨_, inner, inFunction, front, back, _, _, hframed⟩ := h.framed spec false first.env
  refine ⟨inner, inFunction, front, back, ?_⟩
  intro body
  have hcheck := congrArg Outcome.findings
    (checkInside_enclosed h (h.framed spec) false (globalEnv spec) before after body)
  dsimp only at hcheck
  rw [(hframed body).2.1] at hcheck
  exact hcheck

/-- A function between a declaration and a print. Whatever its body declares, `y` is not declared behind it. -/
theorem check_enclosed_function :
    let spec : Spec := .parse "f(): number"
    let before : List Node := [.variableDecl none (some "x") (.literal none (.number 1)) "let"]
    let after : List Node := [.printStmt none (.ident none "y")]
    let fill : List Node → Node := fun body => .functionDecl none (some "f") (some []) (.block none body) false
    Encloses .statement (.own (some "f")) fill ∧
      ∃ (inner : Env) (inFunction : Bool) (front back : Findings), ∀ body,
        check spec (.program none (before ++ fill body :: after)) =
          {} ++ (front ++ insideFindings spec (.own (some "f")) inFunction inner body ++ back)
            ++ .warning (.undeclaredUse "y") := by
  intro spec before after fill
  have hfill : Encloses .statement (.own (some "f")) fill := .functionBody
  have hfirst : (checkEach spec false (hoist (globalEnv spec) (before ++ fill [] :: after)) before).findings = {} := by
    decide +kernel
  have hlater : (checkEach spec false (checkStatement spec false (checkEach spec false
      (hoist (globalEnv spec) (before ++ fill [] :: after)) before).env (fill [])).env after).findings =
        .warning (.undeclaredUse "y") := by
    decide +kernel
  have h := check_enclosed spec none before after hfill
  dsimp only at h
  rw [hfirst, hlater] at h
  exact ⟨hfill, h⟩

end HindiScript.Typing
