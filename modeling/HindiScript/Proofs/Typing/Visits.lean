import HindiScript.Proofs.Tree.WellFormed
import HindiScript.Proofs.Typing.Isolation
import Mathlib.Algebra.BigOperators.Group.List.Basic
import Mathlib.Algebra.GroupWithZero.Nat

/-!
# The visits of the type check

The check goes through a program once. `Visit` is its coming to a node in an environment, `Visit.parts` are the visits
to the nodes below that it makes on the way, and `Visit.own` is what it finds about the node itself. What it finds in
all is what it finds about the node and in the parts, in some order (`count_findings`). In a program that was read from
a text the parts of a node are visits to its children (`Suits.map_parts`), so every node is visited exactly once
(`Suits.map_visits`).
-/

namespace HindiScript.Typing

/-! ## Visits -/

/-- How a node is checked. -/
inductive Manner where
  | expr
  /-- Not at all: it is a name that is not looked up. -/
  | label
  | statement
  /-- As the statements of a block, in a scope that is open already. -/
  | body

/-- The check of a node. -/
structure Visit where
  manner : Manner
  inFunction : Bool
  env : Env
  node : Node

namespace Visit

/-- What comes of a visit. -/
def outcome (spec : Spec) (v : Visit) : Outcome :=
  match v.manner with
  | .expr => { env := v.env, findings := checkExpr spec v.env v.node }
  | .label => { env := v.env }
  | .statement => checkStatement spec v.inFunction v.env v.node
  | .body => checkBody spec v.inFunction v.env v.node

section

variable (spec : Spec) (inFunction : Bool) (env : Env) (node : Node)

@[simp] theorem outcome_expr : outcome spec ⟨.expr, inFunction, env, node⟩ = ⟨env, checkExpr spec env node, []⟩ := rfl

@[simp] theorem outcome_label : outcome spec ⟨.label, inFunction, env, node⟩ = ⟨env, {}, []⟩ := rfl

@[simp] theorem outcome_statement :
    outcome spec ⟨.statement, inFunction, env, node⟩ = checkStatement spec inFunction env node := rfl

@[simp] theorem outcome_body :
    outcome spec ⟨.body, inFunction, env, node⟩ = checkBody spec inFunction env node := rfl

end

/-- The visits to the parts of an expression. A name that is assigned to, a property and `fetchName` are not looked
up. -/
def exprParts (inFunction : Bool) (env : Env) : Node → List Visit
  | .binary _ _ left right => [⟨.expr, inFunction, env, left⟩, ⟨.expr, inFunction, env, right⟩]
  | .assign _ target value =>
    [⟨if (identName? target).isSome then .label else .expr, inFunction, env, target⟩,
      ⟨.expr, inFunction, env, value⟩]
  | .await _ value => [⟨.expr, inFunction, env, value⟩]
  | .call _ callee args =>
    ⟨if identName? callee = some fetchName then .label else .expr, inFunction, env, callee⟩
      :: (args.getD []).map (⟨.expr, inFunction, env, ·⟩)
  | .member _ object property => [⟨.expr, inFunction, env, object⟩, ⟨.label, inFunction, env, property⟩]
  | .arrow _ params body _ =>
    [⟨if isBlock body then .body else .expr, true, paramEnv env none (params.getD []), body⟩]
  | _ => []

/-- The visits that `checkEach` makes to statements, one after the other. -/
def each (spec : Spec) (inFunction : Bool) : Env → List Node → List Visit
  | _, [] => []
  | env, statement :: rest =>
    ⟨.statement, inFunction, env, statement⟩
      :: each spec inFunction (checkStatement spec inFunction env statement).env rest

/-- The visits that `checkStatement` makes to the parts of a statement. -/
def statementParts (spec : Spec) (inFunction : Bool) (env : Env) : Node → List Visit
  | .variableDecl _ _ value _ | .printStmt _ value | .returnStmt _ value | .exprStmt _ value =>
    [⟨.expr, inFunction, env, value⟩]
  | .functionDecl _ name params body _ =>
    [⟨.body, true, paramEnv env (signatureOf spec name) (params.getD []), body⟩]
  | .block _ body => each spec inFunction (hoist env.child body) body
  | .ifStmt _ test consequent alternate =>
    [⟨.expr, inFunction, env, test⟩, ⟨.body, inFunction, env.child, consequent⟩,
      if isCondition alternate then ⟨.statement, inFunction, env, alternate⟩
      else ⟨.body, inFunction, env.child, alternate⟩]
  | .whileStmt _ test body => [⟨.expr, inFunction, env, test⟩, ⟨.body, inFunction, env.child, body⟩]
  | .forStmt _ init test update body =>
    let start := (checkStart spec inFunction env init).env
    [⟨if isVariable init then .statement else .expr, inFunction, env.child, init⟩,
      ⟨.expr, inFunction, start, test⟩, ⟨.expr, inFunction, start, update⟩, ⟨.body, inFunction, start.child, body⟩]
  | .exportDecl _ declaration _ => [⟨.statement, inFunction, env, declaration⟩]
  | _ => []

/-- The visits to all places for parts, also those where nothing stands. -/
def places (spec : Spec) (v : Visit) : List Visit :=
  match v.manner with
  | .expr => exprParts v.inFunction v.env v.node
  | .label => []
  | .statement => statementParts spec v.inFunction v.env v.node
  | .body => each spec v.inFunction (hoist v.env v.node.body) v.node.body

/-- The visits in `places` at which something stands. -/
def parts (spec : Spec) (v : Visit) : List Visit := (v.places spec).filter (!·.node.isMissing)

/-- What is found about an expression itself. -/
def exprOwn (spec : Spec) (env : Env) : Node → Findings
  | .binary _ operator left right => operandFindings operator (infer spec env left) (infer spec env right)
  | .ident _ name => useFindings env name
  | .assign _ target value =>
    match identName? target with
    | some name => assignmentFindings spec env name (infer spec env value)
    | none => {}
  | _ => {}

def variableOwn (spec : Spec) (env : Env) (name : Option String) (inferred : String) : Findings :=
  match name with
  | some name => if name = "" then {} else declarationFindings spec env name inferred
  | none => {}

def statementOwn (spec : Spec) (inFunction : Bool) (env : Env) : Node → Findings
  | .variableDecl _ name value _ => variableOwn spec env name (infer spec env value)
  | .functionDecl _ name params body _ =>
    let signature := signatureOf spec name
    let inside := checkBody spec true (paramEnv env signature (params.getD [])) body
    paramFindings (name.getD "") signature (params.getD [])
      ++ returnFindings (name.getD "") signature (inside.returns.map (·.2))
  | .ifStmt _ test _ _ => testFindings .ifTest (infer spec env test)
  | .whileStmt _ test _ => testFindings .whileTest (infer spec env test)
  | .forStmt _ init test _ _ => testFindings .forTest (infer spec (checkStart spec inFunction env init).env test)
  | .returnStmt .. => if inFunction then {} else .warning .returnOutside
  | .exportDecl _ declaration names =>
    exportFindings (checkStatement spec inFunction env declaration).env (names.getD [])
  | _ => {}

/-- What is found about the node itself: `exprOwn` or `statementOwn`, by the manner of the visit. -/
def own (spec : Spec) (v : Visit) : Findings :=
  match v.manner with
  | .expr => exprOwn spec v.env v.node
  | .statement => statementOwn spec v.inFunction v.env v.node
  | _ => {}

/-- What the node itself returns. -/
def ownReturns (spec : Spec) (v : Visit) : List (Node × String) :=
  match v.manner, v.node with
  | .statement, .returnStmt line value =>
    if v.inFunction then [(.returnStmt line value, infer spec v.env value)] else []
  | _, _ => []

end Visit

/-! ## Mistakes of other kinds -/

section

variable {spec : Spec} {p : Mistake → Bool}

theorem filter_valueFindings (hvalue : ∀ name declared assigned, p (.wrongValue name declared assigned) = false)
    (name inferred : String) : (valueFindings spec name inferred).errors.filter p = [] := by
  unfold valueFindings
  split
  · split
    · rfl
    · simp [Findings.error, hvalue]
  · rfl

theorem filter_paramFindings (hcount : ∀ name expected found, p (.paramCount name expected found) = false)
    (name : String) (signature : Option Signature) (params : List String) :
    (paramFindings name signature params).errors.filter p = [] := by
  unfold paramFindings
  split
  · split
    · rfl
    · simp [Findings.error, hcount]
  · rfl

/-- The mistakes about an expression itself are those about values and operands. -/
theorem filter_exprOwn (hvalue : ∀ name declared assigned, p (.wrongValue name declared assigned) = false)
    (hoperands : ∀ operator left right, p (.wrongOperands operator left right) = false) (env : Env) (e : Node) :
    (Visit.exprOwn spec env e).errors.filter p = [] := by
  cases e with
  | binary =>
    simp only [Visit.exprOwn, operandFindings]
    split
    · simp [Findings.error, hoperands]
    · rfl
  | ident => simp [Visit.exprOwn]
  | assign =>
    simp only [Visit.exprOwn]
    split
    · rw [errors_assignmentFindings, filter_valueFindings hvalue]
    · rfl
  | _ => rfl

/-- The mistakes about a declaration itself are those about the value, and that the name is declared already. -/
theorem filter_variableOwn (hvalue : ∀ name declared assigned, p (.wrongValue name declared assigned) = false)
    (env : Env) (name : Option String) (inferred : String) :
    (Visit.variableOwn spec env name inferred).errors.filter p =
      (((name.filter (· ≠ "")).filter (· ∈ env.scope.declared)).toList.map .redeclared).filter p := by
  cases name with
  | none => rfl
  | some name =>
    by_cases hname : name = ""
    · simp [Visit.variableOwn, hname, Option.filter]
    · simp only [Visit.variableOwn, hname, if_false, declarationFindings, Findings.errors_append, List.filter_append,
        filter_valueFindings hvalue, List.append_nil]
      by_cases hmem : name ∈ env.scope.declared <;> simp [hname, hmem, Option.filter, Findings.error]

end

/-! ## What is found on a visit -/

/-- `μ` counts findings. -/
structure Additive (μ : Findings → Nat) : Prop where
  empty : μ {} = 0
  append : ∀ a b, μ (a ++ b) = μ a + μ b

theorem additive_errors (p : Mistake → Bool) : Additive fun f => f.errors.countP p where
  empty := rfl
  append a b := by simp

theorem additive_warnings (p : Warning → Bool) : Additive fun f => f.warnings.countP p where
  empty := rfl
  append a b := by simp

section

variable {μ : Findings → Nat} {spec : Spec} {inFunction : Bool} {env : Env}

/-- The count `μ` over `visits`. -/
def total (μ : Findings → Nat) (spec : Spec) (visits : List Visit) : Nat :=
  (visits.map fun v => μ (v.outcome spec).findings).sum

@[simp] theorem total_nil : total μ spec [] = 0 := rfl

@[simp] theorem total_cons (v : Visit) (visits : List Visit) :
    total μ spec (v :: visits) = μ (v.outcome spec).findings + total μ spec visits := by
  simp [total]

theorem outcome_of_missing {v : Visit} (h : v.node.isMissing = true) :
    (v.outcome spec).findings = {} ∧ (v.outcome spec).returns = [] := by
  obtain ⟨manner, inFunction, env, node⟩ := v
  cases node with
  | missing => cases manner <;> exact ⟨rfl, rfl⟩
  | _ => cases h

/-- Where nothing stands nothing counts, so a sum over the parts is one over all places. -/
theorem sum_parts {f : Visit → Nat} (hf : ∀ q : Visit, q.node.isMissing = true → f q = 0) (v : Visit) :
    ((v.parts spec).map f).sum = ((v.places spec).map f).sum := by
  unfold Visit.parts
  induction v.places spec with
  | nil => rfl
  | cons q rest ih =>
    cases hm : q.node.isMissing with
    | true => simp [hm, ih, hf q hm]
    | false => simp [hm, ih]

theorem total_parts (hμ : Additive μ) (v : Visit) : total μ spec (v.parts spec) = total μ spec (v.places spec) := by
  apply sum_parts
  intro q hm
  rw [(outcome_of_missing hm).1, hμ.empty]

theorem total_each (hμ : Additive μ) (statements : List Node) :
    total μ spec (Visit.each spec inFunction env statements) =
      μ (checkEach spec inFunction env statements).findings := by
  induction statements generalizing env with
  | nil => exact hμ.empty.symm
  | cons statement rest ih => simp [Visit.each, checkEach_cons, hμ.append, ih]

theorem total_args (hμ : Additive μ) (args : List Node) :
    total μ spec (args.map (Visit.mk .expr inFunction env)) = μ (checkArgs spec env args) := by
  induction args with
  | nil => exact hμ.empty.symm
  | cons arg rest ih => simp [checkArgs_cons, hμ.append, ih]

theorem checkBody_eq (node : Node) :
    checkBody spec inFunction env node = checkEach spec inFunction (hoist env node.body) node.body := by
  cases node <;> rfl

theorem findings_callee (callee : Node) :
    (Visit.outcome spec
      ⟨if identName? callee = some fetchName then .label else .expr, inFunction, env, callee⟩).findings =
      if identName? callee = some fetchName then {} else checkExpr spec env callee := by
  by_cases h : identName? callee = some fetchName <;> simp [h]

theorem checkExpr_call_none (line : Option Int) (callee : Node) :
    checkExpr spec env (.call line callee none) =
      if identName? callee = some fetchName then {} else checkExpr spec env callee := rfl

theorem checkExpr_member (line : Option Int) (object property : Node) :
    checkExpr spec env (.member line object property) = checkExpr spec env object := rfl

theorem checkExpr_await (line : Option Int) (value : Node) :
    checkExpr spec env (.await line value) = checkExpr spec env value := rfl

theorem checkArgs_nil : checkArgs spec env [] = {} := rfl

theorem findings_variableDecl (line : Option Int) (name : Option String) (value : Node) (kind : String) :
    (checkStatement spec inFunction env (.variableDecl line name value kind)).findings =
      checkExpr spec env value ++ Visit.variableOwn spec env name (infer spec env value) := by
  cases name with
  | none => exact (Findings.append_empty _).symm
  | some name =>
    by_cases hname : name = ""
    · simp [checkStatement, Visit.variableOwn, hname, Findings.append_empty]
    · simp [checkStatement, Visit.variableOwn, hname]

theorem outcome_start (init : Node) :
    Visit.outcome spec ⟨if isVariable init then .statement else .expr, inFunction, env.child, init⟩ =
      checkStart spec inFunction env init := by
  unfold checkStart
  by_cases h : isVariable init = true <;> simp [h]

theorem count_exprParts (hμ : Additive μ) (e : Node) :
    μ (checkExpr spec env e) = μ (Visit.exprOwn spec env e) + total μ spec (Visit.exprParts inFunction env e) := by
  cases e with
  | binary line operator left right =>
    simp [checkExpr_binary, Visit.exprOwn, Visit.exprParts, hμ.append]
    omega
  | assign line target value =>
    rw [checkExpr_assign]
    cases htarget : identName? target with
    | none =>
      simp [Visit.exprOwn, Visit.exprParts, htarget, hμ.append, hμ.empty]
      omega
    | some name =>
      simp [Visit.exprOwn, Visit.exprParts, htarget, hμ.append, hμ.empty]
      omega
  | call line callee args =>
    simp only [Visit.exprParts, total_cons, findings_callee, total_args hμ, Visit.exprOwn, hμ.empty]
    cases args with
    | none => simp [checkArgs_nil, hμ.empty, checkExpr_call_none]
    | some args => simp [checkExpr_call, hμ.append]
  | arrow line params body isAsync =>
    rw [checkExpr_arrow]
    by_cases hblock : isBlock body = true <;> simp [Visit.exprOwn, Visit.exprParts, hblock, hμ.empty]
  | member line object property =>
    rw [checkExpr_member]
    simp [Visit.exprOwn, Visit.exprParts, hμ.empty]
  | await line value =>
    rw [checkExpr_await]
    simp [Visit.exprOwn, Visit.exprParts, hμ.empty]
  | _ => rfl

theorem count_statementParts (hμ : Additive μ) (node : Node) :
    μ (checkStatement spec inFunction env node).findings =
      μ (Visit.statementOwn spec inFunction env node)
        + total μ spec (Visit.statementParts spec inFunction env node) := by
  cases node with
  | variableDecl line name value kind =>
    rw [findings_variableDecl, hμ.append]
    simp [Visit.statementOwn, Visit.statementParts]
    omega
  | functionDecl line name params body isAsync =>
    simp [checkStatement_functionDecl, Visit.statementOwn, Visit.statementParts, hμ.append]
    omega
  | block line body =>
    simp only [Visit.statementOwn, Visit.statementParts, total_each hμ, hμ.empty, Nat.zero_add]
    rfl
  | ifStmt line test consequent alternate =>
    by_cases hc : isCondition alternate = true
    · simp [checkStatement_ifStmt, Visit.statementOwn, Visit.statementParts, hμ.append, hc]
      omega
    · simp [checkStatement_ifStmt, Visit.statementOwn, Visit.statementParts, hμ.append, hc]
      omega
  | whileStmt line test body =>
    simp [checkStatement_whileStmt, Visit.statementOwn, Visit.statementParts, hμ.append]
    omega
  | forStmt line init test update body =>
    rw [checkStatement_forStmt]
    simp [Visit.statementOwn, Visit.statementParts, outcome_start, hμ.append]
    omega
  | returnStmt line value =>
    rw [checkStatement_returnStmt]
    cases inFunction <;> simp [Visit.statementOwn, Visit.statementParts, hμ.append, hμ.empty]
    omega
  | exportDecl line declaration names =>
    simp [checkStatement_exportDecl, Visit.statementOwn, Visit.statementParts, hμ.append]
    omega
  | printStmt line value | exprStmt line value =>
    show μ (checkExpr spec env value) = _
    simp [Visit.statementOwn, Visit.statementParts, hμ.empty]
  | _ => rfl

/-- What is found on a visit is what is found about the node itself (`own`) and on the visits to its `parts`. -/
theorem count_findings (hμ : Additive μ) (v : Visit) :
    μ (v.outcome spec).findings = μ (v.own spec) + total μ spec (v.parts spec) := by
  rw [total_parts hμ]
  obtain ⟨manner, inFunction, env, node⟩ := v
  cases manner with
  | expr => exact count_exprParts hμ node
  | label => simp [Visit.own, Visit.places]
  | statement => exact count_statementParts hμ node
  | body =>
    rw [Visit.outcome_body, checkBody_eq, ← total_each hμ]
    simp [Visit.own, Visit.places, hμ.empty]

end

/-! ## Visits to the nodes of a tree -/

namespace Visit

open Node.children (present)

variable {named : String → Prop} {spec : Spec} {v q : Visit}

@[simp] theorem map_each (inFunction : Bool) (env : Env) (statements : List Node) :
    (each spec inFunction env statements).map (·.node) = statements := by
  induction statements generalizing env with
  | nil => rfl
  | cons statement rest ih => simp [each, ih]

theorem exists_of_mem_each {inFunction : Bool} {env : Env} {statements : List Node}
    (h : q ∈ each spec inFunction env statements) :
    ∃ env', ∃ s ∈ statements, q = ⟨.statement, inFunction, env', s⟩ := by
  induction statements generalizing env with
  | nil => cases h
  | cons statement rest ih =>
    rcases List.mem_cons.1 h with rfl | h
    · exact ⟨env, statement, List.mem_cons_self, rfl⟩
    · obtain ⟨env', s, hs, heq⟩ := ih h
      exact ⟨env', s, List.mem_cons_of_mem _ hs, heq⟩

theorem map_exprParts {e : Node} (h : e.isExpression = true) (inFunction : Bool) (env : Env) :
    present ((exprParts inFunction env e).map (·.node)) = e.children := by
  cases e with
  | call line callee args => simp [exprParts, Node.children, Function.comp_def]
  | binary | assign | await | arrow | member | literal | ident => rfl
  | _ => cases h

theorem exprParts_eq_nil {e : Node} (h : ¬ e.isExpression = true) (inFunction : Bool) (env : Env) :
    exprParts inFunction env e = [] := by
  cases e with
  | call | binary | assign | await | arrow | member | literal | ident => exact absurd rfl h
  | _ => rfl

theorem map_statementParts {node : Node} (h : node.isStatement = true) (inFunction : Bool) (env : Env) :
    present ((statementParts spec inFunction env node).map (·.node)) = node.children := by
  cases node with
  | block line body => simp [statementParts, Node.children]
  | ifStmt line test consequent alternate =>
    by_cases hc : isCondition alternate = true <;> simp [statementParts, Node.children, hc]
  | variableDecl | printStmt | whileStmt | forStmt | returnStmt | breakStmt | continueStmt | exprStmt | functionDecl
  | importDecl | exportDecl => rfl
  | _ => cases h

theorem statementParts_eq_nil {node : Node} (h : ¬ node.isStatement = true) (inFunction : Bool) (env : Env) :
    statementParts spec inFunction env node = [] := by
  cases node with
  | block | ifStmt | variableDecl | printStmt | whileStmt | forStmt | returnStmt | breakStmt | continueStmt | exprStmt
  | functionDecl | importDecl | exportDecl => exact absurd rfl h
  | _ => rfl

theorem map_parts (v : Visit) : (v.parts spec).map (·.node) = present ((v.places spec).map (·.node)) := by
  rw [parts, present, List.filter_map]
  rfl

/-- The parts of any node are children of it. -/
theorem mem_children_of_mem_parts (h : q ∈ v.parts spec) : q.node ∈ v.node.children := by
  have hmem : q.node ∈ present ((v.places spec).map (·.node)) := map_parts v ▸ List.mem_map_of_mem h
  obtain ⟨manner, inFunction, env, node⟩ := v
  cases manner with
  | expr =>
    by_cases he : node.isExpression = true
    · rwa [places, map_exprParts he] at hmem
    · rw [places, exprParts_eq_nil he] at hmem
      cases hmem
  | label => cases hmem
  | statement =>
    by_cases hs : node.isStatement = true
    · rwa [places, map_statementParts hs] at hmem
    · rw [places, statementParts_eq_nil hs] at hmem
      cases hmem
  | body =>
    rw [places, map_each] at hmem
    cases node with
    | block | program => exact hmem
    | _ => cases hmem

/-- What holds of a visit if it holds of the visits to the parts holds of all visits. -/
theorem parts_induction (spec : Spec) {motive : Visit → Prop}
    (step : ∀ v, (∀ q ∈ v.parts spec, motive q) → motive v) (v : Visit) : motive v :=
  step v fun q _ => parts_induction spec step q
termination_by sizeOf v.node
decreasing_by exact Node.sizeOf_lt_of_mem_children (mem_children_of_mem_parts ‹_›)

/-- The visit and all visits that are made on the way, from `parts` to `parts`. -/
def visits (spec : Spec) (v : Visit) : List Visit :=
  v :: (v.parts spec).attach.flatMap fun ⟨q, _⟩ => visits spec q
termination_by sizeOf v.node
decreasing_by exact Node.sizeOf_lt_of_mem_children (mem_children_of_mem_parts ‹_›)

theorem visits_eq (spec : Spec) (v : Visit) : v.visits spec = v :: (v.parts spec).flatMap (visits spec) := by
  rw [visits]
  simp [List.flatMap_subtype]

/-- The manner of the visit is right for the node, which is `Shaped` for it. -/
def Suits (named : String → Prop) (v : Visit) : Prop :=
  match v.manner with
  | .expr => Shaped named .expr v.node
  | .label => (identName? v.node).isSome = true
  | .statement => Shaped named .statement v.node
  | .body => Shaped named .block v.node ∨ Shaped named .program v.node

theorem Suits.map_parts (h : v.Suits named) (spec : Spec) : (v.parts spec).map (·.node) = v.node.children := by
  rw [Visit.map_parts]
  obtain ⟨manner, inFunction, env, node⟩ := v
  cases manner with
  | expr => exact map_exprParts (Shaped.holds h) inFunction env
  | label =>
    cases node with
    | ident => rfl
    | _ => cases h
  | statement => exact map_statementParts (Shaped.holds h) inFunction env
  | body =>
    rw [places, map_each]
    rcases h with h | h <;> cases h <;> rfl

theorem isBlock_of_expr {e : Node} (h : Shaped named .expr e) : isBlock e = false := by
  cases h with
  | ofChain h => cases h <;> rfl
  | _ => rfl

theorem isBlock_of_block {e : Node} (h : Shaped named .block e) : isBlock e = true := by
  cases h
  rfl

theorem suits_of_exprParts {e : Node} {inFunction : Bool} {env : Env} (h : Shaped named .expr e)
    (hq : q ∈ exprParts inFunction env e) (hm : q.node.isMissing = false) : q.Suits named := by
  cases h with
  | number | string => cases hq
  | ofChain h =>
    cases h with
    | ident => cases hq
    | @call _ callee args hcallee hargs =>
      simp only [exprParts, Option.getD_some, List.mem_cons, List.mem_map] at hq
      rcases hq with rfl | ⟨arg, harg, rfl⟩
      · by_cases hf : identName? callee = some fetchName
        · simp [Suits, hf]
        · simpa [Suits, hf] using Shaped.ofChain hcallee
      · exact hargs arg harg
    | member hobject _ =>
      simp only [exprParts, List.mem_cons, List.not_mem_nil, or_false] at hq
      rcases hq with rfl | rfl
      · exact Shaped.ofChain hobject
      · rfl
  | await hpart =>
    obtain rfl := List.mem_singleton.1 hq
    exact hpart hm
  | binary _ hleft hright =>
    simp only [exprParts, List.mem_cons, List.not_mem_nil, or_false] at hq
    rcases hq with rfl | rfl
    · exact hleft
    · exact hright hm
  | @assign _ target value htarget hvalue =>
    simp only [exprParts, List.mem_cons, List.not_mem_nil, or_false] at hq
    rcases hq with rfl | rfl
    · cases hn : identName? target with
      | none => simpa [Suits, hn] using htarget
      | some name => simp [Suits, hn]
    · exact hvalue hm
  | @arrow _ params body _ place _ hplace hbody =>
    obtain rfl := List.mem_singleton.1 hq
    have hshape := hbody hm
    rcases hplace with rfl | rfl
    · have hblock : isBlock body = false := isBlock_of_expr hshape
      simpa [Suits, hblock] using hshape
    · have hblock : isBlock body = true := isBlock_of_block hshape
      simpa [Suits, hblock] using .inl hshape

theorem suits_of_each {inFunction : Bool} {env : Env} {statements : List Node}
    (h : ∀ s ∈ statements, Shaped named .statement s) (hq : q ∈ each spec inFunction env statements) :
    q.Suits named := by
  obtain ⟨env', s, hs, rfl⟩ := exists_of_mem_each hq
  exact h s hs

theorem suits_of_alternate {e : Node} {inFunction : Bool} {env : Env} (h : Shaped named .alternate e) :
    Suits named
      (if isCondition e then ⟨.statement, inFunction, env, e⟩ else ⟨.body, inFunction, env.child, e⟩) := by
  cases h with
  | elseIf h =>
    have hc : isCondition e = true := by
      cases h
      rfl
    rw [if_pos hc]
    exact Shaped.ofCondition h
  | elseBlock h =>
    have hc : isCondition e = false := by
      cases h
      rfl
    rw [hc]
    exact .inl h

theorem suits_of_start {e : Node} {inFunction : Bool} {env : Env} {place : Place}
    (hplace : place = .declaration ∨ place = .expr) (h : Shaped named place e) :
    Suits named ⟨if isVariable e then .statement else .expr, inFunction, env, e⟩ := by
  rcases hplace with rfl | rfl
  · have hv : isVariable e = true := by
      cases h
      rfl
    simpa [Suits, hv] using Shaped.ofDeclaration h
  · have hv : isVariable e = false := by
      cases h with
      | ofChain h => cases h <;> rfl
      | _ => rfl
    simpa [Suits, hv] using h

theorem suits_of_statementParts {node : Node} {inFunction : Bool} {env : Env} (h : Shaped named .statement node)
    (hq : q ∈ statementParts spec inFunction env node) (hm : q.node.isMissing = false) : q.Suits named := by
  cases h with
  | breakStmt | continueStmt | importDecl => cases hq
  | ofDeclaration h =>
    cases h with
    | declaration _ _ hvalue =>
      obtain rfl := List.mem_singleton.1 hq
      exact hvalue hm
  | ofFunction h =>
    cases h with
    | function _ _ hbody =>
      obtain rfl := List.mem_singleton.1 hq
      exact .inl (hbody hm)
  | ofBlock h =>
    cases h with
    | block hbody => exact suits_of_each hbody hq
  | ofCondition h =>
    cases h with
    | @condition _ test consequent alternate htest hconsequent halternate =>
      simp only [statementParts, List.mem_cons, List.not_mem_nil, or_false] at hq
      rcases hq with rfl | rfl | rfl
      · exact htest hm
      · exact .inl (hconsequent hm)
      · apply suits_of_alternate (halternate ?_)
        cases hc : isCondition alternate <;> simpa [hc] using hm
  | printStmt hpart | returnStmt hpart =>
    obtain rfl := List.mem_singleton.1 hq
    exact hpart hm
  | exprStmt hpart =>
    obtain rfl := List.mem_singleton.1 hq
    exact hpart
  | whileStmt htest hbody =>
    simp only [statementParts, List.mem_cons, List.not_mem_nil, or_false] at hq
    rcases hq with rfl | rfl
    · exact htest hm
    · exact .inl (hbody hm)
  | forStmt hplace hinit htest hupdate hbody =>
    simp only [statementParts, List.mem_cons, List.not_mem_nil, or_false] at hq
    rcases hq with rfl | rfl | rfl | rfl
    · exact suits_of_start hplace (hinit hm)
    · exact htest hm
    · exact hupdate hm
    · exact .inl (hbody hm)
  | exportDecl hplace hpart =>
    obtain rfl := List.mem_singleton.1 hq
    rcases hplace with rfl | rfl
    · exact Shaped.ofDeclaration hpart
    · exact Shaped.ofFunction hpart
  | exportName | exportNothing =>
    obtain rfl := List.mem_singleton.1 hq
    cases hm

/-- The manners of the visits to the parts are right too. -/
theorem Suits.of_mem_parts (h : v.Suits named) (hq : q ∈ v.parts spec) : q.Suits named := by
  obtain ⟨hq, hm⟩ := List.mem_filter.1 hq
  rw [Bool.not_eq_true'] at hm
  obtain ⟨manner, inFunction, env, node⟩ := v
  cases manner with
  | expr => exact suits_of_exprParts h hq hm
  | label => cases hq
  | statement => exact suits_of_statementParts h hq hm
  | body =>
    rcases h with h | h
    · cases h with
      | block hbody => exact suits_of_each hbody hq
    · cases h with
      | program hbody => exact suits_of_each hbody hq

theorem mem_visits_of_mem_parts {p : Visit} (hp : p ∈ v.parts spec) (hq : q ∈ p.visits spec) : q ∈ v.visits spec := by
  rw [visits_eq]
  exact List.mem_cons_of_mem _ (List.mem_flatMap.2 ⟨p, hp, hq⟩)

theorem Suits.of_mem_visits (h : v.Suits named) (hq : q ∈ v.visits spec) : q.Suits named := by
  induction v using parts_induction spec with
  | step v ih =>
    rw [visits_eq, List.mem_cons, List.mem_flatMap] at hq
    rcases hq with rfl | ⟨p, hp, hq⟩
    · exact h
    · exact ih p hp (h.of_mem_parts hp) hq

/-- The visit that `check` makes to `program`. -/
def root (spec : Spec) (program : Node) : Visit := ⟨.body, false, globalEnv spec, program⟩

theorem suits_root (spec : Spec) {source : String} {program : Node} (h : parseText source = .ok program) :
    (root spec program).Suits (Cursor.isName · = true) := .inr (shaped_of_parseText h)

theorem outcome_root (spec : Spec) {source : String} {program : Node} (h : parseText source = .ok program) :
    ((root spec program).outcome spec).findings = check spec program := by
  obtain ⟨body, rfl⟩ := exists_body_of_parseText h
  rfl

theorem Suits.map_visits (h : v.Suits named) (spec : Spec) :
    (v.visits spec).map (·.node) = v.node :: v.node.descendants := by
  induction v using parts_induction spec with
  | step v ih =>
    have hparts : ∀ q ∈ v.parts spec, (q.visits spec).map (·.node) = q.node :: q.node.descendants := by
      intro q hq
      exact ih q hq (h.of_mem_parts hq)
    rw [visits_eq, Node.descendants_eq, ← h.map_parts spec, List.map_cons, List.map_flatMap, List.flatMap_map]
    exact congrArg (v.node :: ·) (List.flatMap_congr hparts)

/-- What is found on a visit is what is found about the nodes of `visits`. -/
theorem count_visits {μ : Findings → Nat} (hμ : Additive μ) (v : Visit) :
    μ (v.outcome spec).findings = ((v.visits spec).map fun q => μ (q.own spec)).sum := by
  induction v using parts_induction spec with
  | step v ih =>
    rw [count_findings hμ, total, List.map_congr_left ih, visits_eq, List.map_cons, List.sum_cons, List.map_flatMap,
      List.flatMap_def, List.sum_flatten, List.map_map]
    rfl

end Visit

end HindiScript.Typing
