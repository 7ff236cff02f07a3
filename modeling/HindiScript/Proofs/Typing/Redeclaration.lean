import HindiScript.Proofs.Typing.Visits
import Mathlib.Data.Finset.Card
import Mathlib.Data.Finset.Dedup

/-!
# Variables that are declared again

A declaration of a variable is an error if its scope has declared the name before. The scopes of a program are its body,
its blocks, which are also the bodies of functions, branches and loops, and the headers of loops with a counter, and
`Node.scopeNames` are the names that one declares directly. There is one error for each name too many
(`redeclarations_eq_sum`): neither an outer scope nor a parameter, a function, an import or a name of the spec is ever
in the way.
-/

namespace HindiScript

/-! ## The names of a scope -/

/-- The variable that a statement declares in its own scope. -/
def Node.declaredName? : Node → Option String
  | .variableDecl _ name _ _ => name.filter (· ≠ "")
  | .exportDecl _ declaration _ => declaration.declaredName?
  | _ => none

/-- The variables that are declared directly in the scope that a node opens; most nodes open none. -/
def Node.scopeNames : Node → List String
  | .program _ body | .block _ body => body.filterMap declaredName?
  | .forStmt _ init _ _ _ => init.declaredName?.toList
  | _ => []

namespace Typing

/-- How many of `names` are too many: those behind an equal one. -/
def repeats (names : List String) : Nat := names.length - names.dedup.length

@[simp] theorem repeats_nil : repeats [] = 0 := rfl

/-- How many names stand behind an equal one, or are among those that were seen before. -/
def repeatsAfter : List String → List String → Nat
  | _, [] => 0
  | seen, name :: rest => (if name ∈ seen then 1 else 0) + repeatsAfter (name :: seen) rest

theorem repeatsAfter_add_card (seen names : List String) :
    repeatsAfter seen names + (names.toFinset \ seen.toFinset).card = names.length := by
  induction names generalizing seen with
  | nil => simp [repeatsAfter]
  | cons name rest ih =>
    have hrest := ih (name :: seen)
    by_cases hseen : name ∈ seen
    · simp only [repeatsAfter, List.toFinset_cons, List.length_cons, if_pos hseen] at hrest ⊢
      rw [Finset.insert_eq_of_mem (List.mem_toFinset.2 hseen)] at hrest
      rw [Finset.insert_sdiff_of_mem _ (List.mem_toFinset.2 hseen)]
      omega
    · simp only [repeatsAfter, List.toFinset_cons, List.length_cons, if_neg hseen] at hrest ⊢
      have hcard := Finset.card_erase_add_one (Finset.mem_insert_self name (rest.toFinset \ seen.toFinset))
      rw [Finset.erase_insert_eq_erase, ← Finset.sdiff_insert] at hcard
      rw [Finset.insert_sdiff_of_notMem _ (fun hmem => hseen (List.mem_toFinset.1 hmem))]
      omega

theorem repeatsAfter_nil (names : List String) : repeatsAfter [] names = repeats names := by
  have h := repeatsAfter_add_card [] names
  rw [List.toFinset_nil, Finset.sdiff_empty, List.card_toFinset] at h
  unfold repeats
  omega

def Mistake.isRedeclared : Mistake → Bool
  | .redeclared _ => true
  | _ => false

/-! ## The names that were declared before -/

@[simp] theorem declared_child (env : Env) : env.child.scope.declared = [] := rfl

@[simp] theorem declared_hoist (env : Env) (statements : List Node) :
    (hoist env statements).scope.declared = env.scope.declared := declared_declareAll ..

@[simp] theorem declared_paramEnv (env : Env) (signature : Option Signature) (params : List String) :
    (paramEnv env signature params).scope.declared = [] := declared_declareAll ..

/-- A statement adds its `declaredName?` to its scope, and nothing else. -/
theorem declared_checkStatement (spec : Spec) (inFunction : Bool) (env : Env) (node : Node) :
    (checkStatement spec inFunction env node).env.scope.declared =
      node.declaredName?.toList ++ env.scope.declared := by
  cases node with
  | variableDecl line name value kind =>
    cases name with
    | none => rfl
    | some name =>
      by_cases hname : name = ""
      · simp [checkStatement, Node.declaredName?, hname]
      · simp [checkStatement, Node.declaredName?, hname, Option.filter, declareVariable, Env.declare, Env.addVariable]
  | exportDecl line declaration names => exact declared_checkStatement spec inFunction env declaration
  | returnStmt => cases inFunction <;> rfl
  | importDecl => exact declared_declareAll ..
  | _ => rfl

namespace Visit

variable {named : String → Prop} {spec : Spec} {v q : Visit}

/-- The number of variables that the statement declares again in its scope. -/
def again (v : Visit) : Nat :=
  match v.manner with
  | .statement => (v.node.declaredName?.filter (· ∈ v.env.scope.declared)).toList.length
  | _ => 0

@[simp] theorem again_statement (inFunction : Bool) (env : Env) (node : Node) :
    again ⟨.statement, inFunction, env, node⟩ =
      (node.declaredName?.filter (· ∈ env.scope.declared)).toList.length := rfl

theorem again_eq_zero (h : v.manner ≠ .statement) : v.again = 0 := by
  unfold again
  split
  · next heq => exact absurd heq h
  · rfl

/-- Statements that follow on each other declare again what is declared before them. -/
theorem again_each (spec : Spec) (inFunction : Bool) (env : Env) (statements : List Node) :
    ((each spec inFunction env statements).map again).sum =
      repeatsAfter env.scope.declared (statements.filterMap Node.declaredName?) := by
  induction statements generalizing env with
  | nil => rfl
  | cons statement rest ih =>
    simp only [each, List.map_cons, List.sum_cons, ih, declared_checkStatement, again_statement]
    cases hname : statement.declaredName? with
    | none => simp [hname]
    | some name =>
      by_cases hmem : name ∈ env.scope.declared <;> simp [hname, hmem, repeatsAfter, Option.filter]

/-! ## Scopes start without variables -/

/-- Statements that are checked as the `body` of something are the first ones in their scope. -/
def Fresh (v : Visit) : Prop := v.manner = .body → v.env.scope.declared = []

theorem fresh_of_mem_each {inFunction : Bool} {env : Env} {statements : List Node}
    (h : q ∈ each spec inFunction env statements) : q.Fresh := by
  obtain ⟨env', s, -, rfl⟩ := exists_of_mem_each h
  intro hm
  cases hm

theorem exprParts_fresh {inFunction : Bool} {env : Env} {e : Node} :
    ∀ q ∈ exprParts inFunction env e, q.manner ≠ .statement ∧ q.Fresh := by
  cases e with
  | assign line target value => cases hn : identName? target <;> simp [exprParts, hn, Fresh]
  | call line callee args =>
    by_cases hf : identName? callee = some fetchName <;> simp [exprParts, hf, Fresh]
  | arrow line params body isAsync => cases hb : isBlock body <;> simp [exprParts, hb, Fresh]
  | _ => simp [exprParts, Fresh]

theorem fresh_of_mem_statementParts {inFunction : Bool} {env : Env} {node : Node} :
    ∀ q ∈ statementParts spec inFunction env node, q.Fresh := by
  cases node with
  | block => exact fun q hq => fresh_of_mem_each hq
  | ifStmt line test consequent alternate =>
    cases hc : isCondition alternate <;> simp [statementParts, hc, Fresh]
  | forStmt line init test update body => cases hv : isVariable init <;> simp [statementParts, hv, Fresh]
  | _ => simp [statementParts, Fresh]

theorem fresh_of_mem_parts (h : q ∈ v.parts spec) : q.Fresh := by
  have hq := (List.mem_filter.1 h).1
  obtain ⟨manner, inFunction, env, node⟩ := v
  cases manner with
  | expr => exact (exprParts_fresh q hq).2
  | label => cases hq
  | statement => exact fresh_of_mem_statementParts q hq
  | body => exact fresh_of_mem_each hq

/-! ## What is found about a node -/

theorem redeclared_exprOwn (env : Env) (e : Node) : (exprOwn spec env e).errors.countP Mistake.isRedeclared = 0 := by
  rw [List.countP_eq_length_filter, filter_exprOwn (fun _ _ _ => rfl) fun _ _ _ => rfl]
  rfl

theorem redeclared_variableOwn (env : Env) (name : Option String) (inferred : String) :
    (variableOwn spec env name inferred).errors.countP Mistake.isRedeclared =
      ((name.filter (· ≠ "")).filter (· ∈ env.scope.declared)).toList.length := by
  rw [List.countP_eq_length_filter, filter_variableOwn fun _ _ _ => rfl, List.filter_map, List.length_map]
  simp [Function.comp_def, Mistake.isRedeclared]

theorem redeclared_returnFindings (name : String) (signature : Option Signature) (returned : List String) :
    (returnFindings name signature returned).errors.countP Mistake.isRedeclared = 0 := by
  unfold returnFindings
  split
  · split
    · rfl
    · split
      · rfl
      · simp [Mistake.isRedeclared]
  · rfl

theorem again_exprParts (inFunction : Bool) (env : Env) (e : Node) :
    ((exprParts inFunction env e).map again).sum = 0 := by
  rw [List.map_congr_left fun q hq => again_eq_zero (exprParts_fresh q hq).1]
  simp

theorem declaredName?_of_isCondition {node : Node} (h : isCondition node = true) : node.declaredName? = none := by
  cases node with
  | ifStmt => rfl
  | _ => cases h

theorem again_statementParts {node : Node} (h : node.isStatement = true) (inFunction : Bool) (env : Env) :
    (statementOwn spec inFunction env node).errors.countP Mistake.isRedeclared
        + ((statementParts spec inFunction env node).map again).sum =
      again ⟨.statement, inFunction, env, node⟩ + repeats node.scopeNames := by
  cases node with
  | variableDecl line name value kind =>
    rw [statementOwn, redeclared_variableOwn]
    rfl
  | functionDecl line name params body isAsync =>
    have hparams := filter_paramFindings (p := Mistake.isRedeclared) (fun _ _ _ => rfl) (name.getD "")
      (signatureOf spec name) (params.getD [])
    rw [statementOwn, Findings.errors_append, List.countP_append, redeclared_returnFindings,
      List.countP_eq_length_filter, hparams]
    rfl
  | block line body =>
    rw [statementParts, again_each, declared_hoist, declared_child, repeatsAfter_nil]
    simp [statementOwn, Node.declaredName?, Node.scopeNames]
  | forStmt line init test update body =>
    -- a header declares one variable at most, in a scope of its own
    cases hv : isVariable init <;> cases hn : init.declaredName? <;>
      simp [statementOwn, statementParts, hv, hn, Node.scopeNames, Node.declaredName?, repeats, again]
  | exportDecl => simp [statementOwn, statementParts, Node.scopeNames, Node.declaredName?]
  | ifStmt line test consequent alternate =>
    cases hc : isCondition alternate with
    | true =>
      have hname := declaredName?_of_isCondition hc
      simp [statementOwn, statementParts, hc, hname, Node.scopeNames, Node.declaredName?, again]
    | false => simp [statementOwn, statementParts, hc, Node.scopeNames, Node.declaredName?, again]
  | whileStmt => simp [statementOwn, statementParts, Node.scopeNames, Node.declaredName?, again]
  | returnStmt => cases inFunction <;> rfl
  | printStmt | exprStmt | breakStmt | continueStmt | importDecl => rfl
  | _ => cases h

theorem again_of_missing {q : Visit} (h : q.node.isMissing = true) : q.again = 0 := by
  obtain ⟨manner, inFunction, env, node⟩ := q
  cases node with
  | missing => cases manner <;> rfl
  | _ => cases h

theorem scopeNames_of_isExpression {e : Node} (h : e.isExpression = true) : e.scopeNames = [] := by
  cases e with
  | block | program | forStmt => cases h
  | _ => rfl

/-! ## Counting -/

/-- One node: what it declares again, and what its parts declare again in the scope that it opens. -/
theorem Suits.count_parts (h : v.Suits named) (hv : v.Fresh) (spec : Spec) :
    (v.own spec).errors.countP Mistake.isRedeclared + ((v.parts spec).map again).sum =
      v.again + repeats v.node.scopeNames := by
  rw [sum_parts fun q => again_of_missing]
  obtain ⟨manner, inFunction, env, node⟩ := v
  cases manner with
  | expr =>
    have hnames : node.scopeNames = [] := scopeNames_of_isExpression (Shaped.holds h)
    simp [own, places, redeclared_exprOwn, again_exprParts, again, hnames]
  | label =>
    cases node with
    | ident => rfl
    | _ => cases h
  | statement => exact again_statementParts (Shaped.holds h) inFunction env
  | body =>
    have hdeclared : env.scope.declared = [] := hv rfl
    rw [places, again_each, declared_hoist, hdeclared, repeatsAfter_nil]
    rcases h with h | h <;> cases h <;> simp [own, again, Node.body, Node.scopeNames]

/-- A visit finds what the node declares again, and `repeats` mistakes for each scope at or below it. -/
theorem Suits.count_redeclared (h : v.Suits named) (hv : v.Fresh) :
    (v.outcome spec).findings.errors.countP Mistake.isRedeclared =
      v.again + ((v.node :: v.node.descendants).map fun n => repeats n.scopeNames).sum := by
  induction v using parts_induction spec with
  | step v ih =>
    -- what a part declares again counts for this node; the scopes at and below the part count for themselves
    have hparts : total (fun f => f.errors.countP Mistake.isRedeclared) spec (v.parts spec) =
        ((v.parts spec).map again).sum + (v.node.descendants.map fun n => repeats n.scopeNames).sum := by
      have hsplit := List.map_congr_left fun q hq => ih q hq (h.of_mem_parts hq) (fresh_of_mem_parts hq)
      rw [total, hsplit, List.sum_map_add, Node.descendants_eq, ← h.map_parts spec, List.flatMap_map, List.map_flatMap,
        List.flatMap_def, List.sum_flatten, List.map_map]
      rfl
    refine (count_findings (additive_errors Mistake.isRedeclared) v).trans ?_
    have hstep := h.count_parts hv spec
    rw [hparts, List.map_cons, List.sum_cons]
    omega

end Visit

/-! ## Programs -/

/-- The texts of the other mistakes start with other letters. -/
theorem startsWith_redeclaration (e : Mistake) : e.startsWith "Redeclaration of variable " = e.isRedeclared := by
  have hstem : "Redeclaration of variable ".toList.head? = some 'R' := by decide +kernel
  unfold Mistake.startsWith
  rw [Bool.eq_iff_iff, List.isPrefixOf_iff_prefix]
  constructor
  · rintro ⟨rest, hrest⟩
    have hfirst := e.head?_message
    rw [← hrest, List.head?_append, hstem, Option.some_or, Option.some.injEq] at hfirst
    cases e with
    | redeclared => rfl
    | _ => simp [Mistake.initial] at hfirst
  · intro h
    cases e with
    | redeclared name => exact ⟨name.toList, String.toList_append.symm⟩
    | _ => cases h

/-- `check` gives one error for each name too many among the `scopeNames` of a node of the program. -/
theorem redeclarations_eq_sum (spec : Spec) {source : String} {program : Node} (h : parseText source = .ok program) :
    (check spec program).errors.countP (·.startsWith "Redeclaration of variable ") =
      ((program :: program.descendants).map fun n => n.scopeNames.length - n.scopeNames.dedup.length).sum := by
  have hfits := Visit.suits_root spec h
  have hfresh : (Visit.root spec program).Fresh := fun _ => declared_declareAll ..
  rw [funext startsWith_redeclaration, ← Visit.outcome_root spec h, hfits.count_redeclared hfresh]
  exact Nat.zero_add _

/-- A variable in a function that has a parameter of its name, and two outside of it. -/
def redeclaringSource : String := "karya f(x) \x7b ye x = 1 \x7d sthayi x = 2 niryaat ye x = 3"

/-- What is read from `redeclaringSource`. -/
def redeclaringProgram : Node :=
  .program none
    [.functionDecl (some 1) (some "f") (some ["x"])
      (.block (some 1) [.variableDecl (some 1) (some "x") (.literal (some 1) (.number 1)) "let"]) false,
      .variableDecl (some 1) (some "x") (.literal (some 1) (.number 2)) "const",
      .exportDecl (some 1) (.variableDecl (some 1) (some "x") (.literal (some 1) (.number 3)) "let") none]

theorem redeclarations_eq_sum_exported :
    parseText redeclaringSource = .ok redeclaringProgram ∧
      ((redeclaringProgram :: redeclaringProgram.descendants).map fun n =>
        n.scopeNames.length - n.scopeNames.dedup.length).sum = 1 := by
  have hparse : parseText redeclaringSource = .ok redeclaringProgram := by
    have htokens : tokenize redeclaringSource =
        .ok [⟨.keyword .karya, 1, 1⟩, ⟨.ident "f", 1, 7⟩, ⟨.punct .parenOpen, 1, 8⟩, ⟨.ident "x", 1, 9⟩,
          ⟨.punct .parenClose, 1, 10⟩, ⟨.punct .braceOpen, 1, 12⟩, ⟨.keyword .ye, 1, 14⟩, ⟨.ident "x", 1, 17⟩,
          ⟨.op "=", 1, 19⟩, ⟨.number 1, 1, 21⟩, ⟨.punct .braceClose, 1, 23⟩, ⟨.keyword .sthayi, 1, 25⟩,
          ⟨.ident "x", 1, 32⟩, ⟨.op "=", 1, 34⟩, ⟨.number 2, 1, 36⟩, ⟨.keyword .niryaat, 1, 38⟩, ⟨.keyword .ye, 1, 46⟩,
          ⟨.ident "x", 1, 49⟩, ⟨.op "=", 1, 51⟩, ⟨.number 3, 1, 53⟩] := by
      decide +kernel
    rw [parseText, htokens]
    rfl
  have hcount : (check (.parse "x: number") redeclaringProgram).errors.countP
      (·.startsWith "Redeclaration of variable ") = 1 := by
    decide +kernel
  exact ⟨hparse, (redeclarations_eq_sum (.parse "x: number") hparse).symm.trans hcount⟩

end Typing

end HindiScript
