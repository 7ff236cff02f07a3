import HindiScript.Proofs.Typing.Visits
import Mathlib.Data.List.Perm.Basic

/-!
# Returns and their functions

A return belongs to the innermost function or arrow function around it (`Node.ownReturns`). The check hands returns on
from block to block until it comes to that function: what is noted for a declared function when its body is done are
exactly its own returns, in the order of the source, and a return outside of all functions gives one warning. So a
function that should return a value is an error if and only if it has no return of its own, and otherwise each of its
returns is an error if its type is not allowed (`returns_attributed`).
-/

namespace HindiScript

/-! ## Whose return it is -/

namespace Node

/-- The node is a function of either kind. -/
def isFunction : Node → Bool
  | functionDecl .. | arrow .. => true
  | _ => false

def isFunctionDecl : Node → Bool
  | functionDecl .. => true
  | _ => false

theorem isFunction_of_isFunctionDecl {n : Node} (h : n.isFunctionDecl = true) : n.isFunction = true := by
  cases n with
  | functionDecl => rfl
  | _ => cases h

def isReturn : Node → Bool
  | returnStmt .. => true
  | _ => false

/-- `n` and the nodes below it that stand in none of the functions there. -/
def outside (n : Node) : List Node :=
  n :: if n.isFunction then [] else n.children.attach.flatMap fun ⟨c, _⟩ => outside c
termination_by sizeOf n
decreasing_by exact sizeOf_lt_of_mem_children ‹_›

theorem outside_of_function {n : Node} (h : n.isFunction = true) : n.outside = [n] := by
  rw [outside, if_pos h]

theorem outside_of_not_function {n : Node} (h : n.isFunction = false) :
    n.outside = [n] ++ n.children.flatMap outside := by
  rw [outside, h]
  simp [List.flatMap_subtype]

/-- The returns of a program or a function: those below it with no function in between. -/
def ownReturns (n : Node) : List Node := (n.children.flatMap outside).filter isReturn

theorem countP_outside {n : Node} (hf : n.isFunction = false) (hr : n.isReturn = false) :
    n.outside.countP isReturn = n.ownReturns.length := by
  rw [outside_of_not_function hf, List.countP_append, ownReturns, ← List.countP_eq_length_filter]
  simp [hr]

/-- Every return below `n` belongs to exactly one function there, or to `n` itself. -/
theorem perm_ownReturns (n : Node) :
    (n.descendants.filter isReturn).Perm
      (n.ownReturns ++ (n.descendants.filter isFunction).flatMap ownReturns) := by
  rw [descendants_eq, ownReturns, List.filter_flatMap, List.filter_flatMap, List.filter_flatMap, List.flatMap_assoc]
  refine (List.Perm.flatMap_left _ ?_).trans (List.flatMap_append_perm _ _ _).symm
  -- the returns at and below a child: those outside of the functions there, and those of the functions
  intro c hc
  have ih := perm_ownReturns c
  show List.Perm (([c] ++ c.descendants).filter isReturn) _
  rw [List.filter_append]
  cases hf : c.isFunction with
  | true =>
    rw [outside_of_function hf, List.filter_cons_of_pos hf, List.flatMap_cons]
    exact ih.append_left _
  | false =>
    have hneg : ¬ c.isFunction = true := by simp [hf]
    rw [outside_of_not_function hf, List.filter_append, List.filter_cons_of_neg hneg, List.append_assoc]
    exact ih.append_left _
termination_by sizeOf n
decreasing_by exact sizeOf_lt_of_mem_children ‹_›

end Node

namespace Typing

variable {named : String → Prop} {spec : Spec} {v q : Visit}

namespace Visit

theorem inFunction_of_mem_each {inFunction : Bool} {env : Env} {statements : List Node}
    (h : q ∈ each spec inFunction env statements) : q.inFunction = inFunction := by
  obtain ⟨env', s, -, rfl⟩ := exists_of_mem_each h
  rfl

theorem inFunction_of_mem_exprParts {inFunction : Bool} {env : Env} {e : Node} :
    ∀ q ∈ exprParts inFunction env e, q.inFunction = (inFunction || e.isFunction) := by
  cases e <;> simp [exprParts, Node.isFunction]

theorem inFunction_of_mem_statementParts {inFunction : Bool} {env : Env} {node : Node} :
    ∀ q ∈ statementParts spec inFunction env node, q.inFunction = (inFunction || node.isFunction) := by
  cases node with
  | block line body =>
    intro q hq
    simpa [Node.isFunction] using inFunction_of_mem_each hq
  | ifStmt line test consequent alternate =>
    cases hc : isCondition alternate <;> simp [statementParts, Node.isFunction, hc]
  | _ => simp [statementParts, Node.isFunction]

/-- A part is in a function if the node is, or is one itself. -/
theorem inFunction_of_mem_parts (h : q ∈ v.parts spec) : q.inFunction = (v.inFunction || v.node.isFunction) := by
  have hq := (List.mem_filter.1 h).1
  obtain ⟨manner, inFunction, env, node⟩ := v
  cases manner with
  | expr => exact inFunction_of_mem_exprParts q hq
  | label => cases hq
  | statement => exact inFunction_of_mem_statementParts q hq
  | body =>
    rw [inFunction_of_mem_each hq]
    cases node with
    | functionDecl | arrow => cases hq
    | _ => simp [Node.isFunction]

theorem returns_each (inFunction : Bool) (env : Env) (statements : List Node) :
    (each spec inFunction env statements).flatMap (fun q => (q.outcome spec).returns) =
      (checkEach spec inFunction env statements).returns := by
  induction statements generalizing env with
  | nil => rfl
  | cons statement rest ih => simp [each, checkEach_cons, ih]

theorem returns_parts (v : Visit) :
    (v.parts spec).flatMap (fun q => (q.outcome spec).returns) =
      (v.places spec).flatMap fun q => (q.outcome spec).returns := by
  unfold parts
  induction v.places spec with
  | nil => rfl
  | cons q rest ih =>
    cases hm : q.node.isMissing with
    | true => simp [hm, ih, outcome_of_missing hm]
    | false => simp [hm, ih]

theorem returns_exprParts {inFunction : Bool} {env : Env} {e : Node} (h : e.isFunction = false) :
    (exprParts inFunction env e).flatMap (fun q => (q.outcome spec).returns) = [] := by
  cases e with
  | assign line target value => cases hn : identName? target <;> simp [exprParts, hn]
  | call line callee args =>
    by_cases hf : identName? callee = some fetchName <;> simp [exprParts, hf]
  | arrow => cases h
  | _ => simp [exprParts]

theorem returns_statementParts {inFunction : Bool} {env : Env} {node : Node} (h : node.isFunction = false) :
    (checkStatement spec inFunction env node).returns = ownReturns spec ⟨.statement, inFunction, env, node⟩ ++
      (statementParts spec inFunction env node).flatMap fun q => (q.outcome spec).returns := by
  cases node with
  | variableDecl line name value kind =>
    obtain ⟨after, found, hcheck⟩ := checkStatement_variableDecl spec env name
    simp [hcheck, ownReturns, statementParts]
  | functionDecl => cases h
  | block line body => exact (returns_each inFunction (hoist env.child body) body).symm
  | ifStmt line test consequent alternate =>
    cases hc : isCondition alternate <;> simp [checkStatement_ifStmt, ownReturns, statementParts, hc]
  | whileStmt => simp [checkStatement_whileStmt, ownReturns, statementParts]
  | forStmt => simp [checkStatement_forStmt, ownReturns, statementParts, outcome_start, returns_checkStart]
  | returnStmt line value => cases inFunction <;> simp [checkStatement_returnStmt, ownReturns, statementParts]
  | exportDecl => simp [checkStatement_exportDecl, ownReturns, statementParts]
  | _ => rfl

/-- A visit hands on what its node returns itself (`ownReturns`) and what its parts hand on, but a function keeps what
it is handed. -/
theorem returns_eq (v : Visit) :
    (v.outcome spec).returns = v.ownReturns spec ++
      if v.node.isFunction then [] else (v.parts spec).flatMap fun q => (q.outcome spec).returns := by
  rw [returns_parts]
  obtain ⟨manner, inFunction, env, node⟩ := v
  cases manner with
  | expr =>
    cases hf : node.isFunction with
    | true => rfl
    | false => exact (returns_exprParts hf).symm
  | label => simp [ownReturns, places]
  | statement =>
    cases hf : node.isFunction with
    | true => cases node <;> first | rfl | cases hf
    | false => exact returns_statementParts hf
  | body =>
    rw [outcome_body, checkBody_eq, ← returns_each]
    cases node with
    | functionDecl | arrow => rfl
    | _ => simp [ownReturns, places, Node.isFunction]

/-! ## Returns in functions -/

/-- A return and a declaration of a function are checked as statements. -/
theorem Suits.manner_eq (h : v.Suits named) (hn : (v.node.isReturn || v.node.isFunctionDecl) = true) :
    v.manner = .statement := by
  obtain ⟨manner, inFunction, env, node⟩ := v
  cases node with
  | returnStmt | functionDecl =>
    cases manner with
    | statement => rfl
    | expr =>
      cases h with
      | ofChain h => cases h
    | label => cases h
    | body => rcases h with h | h <;> cases h
  | _ => cases hn

theorem Suits.isReturn_eq_false (h : v.Suits named) (hm : v.manner ≠ .statement) : v.node.isReturn = false := by
  cases hr : v.node.isReturn with
  | true => exact absurd (h.manner_eq (by rw [hr, Bool.true_or])) hm
  | false => rfl

theorem Suits.map_ownReturns (h : v.Suits named) :
    (v.ownReturns spec).map (·.1) = [v.node].filter fun n => v.inFunction && n.isReturn := by
  cases hr : v.node.isReturn with
  | true =>
    have hm := h.manner_eq (by rw [hr, Bool.true_or])
    obtain ⟨manner, inFunction, env, node⟩ := v
    obtain rfl : manner = .statement := hm
    cases node with
    | returnStmt => cases inFunction <;> rfl
    | _ => cases hr
  | false =>
    have hown : v.ownReturns spec = [] := by
      unfold ownReturns
      split
      · next heq =>
        rw [heq] at hr
        cases hr
      · rfl
    simp [hown, hr]

/-- The visits to the parts hand on the returns that stand below the node and in no function there. -/
theorem Suits.map_returns_parts (h : v.Suits named)
    (ih : ∀ q ∈ v.parts spec,
      (q.outcome spec).returns.map (·.1) = q.node.outside.filter fun n => q.inFunction && n.isReturn) :
    ((v.parts spec).flatMap fun q => (q.outcome spec).returns).map (·.1) =
      (v.node.children.flatMap Node.outside).filter fun n => (v.inFunction || v.node.isFunction) && n.isReturn := by
  rw [← h.map_parts spec, List.map_flatMap, List.flatMap_map, List.filter_flatMap]
  apply List.flatMap_congr
  intro q hq
  rw [ih q hq, inFunction_of_mem_parts hq]

/-- A visit in a function hands on the returns `outside` of the functions below its node. -/
theorem Suits.map_returns (h : v.Suits named) :
    (v.outcome spec).returns.map (·.1) = v.node.outside.filter fun n => v.inFunction && n.isReturn := by
  induction v using parts_induction spec with
  | step v ih =>
    rw [returns_eq, List.map_append, h.map_ownReturns]
    cases hf : v.node.isFunction with
    | true => simp [Node.outside_of_function hf]
    | false =>
      have hparts := h.map_returns_parts fun q hq => ih q hq (h.of_mem_parts hq)
      rw [hf, Bool.or_false] at hparts
      rw [Node.outside_of_not_function hf, List.filter_append, ← hparts]
      rfl

/-! ## Returns outside of functions -/

theorem returnOutside_exprOwn (env : Env) (e : Node) :
    (exprOwn spec env e).warnings.countP (· = .returnOutside) = 0 := by
  cases e with
  | binary => simp [exprOwn]
  | ident line name =>
    simp only [exprOwn, useFindings]
    split <;> rfl
  | assign line target value =>
    simp only [exprOwn]
    split
    · simp only [assignmentFindings, Findings.warnings_append, warnings_valueFindings]
      split <;> rfl
    · rfl
  | _ => rfl

theorem returnOutside_testFindings {warning : String → Warning} (h : ∀ type, warning type ≠ .returnOutside)
    (inferred : String) : (testFindings warning inferred).warnings.countP (· = .returnOutside) = 0 := by
  unfold testFindings
  split <;> simp [Findings.warning, h]

theorem returnOutside_statementOwn (inFunction : Bool) (env : Env) (node : Node) :
    (statementOwn spec inFunction env node).warnings.countP (· = .returnOutside) =
      [node].countP fun n => !inFunction && n.isReturn := by
  cases node with
  | variableDecl line name value kind =>
    simp only [statementOwn, variableOwn]
    split
    · split <;> simp [Node.isReturn]
    · simp [Node.isReturn]
  | functionDecl => simp [statementOwn, Node.isReturn]
  | ifStmt | whileStmt | forStmt => simp [statementOwn, returnOutside_testFindings, Node.isReturn]
  | returnStmt => cases inFunction <;> rfl
  | exportDecl => simp [statementOwn, exportFindings, Node.isReturn, Function.comp_def]
  | _ => simp [statementOwn, Node.isReturn]

theorem Suits.returnOutside_own (h : v.Suits named) (spec : Spec) :
    (v.own spec).warnings.countP (· = .returnOutside) = [v.node].countP fun n => !v.inFunction && n.isReturn := by
  obtain ⟨manner, inFunction, env, node⟩ := v
  cases manner with
  | statement => exact returnOutside_statementOwn inFunction env node
  | expr =>
    have hr : node.isReturn = false := h.isReturn_eq_false (by simp)
    simp [own, returnOutside_exprOwn, hr]
  | label | body =>
    have hr : node.isReturn = false := h.isReturn_eq_false (by simp)
    simp [own, hr]

/-- A visit outside of functions warns of the returns `outside` of the functions below its node. -/
theorem Suits.returnOutside_outcome (h : v.Suits named) :
    (v.outcome spec).findings.warnings.countP (· = .returnOutside) =
      v.node.outside.countP fun n => !v.inFunction && n.isReturn := by
  induction v using parts_induction spec with
  | step v ih =>
    have hparts : total (fun f => f.warnings.countP (· = .returnOutside)) spec (v.parts spec) =
        (v.node.children.flatMap Node.outside).countP fun n => !(v.inFunction || v.node.isFunction) && n.isReturn := by
      rw [← h.map_parts spec, List.flatMap_map, List.countP_flatMap, total]
      apply congrArg List.sum (List.map_congr_left _)
      intro q hq
      rw [ih q hq (h.of_mem_parts hq), inFunction_of_mem_parts hq]
      rfl
    refine (count_findings (additive_warnings (· = .returnOutside)) v).trans ?_
    rw [h.returnOutside_own spec, hparts]
    cases hf : v.node.isFunction with
    | true => simp [Node.outside_of_function hf]
    | false => rw [Node.outside_of_not_function hf, List.countP_append, Bool.or_false]

/-! ## What is found about the returns of a function -/

/-- What is noted for a declared function when its body is done. -/
def recorded (spec : Spec) (v : Visit) : List (Node × String) :=
  match v.node with
  | .functionDecl _ name params body _ =>
    (checkBody spec true (paramEnv v.env (signatureOf spec name) (params.getD [])) body).returns
  | _ => []

theorem recorded_functionDecl (manner : Manner) (inFunction : Bool) (env : Env) (line : Option Int)
    (name : Option String) (params : Option (List String)) (body : Node) (isAsync : Bool) :
    recorded spec ⟨manner, inFunction, env, .functionDecl line name params body isAsync⟩ =
      (checkBody spec true (paramEnv env (signatureOf spec name) (params.getD [])) body).returns := rfl

theorem recorded_eq (h : v.manner = .statement) (hf : v.node.isFunctionDecl = true) :
    v.recorded spec = (v.parts spec).flatMap fun q => (q.outcome spec).returns := by
  rw [returns_parts]
  obtain ⟨manner, inFunction, env, node⟩ := v
  obtain rfl : manner = .statement := h
  cases node with
  | functionDecl => exact (List.flatMap_singleton ..).symm
  | _ => cases hf

theorem Suits.map_recorded (h : v.Suits named) (hf : v.node.isFunctionDecl = true) (spec : Spec) :
    (v.recorded spec).map (·.1) = v.node.ownReturns := by
  rw [recorded_eq (h.manner_eq (by rw [hf, Bool.or_true])) hf,
    h.map_returns_parts fun q hq => (h.of_mem_parts hq).map_returns, Node.isFunction_of_isFunctionDecl hf]
  simp [Node.ownReturns]

theorem exists_of_mem_ownReturns {r : Node × String} (h : r ∈ v.ownReturns spec) :
    ∃ line value, v.node = .returnStmt line value ∧ r = (v.node, infer spec v.env value) := by
  obtain ⟨manner, inFunction, env, node⟩ := v
  unfold ownReturns at h
  split at h
  · next line value _ heq =>
    split at h
    · obtain rfl := List.mem_singleton.1 h
      exact ⟨line, value, heq, by rw [heq]⟩
    · cases h
  · cases h

/-- What is returned was inferred where the return stands. -/
theorem exists_of_mem_returns {r : Node × String} (h : r ∈ (v.outcome spec).returns) :
    ∃ q ∈ v.visits spec, ∃ line value, q.node = .returnStmt line value ∧ r = (q.node, infer spec q.env value) := by
  induction v using parts_induction spec with
  | step v ih =>
    rw [returns_eq, List.mem_append] at h
    rcases h with hown | hparts
    · exact ⟨v, visits_eq spec v ▸ List.mem_cons_self, exists_of_mem_ownReturns hown⟩
    · split at hparts
      · cases hparts
      · obtain ⟨p, hp, hr⟩ := List.mem_flatMap.1 hparts
        obtain ⟨q, hq, hreturn⟩ := ih p hp hr
        exact ⟨q, mem_visits_of_mem_parts hp hq, hreturn⟩

theorem Suits.exists_of_mem_recorded (h : v.Suits named) (hf : v.node.isFunctionDecl = true) {r : Node × String}
    (hr : r ∈ v.recorded spec) :
    ∃ q ∈ v.visits spec, ∃ line value, q.node = .returnStmt line value ∧ r = (q.node, infer spec q.env value) := by
  rw [recorded_eq (h.manner_eq (by rw [hf, Bool.or_true])) hf] at hr
  obtain ⟨p, hp, hr⟩ := List.mem_flatMap.1 hr
  obtain ⟨q, hq, hreturn⟩ := exists_of_mem_returns hr
  exact ⟨q, mem_visits_of_mem_parts hp hq, hreturn⟩

def returnType? (spec : Spec) (name : Option String) : Option String :=
  ((signatureOf spec name).map (·.returns)).filter fun type => type ≠ "" && type ≠ void

/-- The mistakes about the returns of a declared function. If it should return a value it is a mistake that it has no
return of its own, and else that one of them has a type that is not allowed. -/
def returnMistakes (spec : Spec) (v : Visit) : List Mistake :=
  match v.node with
  | .functionDecl _ name _ _ _ =>
    match returnType? spec name with
    | some type =>
      if v.node.ownReturns.isEmpty then [.noReturn (name.getD "") type]
      else ((v.recorded spec).filter fun r => !allows type r.2).map fun r => .wrongReturn (name.getD "") type r.2
    | none => []
  | _ => []

end Visit

/-- The mistake is about what a function returns. -/
def Mistake.isAboutReturns : Mistake → Bool
  | .noReturn .. | .wrongReturn .. => true
  | _ => false

namespace Visit

theorem returnMistakes_eq_nil (h : v.node.isFunctionDecl = false) : v.returnMistakes spec = [] := by
  obtain ⟨manner, inFunction, env, node⟩ := v
  cases node with
  | functionDecl => cases h
  | _ => rfl

theorem flatMap_returnMistakes (visits : List Visit) :
    (visits.filter (·.node.isFunctionDecl)).flatMap (·.returnMistakes spec) =
      visits.flatMap (·.returnMistakes spec) := by
  induction visits with
  | nil => rfl
  | cons v rest ih =>
    cases hf : v.node.isFunctionDecl with
    | true => simp [hf, ih]
    | false => simp [hf, ih, returnMistakes_eq_nil hf]

theorem errors_returnFindings_of_none {name : Option String} (h : returnType? spec name = none)
    (returned : List String) : (returnFindings (name.getD "") (signatureOf spec name) returned).errors = [] := by
  unfold returnType? at h
  cases hs : signatureOf spec name with
  | none => rfl
  | some signature =>
    have hvoid : signature.returns ≠ "" → signature.returns = void := by simpa [hs] using h
    by_cases hempty : signature.returns = ""
    · simp [returnFindings, hempty]
    · simp [returnFindings, hvoid hempty]

theorem errors_returnFindings_of_some {name : Option String} {type : String} (h : returnType? spec name = some type)
    (returned : List String) :
    (returnFindings (name.getD "") (signatureOf spec name) returned).errors =
      if returned.isEmpty then [.noReturn (name.getD "") type]
      else (returned.filter (!allows type ·)).map (.wrongReturn (name.getD "") type) := by
  unfold returnType? at h
  cases hs : signatureOf spec name with
  | none => simp [hs] at h
  | some signature =>
    obtain ⟨rfl, hempty, hvoid⟩ : signature.returns = type ∧ type ≠ "" ∧ type ≠ void := by simpa [hs] using h
    simp only [returnFindings, hempty, hvoid, decide_false, Bool.or_self, Bool.false_eq_true, if_false]
    split <;> rfl

theorem filter_statementOwn {node : Node} (h : node.isFunctionDecl = false) (inFunction : Bool) (env : Env) :
    (statementOwn spec inFunction env node).errors.filter Mistake.isAboutReturns = [] := by
  cases node with
  | variableDecl =>
    rw [statementOwn, filter_variableOwn fun _ _ _ => rfl, List.filter_map]
    simp [Function.comp_def, Mistake.isAboutReturns]
  | functionDecl => cases h
  | ifStmt | whileStmt | forStmt | exportDecl => simp [statementOwn]
  | returnStmt => cases inFunction <;> rfl
  | _ => rfl

theorem filter_map_wrongReturn (name type : String) (returned : List String) :
    (returned.map (Mistake.wrongReturn name type)).filter Mistake.isAboutReturns =
      returned.map (.wrongReturn name type) := by
  simp [List.filter_map, Function.comp_def, Mistake.isAboutReturns]

/-- Of what is found about a node, the mistakes about returns are `returnMistakes`. -/
theorem Suits.filter_errors_own (h : v.Suits named) :
    (v.own spec).errors.filter Mistake.isAboutReturns = v.returnMistakes spec := by
  cases hf : v.node.isFunctionDecl with
  | true =>
    have hm := h.manner_eq (by rw [hf, Bool.or_true])
    have hrecorded := h.map_recorded hf spec
    obtain ⟨manner, inFunction, env, node⟩ := v
    obtain rfl : manner = .statement := hm
    cases node with
    | functionDecl line name params body isAsync =>
      rw [recorded_functionDecl] at hrecorded
      have hparams := filter_paramFindings (p := Mistake.isAboutReturns) (fun _ _ _ => rfl) (name.getD "")
        (signatureOf spec name) (params.getD [])
      simp only [own, statementOwn, returnMistakes, recorded_functionDecl, Findings.errors_append, List.filter_append,
        hparams, List.nil_append]
      generalize (checkBody spec true (paramEnv env (signatureOf spec name) (params.getD [])) body).returns = returned
        at hrecorded ⊢
      cases htype : returnType? spec name with
      | none => rw [errors_returnFindings_of_none htype, List.filter_nil]
      | some type =>
        have hempty : (returned.map (·.2)).isEmpty =
            (Node.functionDecl line name params body isAsync).ownReturns.isEmpty := by
          rw [← hrecorded, List.isEmpty_map, List.isEmpty_map]
        rw [errors_returnFindings_of_some htype, hempty]
        dsimp only
        split
        · rfl
        · rw [filter_map_wrongReturn, List.filter_map, List.map_map]
          rfl
    | _ => cases hf
  | false =>
    rw [returnMistakes_eq_nil hf]
    obtain ⟨manner, inFunction, env, node⟩ := v
    cases manner with
    | expr => exact filter_exprOwn (fun _ _ _ => rfl) (fun _ _ _ => rfl) env node
    | statement => exact filter_statementOwn hf inFunction env
    | label | body => rfl

/-- The mistakes about returns that are found on a visit are those about the functions that are visited on the way. -/
theorem Suits.perm_returnMistakes (h : v.Suits named) :
    ((v.outcome spec).findings.errors.filter Mistake.isAboutReturns).Perm
      ((v.visits spec).flatMap (·.returnMistakes spec)) := by
  rw [List.perm_iff_count]
  intro a
  have hadditive := additive_errors fun e => e == a && e.isAboutReturns
  have hown : ∀ q ∈ v.visits spec,
      (q.own spec).errors.countP (fun e => e == a && e.isAboutReturns) = (q.returnMistakes spec).count a := by
    intro q hq
    rw [← (h.of_mem_visits hq).filter_errors_own, List.count, List.countP_filter]
  rw [List.count_flatMap, List.count, List.countP_filter, count_visits hadditive v, List.map_congr_left hown]
  rfl

end Visit

/-! ## Programs -/

/-- The visits that `check` makes to the functions that `program` declares. -/
def functionVisits (spec : Spec) (program : Node) : List Visit :=
  ((Visit.root spec program).visits spec).filter (·.node.isFunctionDecl)

/-- There is one warning for each return of the program itself. -/
theorem countP_returnOutside (spec : Spec) {source : String} {program : Node} (h : parseText source = .ok program) :
    (check spec program).warnings.countP (·.message = "Return used outside of function") =
      program.ownReturns.length := by
  have hmessage (w : Warning) : decide (w.message = "Return used outside of function") = decide (w = .returnOutside) :=
    decide_eq_decide.2 w.message_eq_iff
  rw [funext hmessage, ← Visit.outcome_root spec h, (Visit.suits_root spec h).returnOutside_outcome]
  obtain ⟨body, rfl⟩ := exists_body_of_parseText h
  exact Node.countP_outside rfl rfl

/-- `functionVisits` come in the order of the source. -/
theorem map_functionVisits (spec : Spec) {source : String} {program : Node} (h : parseText source = .ok program) :
    (functionVisits spec program).map (·.node) = program.descendants.filter Node.isFunctionDecl := by
  have hmap := congrArg (List.filter Node.isFunctionDecl) ((Visit.suits_root spec h).map_visits spec)
  rw [List.filter_map] at hmap
  obtain ⟨body, rfl⟩ := exists_body_of_parseText h
  exact hmap

/-- Every return belongs to the program or to exactly one function. There is one warning for each of the program's
`ownReturns`. What is `recorded` for a declared function are its own returns in the order of the source, each with the
type that `infer` gives for it where it stands, and the mistakes about returns are those that follow from them
(`returnMistakes`). -/
theorem returns_attributed (spec : Spec) {source : String} {program : Node} (h : parseText source = .ok program) :
    (program.descendants.filter Node.isReturn).Perm
      (program.ownReturns ++ (program.descendants.filter Node.isFunction).flatMap Node.ownReturns) ∧
    (check spec program).warnings.countP (·.message = "Return used outside of function") =
      program.ownReturns.length ∧
    (functionVisits spec program).map (·.node) = program.descendants.filter Node.isFunctionDecl ∧
    (∀ v ∈ functionVisits spec program, (v.recorded spec).map (·.1) = v.node.ownReturns ∧
      ∀ r ∈ v.recorded spec, ∃ q ∈ v.visits spec, ∃ line value,
        q.node = .returnStmt line value ∧ r = (q.node, infer spec q.env value)) ∧
    ((check spec program).errors.filter Mistake.isAboutReturns).Perm
      ((functionVisits spec program).flatMap (·.returnMistakes spec)) := by
  have hfits := Visit.suits_root spec h
  refine ⟨Node.perm_ownReturns _, countP_returnOutside spec h, map_functionVisits spec h, ?_, ?_⟩
  · intro v hv
    obtain ⟨hmem, hf⟩ := List.mem_filter.1 hv
    have hv := hfits.of_mem_visits hmem
    refine ⟨hv.map_recorded hf spec, ?_⟩
    intro r hr
    exact hv.exists_of_mem_recorded hf hr
  · rw [← Visit.outcome_root spec h, functionVisits, Visit.flatMap_returnMistakes]
    exact hfits.perm_returnMistakes

/-- A function with a return in a function inside it, and a return behind it. -/
def innerReturnSource : String := "karya f() \x7b karya g() \x7b wapas 'a' \x7d \x7d wapas 1"

/-- What is read from `innerReturnSource`. -/
def innerReturn : Node :=
  .program none
    [.functionDecl (some 1) (some "f") (some [])
      (.block (some 1)
        [.functionDecl (some 1) (some "g") (some [])
          (.block (some 1) [.returnStmt (some 1) (.literal (some 1) (.string "a"))]) false]) false,
      .returnStmt (some 1) (.literal (some 1) (.number 1))]

/-- The return in `g` is of the wrong type, and none of `f`. -/
theorem returns_attributed_nested :
    let spec : Spec := .parse "f(): number\ng(): number"
    parseText innerReturnSource = .ok innerReturn ∧ innerReturn.ownReturns.length = 1 ∧
      ((functionVisits spec innerReturn).flatMap (·.returnMistakes spec)).Perm
        [.wrongReturn "g" "number" "string", .noReturn "f" "number"] := by
  intro spec
  have hparse : parseText innerReturnSource = .ok innerReturn := by
    have htokens : tokenize innerReturnSource =
        .ok [⟨.keyword .karya, 1, 1⟩, ⟨.ident "f", 1, 7⟩, ⟨.punct .parenOpen, 1, 8⟩, ⟨.punct .parenClose, 1, 9⟩,
          ⟨.punct .braceOpen, 1, 11⟩, ⟨.keyword .karya, 1, 13⟩, ⟨.ident "g", 1, 19⟩, ⟨.punct .parenOpen, 1, 20⟩,
          ⟨.punct .parenClose, 1, 21⟩, ⟨.punct .braceOpen, 1, 23⟩, ⟨.keyword .wapas, 1, 25⟩, ⟨.string "a", 1, 31⟩,
          ⟨.punct .braceClose, 1, 35⟩, ⟨.punct .braceClose, 1, 37⟩, ⟨.keyword .wapas, 1, 39⟩, ⟨.number 1, 1, 45⟩] := by
      decide +kernel
    rw [parseText, htokens]
    rfl
  have hwarnings : (check spec innerReturn).warnings = [.returnOutside] := by decide +kernel
  have herrors : (check spec innerReturn).errors =
      [.wrongReturn "g" "number" "string", .noReturn "f" "number"] := by
    decide +kernel
  obtain ⟨-, hcount, -, -, hperm⟩ := returns_attributed spec hparse
  rw [hwarnings] at hcount
  rw [herrors] at hperm
  exact ⟨hparse, hcount.symm, hperm.symm⟩

end Typing

end HindiScript
