import HindiScript.Typing.Check
import Mathlib.Data.List.Forall2

/-!
# A vaguer spec finds no new errors

`Spec.erased` keeps the names of a spec and forgets its types. Checking with it, each type that is told is the
same as before or `any` (`Fades`), because a program without errors never replaces a type by an unrelated one. So
a program in which the spec finds no error has none for the erased spec (`errors_check_erased`).
-/

namespace HindiScript.Typing

/-! ## Erased specs -/

/-- The signature without its types. A function that returns nothing still returns nothing. -/
def Signature.erased (s : Signature) : Signature where
  params := s.params.map fun _ => any
  returns := if s.returns = "" ∨ s.returns = void then s.returns else any

/-- `spec` with the same names, in the same order, and without their types. -/
def Spec.erased (spec : Spec) : Spec where
  vars := spec.vars.map fun _ => any
  funcs := spec.funcs.map Signature.erased

/-! ## Types that fade -/

/-- A type fades to itself or to `any`. -/
def Fades (type type' : String) : Prop := type' = type ∨ type' = any

theorem Fades.refl (type : String) : Fades type type := .inl rfl

theorem Fades.to_any (type : String) : Fades type any := .inr rfl

theorem allows_any_left (type : String) : allows any type = true := by simp [allows]

theorem fades_arithmeticType (operator : String) {left left' right right' : String} (hl : Fades left left')
    (hr : Fades right right') : Fades (arithmeticType operator left right) (arithmeticType operator left' right') := by
  have hstring : any ≠ string := by decide
  have hnumber : any ≠ number := by decide
  unfold Fades at *
  rcases hl with rfl | rfl <;> rcases hr with rfl | rfl <;> grind [arithmeticType]

theorem fades_callType (spec : Spec) (name : String) : Fades (callType spec name) (callType spec.erased name) := by
  simp only [callType, Spec.erased, Registry.find?_map]
  cases spec.funcs.find? name with
  | none => exact .refl _
  | some signature =>
    simp only [Option.map_some, Signature.erased]
    by_cases hv : signature.returns = void
    · simp [hv, Fades]
    · by_cases he : signature.returns = ""
      · simp [he, Fades]
      · simp [hv, he, Fades]

/-! ## Environments that fade -/

/-- In `env` and `env'` the same names are bound and declared, and the types they are bound to fade. -/
structure Env.Fades (env env' : Env) : Prop where
  declared : env'.scope.declared = env.scope.declared
  lookup (name : String) : Option.Rel Typing.Fades (env.lookup name) (env'.lookup name)

namespace Env.Fades

variable {env env' : Env}

theorem child (h : env.Fades env') : env.child.Fades env'.child := ⟨rfl, h.lookup⟩

theorem addVariable (h : env.Fades env') (name : String) : (env.addVariable name).Fades (env'.addVariable name) :=
  ⟨congrArg (name :: ·) h.declared, h.lookup⟩

theorem declare (h : env.Fades env') (name : String) {type type' : String} (ht : Typing.Fades type type') :
    (env.declare name (some type)).Fades (env'.declare name (some type')) := by
  refine ⟨h.declared, fun name' => ?_⟩
  rw [lookup_declare, lookup_declare]
  split
  · exact .some ht
  · exact h.lookup name'

theorem declareAll (h : env.Fades env') {types types' : List (String × String)}
    (ht : types.Forall₂ (fun b b' => b'.1 = b.1 ∧ Typing.Fades b.2 b'.2) types') :
    (env.declareAll types).Fades (env'.declareAll types') := by
  induction ht generalizing env env' with
  | nil => exact h
  | @cons b b' _ _ hb _ ih =>
    obtain ⟨name, type⟩ := b
    obtain ⟨name', type'⟩ := b'
    obtain ⟨rfl, ht⟩ := hb
    exact ih (h.declare _ ht)

theorem declareAll_self (h : env.Fades env') (types : List (String × String)) :
    (env.declareAll types).Fades (env'.declareAll types) :=
  h.declareAll (List.forall₂_same.2 fun _ _ => ⟨rfl, .refl _⟩)

theorem hoist (h : env.Fades env') (statements : List Node) :
    (Typing.hoist env statements).Fades (Typing.hoist env' statements) :=
  h.declareAll_self _

theorem nameType (h : env.Fades env') (name : String) :
    Typing.Fades (nameType env name) (Typing.nameType env' name) := by
  have hrel := h.lookup name
  unfold Typing.nameType
  generalize env.lookup name = a at hrel ⊢
  generalize env'.lookup name = b at hrel ⊢
  cases hrel with
  | none => exact .refl _
  | some ht =>
    rcases ht with rfl | rfl
    · exact .refl _
    · exact .to_any _

theorem infer (h : env.Fades env') (spec : Spec) (e : Node) :
    Typing.Fades (infer spec env e) (Typing.infer spec.erased env' e) := by
  cases e with
  | ident line name => exact h.nameType name
  | binary line operator left right =>
    simp only [Typing.infer]
    split
    · exact .refl _
    · split
      · exact fades_arithmeticType operator (infer h spec left) (infer h spec right)
      · exact .refl _
  | assign line target value =>
    simp only [Typing.infer]
    exact infer h spec value
  | call line callee args =>
    cases callee with
    | ident line' name => exact fades_callType spec name
    | _ => exact .refl _
  | _ => exact .refl _

end Env.Fades

/-! ## Single rules -/

section

variable {spec : Spec} {env env' : Env}

theorem errors_operandFindings {operator left left' right right' : String} (hl : Fades left left')
    (hr : Fades right right') (h : (operandFindings operator left right).errors = []) :
    (operandFindings operator left' right').errors = [] := by
  rcases hl with rfl | rfl
  · rcases hr with rfl | rfl
    · exact h
    · simp [operandFindings]
  · simp [operandFindings]

/-- `Spec.erased` allows a variable every value. -/
theorem errors_valueFindings_erased (spec : Spec) (name type : String) :
    (valueFindings spec.erased name type).errors = [] := by
  simp only [valueFindings, Spec.erased, Registry.find?_map]
  cases spec.vars.find? name with
  | none => rfl
  | some declared => simp [allows_any_left]

theorem errors_assignmentFindings_erased (spec : Spec) (env : Env) (name type : String) :
    (assignmentFindings spec.erased env name type).errors = [] := by
  simp only [assignmentFindings, Findings.errors_append, errors_valueFindings_erased, List.append_nil]
  split <;> rfl

/-- Where the value of a variable is allowed, the variable is bound to the type of the value, or to its declared type
if the type of the value cannot be told (`boundType`). Either fades to what the erased spec binds it to. -/
theorem fades_boundType {name type type' : String} (ht : Fades type type')
    (h : (valueFindings spec name type).errors = []) :
    Fades (boundType spec name type) (boundType spec.erased name type') := by
  simp only [boundType, Spec.erased, Registry.find?_map]
  simp only [valueFindings] at h
  cases hd : spec.vars.find? name with
  | none => exact ht
  | some declared =>
    have hallowed : allows declared type = true := by
      by_contra hn
      simp [hd, hn, Findings.error] at h
    simp only [hallowed, Option.map_some, allows_any_left, Bool.not_true, Bool.false_or, decide_eq_true_eq]
    rcases ht with rfl | rfl
    · split
      · exact .to_any _
      · exact .refl _
    · rw [if_pos rfl]
      exact .to_any _

theorem Env.Fades.declareVariable (he : env.Fades env') {name type type' : String} (ht : Typing.Fades type type')
    (h : (valueFindings spec name type).errors = []) :
    (declareVariable spec env name type).Fades (Typing.declareVariable spec.erased env' name type') :=
  (he.addVariable name).declare name (fades_boundType ht h)

theorem errors_declarationFindings_erased (he : env.Fades env') {name type type' : String}
    (h : (declarationFindings spec env name type).errors = []) :
    (declarationFindings spec.erased env' name type').errors = [] := by
  simp only [declarationFindings, Findings.errors_append, List.append_eq_nil_iff] at h ⊢
  rw [he.declared]
  exact ⟨h.1, errors_valueFindings_erased spec name type'⟩

theorem signatureOf_erased (spec : Spec) (name : Option String) :
    signatureOf spec.erased name = (signatureOf spec name).map Signature.erased := by
  cases name with
  | none => rfl
  | some name =>
    simp only [signatureOf, Spec.erased, Registry.find?_map]
    split <;> rfl

theorem Env.Fades.paramEnv (he : env.Fades env') (signature : Option Signature) (params : List String) :
    (paramEnv env signature params).Fades (Typing.paramEnv env' (signature.map Signature.erased) params) := by
  refine he.child.declareAll (List.forall₂_map_left_iff.2 (List.forall₂_map_right_iff.2 ?_))
  refine List.forall₂_same.2 fun param _ => ⟨rfl, ?_⟩
  cases signature with
  | none => exact .refl _
  | some signature =>
    -- The erased signature has the same parameters, each of the type `any`.
    simp only [Option.map_some, Option.bind_some, Signature.erased, Registry.find?_map]
    cases signature.params.find? param with
    | none => exact .refl _
    | some type => exact .to_any type

theorem errors_paramFindings_erased {name : String} {signature : Option Signature} {params : List String}
    (h : (paramFindings name signature params).errors = []) :
    (paramFindings name (signature.map Signature.erased) params).errors = [] := by
  cases signature with
  | none => rfl
  | some signature =>
    simp only [paramFindings, Option.map_some, Signature.erased, Registry.size_map] at h ⊢
    split
    · rfl
    next hne => rw [if_neg hne] at h; cases h

/-- A function that has to return something returns something; the erased `signature` allows every value. -/
theorem errors_returnFindings_erased {name : String} {signature : Option Signature} {returned returned' : List String}
    (hlen : returned'.length = returned.length) (h : (returnFindings name signature returned).errors = []) :
    (returnFindings name (signature.map Signature.erased) returned').errors = [] := by
  cases signature with
  | none => rfl
  | some signature =>
    simp only [returnFindings, Option.map_some, Signature.erased] at h ⊢
    by_cases hr : signature.returns = "" ∨ signature.returns = void
    · simp [hr]
    · have hreturned : returned' ≠ [] := by
        rintro rfl
        obtain rfl : returned = [] := List.length_eq_zero_iff.1 hlen.symm
        simp [hr, Findings.error] at h
      simp [hr, hreturned, allows_any_left]

end

/-! ## Programs -/

/-- The environment of `o` fades to that of `o'`, which has no errors, and both have the same returns. -/
structure Outcome.Fades (o o' : Outcome) : Prop where
  env : o.env.Fades o'.env
  errors : o'.findings.errors = []
  returns : o'.returns.map (·.1) = o.returns.map (·.1)

section

variable {spec : Spec}

mutual

theorem errors_checkExpr_erased {env env' : Env} (he : env.Fades env') (e : Node)
    (h : (checkExpr spec env e).errors = []) : (checkExpr spec.erased env' e).errors = [] := by
  cases e with
  | binary line operator left right =>
    simp only [checkExpr, Findings.errors_append, List.append_eq_nil_iff] at h ⊢
    exact ⟨⟨errors_operandFindings (he.infer spec left) (he.infer spec right) h.1.1,
      errors_checkExpr_erased he left h.1.2⟩, errors_checkExpr_erased he right h.2⟩
  | ident line name => simp only [checkExpr, errors_useFindings]
  | assign line target value =>
    simp only [checkExpr, Findings.errors_append, List.append_eq_nil_iff] at h ⊢
    refine ⟨errors_checkExpr_erased he value h.1, ?_⟩
    cases ht : identName? target with
    | some name => simp only [errors_assignmentFindings_erased]
    | none =>
      simp only [ht] at h
      exact errors_checkExpr_erased he target h.2
  | call line callee args =>
    have hcallee (hc : (if identName? callee = some fetchName then {} else checkExpr spec env callee).errors = []) :
        (if identName? callee = some fetchName then {} else checkExpr spec.erased env' callee).errors = [] := by
      split
      · rfl
      next hn =>
        rw [if_neg hn] at hc
        exact errors_checkExpr_erased he callee hc
    cases args with
    | none =>
      simp only [checkExpr] at h ⊢
      exact hcallee h
    | some args =>
      simp only [checkExpr, Findings.errors_append, List.append_eq_nil_iff] at h ⊢
      exact ⟨hcallee h.1, errors_checkArgs_erased he args h.2⟩
  | member line object property =>
    simp only [checkExpr] at h ⊢
    exact errors_checkExpr_erased he object h
  | await line value =>
    simp only [checkExpr] at h ⊢
    exact errors_checkExpr_erased he value h
  | arrow line params body isAsync =>
    have hinner := he.paramEnv none (params.getD [])
    simp only [checkExpr] at h ⊢
    split
    next hb =>
      rw [if_pos hb] at h
      exact (fades_checkBody hinner true body h).errors
    next hb =>
      rw [if_neg hb] at h
      exact errors_checkExpr_erased hinner body h
  | _ => rfl

theorem errors_checkArgs_erased {env env' : Env} (he : env.Fades env') (args : List Node)
    (h : (checkArgs spec env args).errors = []) : (checkArgs spec.erased env' args).errors = [] := by
  cases args with
  | nil => rfl
  | cons arg rest =>
    simp only [checkArgs, Findings.errors_append, List.append_eq_nil_iff] at h ⊢
    exact ⟨errors_checkExpr_erased he arg h.1, errors_checkArgs_erased he rest h.2⟩

theorem fades_checkStatement {env env' : Env} (he : env.Fades env') (inFunction : Bool) (node : Node)
    (h : (checkStatement spec inFunction env node).findings.errors = []) :
    (checkStatement spec inFunction env node).Fades (checkStatement spec.erased inFunction env' node) := by
  cases node with
  | variableDecl line name value kind =>
    have hvalue := he.infer spec value
    cases name with
    | none =>
      simp only [checkStatement] at h ⊢
      exact ⟨he, errors_checkExpr_erased he value h, rfl⟩
    | some name =>
      simp only [checkStatement] at h ⊢
      split
      next hn =>
        rw [if_pos hn] at h
        exact ⟨he, errors_checkExpr_erased he value h, rfl⟩
      next hn =>
        simp only [if_neg hn, Findings.errors_append, List.append_eq_nil_iff] at h
        obtain ⟨hfound, hdeclared⟩ := h
        have hallowed : (valueFindings spec name (infer spec env value)).errors = [] := by
          simp only [declarationFindings, Findings.errors_append, List.append_eq_nil_iff] at hdeclared
          exact hdeclared.2
        refine ⟨he.declareVariable hvalue hallowed, ?_, rfl⟩
        simp only [Findings.errors_append, errors_checkExpr_erased he value hfound,
          errors_declarationFindings_erased he hdeclared, List.append_nil]
  | functionDecl line name params body isAsync =>
    simp only [checkStatement, Findings.errors_append, List.append_eq_nil_iff] at h ⊢
    obtain ⟨⟨hparams, hinside⟩, hreturns⟩ := h
    have hbody := fades_checkBody (he.paramEnv (signatureOf spec name) (params.getD [])) true body hinside
    have hlen := congrArg List.length hbody.returns
    simp only [List.length_map] at hlen
    refine ⟨he, ?_, rfl⟩
    simp only [Findings.errors_append, signatureOf_erased, List.append_eq_nil_iff]
    exact ⟨⟨errors_paramFindings_erased hparams, hbody.errors⟩,
      errors_returnFindings_erased (by simpa using hlen) hreturns⟩
  | block line body =>
    simp only [checkStatement] at h ⊢
    have hinside := fades_checkEach (he.child.hoist body) inFunction body h
    exact ⟨he, hinside.errors, hinside.returns⟩
  | ifStmt line test consequent alternate =>
    simp only [checkStatement, Findings.errors_append, errors_testFindings, List.append_nil,
      List.append_eq_nil_iff] at h ⊢
    obtain ⟨⟨htest, hfirst⟩, hother⟩ := h
    have hc := fades_checkBody he.child inFunction consequent hfirst
    have ha : (if isCondition alternate then checkStatement spec inFunction env alternate
          else checkBody spec inFunction env.child alternate).Fades
        (if isCondition alternate then checkStatement spec.erased inFunction env' alternate
          else checkBody spec.erased inFunction env'.child alternate) := by
      split
      next hi =>
        rw [if_pos hi] at hother
        exact fades_checkStatement he inFunction alternate hother
      next hi =>
        rw [if_neg hi] at hother
        exact fades_checkBody he.child inFunction alternate hother
    refine ⟨he, ?_, ?_⟩
    · simp only [Findings.errors_append, errors_testFindings, errors_checkExpr_erased he test htest, hc.errors,
        ha.errors, List.append_nil]
    · simp only [List.map_append, hc.returns, ha.returns]
  | whileStmt line test body =>
    simp only [checkStatement, Findings.errors_append, errors_testFindings, List.append_nil,
      List.append_eq_nil_iff] at h ⊢
    have hb := fades_checkBody he.child inFunction body h.2
    refine ⟨he, ?_, hb.returns⟩
    simp only [Findings.errors_append, errors_testFindings, errors_checkExpr_erased he test h.1, hb.errors,
      List.append_nil]
  | forStmt line init test update body =>
    simp only [checkStatement, Findings.errors_append, errors_testFindings, List.append_nil,
      List.append_eq_nil_iff] at h ⊢
    obtain ⟨⟨⟨hinit, htest⟩, hupdate⟩, hinside⟩ := h
    have hs : (if isVariable init then checkStatement spec inFunction env.child init
          else { env := env.child, findings := checkExpr spec env.child init }).Fades
        (if isVariable init then checkStatement spec.erased inFunction env'.child init
          else { env := env'.child, findings := checkExpr spec.erased env'.child init }) := by
      split
      next hi =>
        rw [if_pos hi] at hinit
        exact fades_checkStatement he.child inFunction init hinit
      next hi =>
        rw [if_neg hi] at hinit
        exact ⟨he.child, errors_checkExpr_erased he.child init hinit, rfl⟩
    have hb := fades_checkBody hs.env.child inFunction body hinside
    refine ⟨he, ?_, hb.returns⟩
    simp only [Findings.errors_append, errors_testFindings, hs.errors, errors_checkExpr_erased hs.env test htest,
      errors_checkExpr_erased hs.env update hupdate, hb.errors, List.append_nil]
  | returnStmt line value =>
    cases inFunction with
    | true =>
      simp only [checkStatement, if_true] at h ⊢
      exact ⟨he, errors_checkExpr_erased he value h, rfl⟩
    | false =>
      simp only [checkStatement, Bool.false_eq_true, if_false, Findings.errors_append, List.append_eq_nil_iff] at h ⊢
      refine ⟨he, ?_, rfl⟩
      simp only [Findings.errors_append, errors_checkExpr_erased he value h.1, List.nil_append]
      rfl
  | exprStmt line value | printStmt line value =>
    simp only [checkStatement] at h ⊢
    exact ⟨he, errors_checkExpr_erased he value h, rfl⟩
  | importDecl line source names => exact ⟨he.declareAll_self _, rfl, rfl⟩
  | exportDecl line declaration names =>
    simp only [checkStatement, Findings.errors_append, List.append_eq_nil_iff] at h ⊢
    have hd := fades_checkStatement he inFunction declaration h.1
    refine ⟨hd.env, ?_, hd.returns⟩
    simp only [Findings.errors_append, hd.errors, List.nil_append]
    rfl
  | _ => exact ⟨he, rfl, rfl⟩

theorem fades_checkBody {env env' : Env} (he : env.Fades env') (inFunction : Bool) (node : Node)
    (h : (checkBody spec inFunction env node).findings.errors = []) :
    (checkBody spec inFunction env node).Fades (checkBody spec.erased inFunction env' node) := by
  cases node with
  | block line body | program line body =>
    simp only [checkBody] at h ⊢
    exact fades_checkEach (he.hoist body) inFunction body h
  | _ => exact ⟨he, rfl, rfl⟩

theorem fades_checkEach {env env' : Env} (he : env.Fades env') (inFunction : Bool) (nodes : List Node)
    (h : (checkEach spec inFunction env nodes).findings.errors = []) :
    (checkEach spec inFunction env nodes).Fades (checkEach spec.erased inFunction env' nodes) := by
  cases nodes with
  | nil => exact ⟨he, rfl, rfl⟩
  | cons node rest =>
    simp only [checkEach, Findings.errors_append, List.append_eq_nil_iff] at h ⊢
    have hfirst := fades_checkStatement he inFunction node h.1
    have hlater := fades_checkEach hfirst.env inFunction rest h.2
    refine ⟨hlater.env, ?_, ?_⟩
    · simp only [Findings.errors_append, hfirst.errors, hlater.errors, List.append_nil]
    · simp only [List.map_append, hfirst.returns, hlater.returns]

end

theorem fades_globalEnv (spec : Spec) : (globalEnv spec).Fades (globalEnv spec.erased) := by
  have hempty : ({} : Env).Fades {} := ⟨rfl, fun _ => .none⟩
  refine hempty.declareAll (List.forall₂_map_right_iff.2 ?_)
  exact List.forall₂_same.2 fun e _ => ⟨rfl, .to_any e.2⟩

end

/-- A program in which `check` finds no error for `spec` has none for `spec.erased`, which has the same names without
their types. -/
theorem errors_check_erased (spec : Spec) (program : Node) (h : (check spec program).errors = []) :
    (check spec.erased program).errors = [] := by
  cases program with
  | program line body =>
    simp only [check] at h ⊢
    exact (fades_checkBody (fades_globalEnv spec) false _ h).errors
  | _ => rfl

/-- A function that is declared and called as its signature says, and a variable of its type. -/
theorem errors_check_erased_add : ∃ program,
    (parseText "karya add(a, b) \x7b wapas a + b \x7d ye sum = add(1, 2); sum = sum * 2").toOption = some program ∧
      (check (.parse "sum: number\nadd(a: number, b: number): number") program).errors = [] ∧
      (check (Spec.parse "sum: number\nadd(a: number, b: number): number").erased program).errors = [] := by
  have h : (parseText "karya add(a, b) \x7b wapas a + b \x7d ye sum = add(1, 2); sum = sum * 2").toOption.map
      (fun program => (check (.parse "sum: number\nadd(a: number, b: number): number") program).errors) = some [] := by
    decide +kernel
  obtain ⟨program, hprogram, hcheck⟩ := Option.map_eq_some_iff.1 h
  exact ⟨program, hprogram, hcheck, errors_check_erased _ program hcheck⟩

end HindiScript.Typing
