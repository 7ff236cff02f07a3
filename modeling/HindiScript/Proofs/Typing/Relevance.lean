import HindiScript.Proofs.Typing.Isolation
import HindiScript.Proofs.Tree.WellFormed

/-!
# Names that a program does not use

A spec may say something about many names. The check asks it only about names that occur in the program: two specs that
say the same about them, and two environments that bind them alike, give the same findings (`Outcome.AgreeOn`). So the
entries for other names can be taken out of a spec, and nothing changes (`check_without`).
-/

namespace HindiScript

/-! ## Names in a tree -/

namespace Node

/-- The names that stand in the node itself: the name of an identifier or a declaration, parameters, and the names that
an import or an export lists. -/
def ownNames : Node → List String
  | ident _ name => [name]
  | variableDecl _ name _ _ => name.toList
  | functionDecl _ name params _ _ => name.toList ++ params.getD []
  | arrow _ params _ _ => params.getD []
  | importDecl _ _ names => names.getD []
  | exportDecl _ _ names => names.getD []
  | _ => []

/-- The `ownNames` of `e` and of all nodes below it. -/
def names (e : Node) : List String := (e :: e.descendants).flatMap ownNames

theorem names_eq (e : Node) : e.names = e.ownNames ++ e.children.flatMap names := by
  rw [names, List.flatMap_cons, descendants_eq, List.flatMap_assoc]
  rfl

theorem names_missing : missing.names = [] := by
  rw [names_eq]
  rfl

theorem mem_names_ident (line : Option Int) (name : String) : name ∈ (ident line name).names := by
  rw [names_eq]
  exact List.mem_cons_self

/-- Names lie in a list if those in the node itself do, and those in its parts. Where nothing stands there are none. -/
theorem names_subset_iff {e : Node} {used : List String} (parts : List Node) (h : e.children = children.present parts) :
    e.names ⊆ used ↔ e.ownNames ⊆ used ∧ ∀ c ∈ parts, c.names ⊆ used := by
  rw [names_eq, h, List.append_subset]
  refine and_congr_right fun _ => ⟨fun hparts c hc => ?_, fun hparts name hname => ?_⟩
  · cases c with
    | missing => simp [names_missing]
    | _ => exact fun name hname => hparts (List.mem_flatMap.2 ⟨_, List.mem_filter.2 ⟨hc, rfl⟩, hname⟩)
  · obtain ⟨c, hc, hname⟩ := List.mem_flatMap.1 hname
    exact hparts c (mem_of_mem_present hc) hname

end Node

namespace Typing

variable {used : List String} {spec spec' : Spec} {env env' : Env}

/-! ## Specs and environments that agree -/

/-- The specs say the same about the names in `used`. -/
structure Spec.AgreeOn (used : List String) (spec spec' : Spec) : Prop where
  vars {name : String} (h : name ∈ used) : spec'.vars.find? name = spec.vars.find? name
  funcs {name : String} (h : name ∈ used) : spec'.funcs.find? name = spec.funcs.find? name

/-- The environments bind the names in `used` alike, and the same variables are declared in their innermost scopes. -/
structure Env.AgreeOn (used : List String) (env env' : Env) : Prop where
  declared : env'.scope.declared = env.scope.declared
  lookup {name : String} (h : name ∈ used) : env'.lookup name = env.lookup name

namespace Env.AgreeOn

theorem child (h : env.AgreeOn used env') : env.child.AgreeOn used env'.child := ⟨rfl, h.lookup⟩

theorem addVariable (h : env.AgreeOn used env') (name : String) :
    (env.addVariable name).AgreeOn used (env'.addVariable name) :=
  ⟨congrArg (name :: ·) h.declared, h.lookup⟩

theorem declare (h : env.AgreeOn used env') (name : String) (type : Option String) :
    (env.declare name type).AgreeOn used (env'.declare name type) := by
  refine ⟨h.declared, fun {name'} hname => ?_⟩
  rw [lookup_declare, lookup_declare, h.lookup hname]

theorem declareAll (h : env.AgreeOn used env') (types : List (String × String)) :
    (env.declareAll types).AgreeOn used (env'.declareAll types) := by
  induction types generalizing env env' with
  | nil => exact h
  | cons entry rest ih => exact ih (h.declare entry.1 (some entry.2))

theorem hoist (h : env.AgreeOn used env') (statements : List Node) :
    (Typing.hoist env statements).AgreeOn used (Typing.hoist env' statements) := h.declareAll _

theorem declare_left (h : env.AgreeOn used env') {name : String} (hname : name ∉ used) (type : Option String) :
    (env.declare name type).AgreeOn used env' := by
  refine ⟨h.declared, fun {name'} hname' => ?_⟩
  have hne : name' ≠ name := by
    rintro rfl
    exact hname hname'
  rw [lookup_declare, if_neg hne, h.lookup hname']

theorem nameType_eq (h : env.AgreeOn used env') {name : String} (hname : name ∈ used) :
    nameType env' name = nameType env name := by
  rw [nameType, nameType, h.lookup hname]

end Env.AgreeOn

/-! ## Single rules -/

section

variable {name : String} (hs : spec.AgreeOn used spec') (he : env.AgreeOn used env') (hname : name ∈ used)

theorem Spec.AgreeOn.callType_eq (hs : spec.AgreeOn used spec') (hname : name ∈ used) :
    callType spec' name = callType spec name := by
  rw [callType, callType, hs.funcs hname]

theorem Spec.AgreeOn.valueFindings_eq (hs : spec.AgreeOn used spec') (hname : name ∈ used) (inferred : String) :
    valueFindings spec' name inferred = valueFindings spec name inferred := by
  rw [valueFindings, valueFindings, hs.vars hname]

theorem Spec.AgreeOn.boundType_eq (hs : spec.AgreeOn used spec') (hname : name ∈ used) (inferred : String) :
    boundType spec' name inferred = boundType spec name inferred := by
  rw [boundType, boundType, hs.vars hname]

theorem Spec.AgreeOn.signatureOf_eq (hs : spec.AgreeOn used spec') {name : Option String} (hname : name.toList ⊆ used) :
    signatureOf spec' name = signatureOf spec name := by
  cases name with
  | none => rfl
  | some name => rw [signatureOf, signatureOf, hs.funcs (hname (by simp))]

include he hname

theorem useFindings_agree : useFindings env' name = useFindings env name := by
  rw [useFindings, useFindings, he.lookup hname]

include hs

theorem assignmentFindings_agree (inferred : String) :
    assignmentFindings spec' env' name inferred = assignmentFindings spec env name inferred := by
  rw [assignmentFindings, assignmentFindings, he.lookup hname, hs.valueFindings_eq hname]

theorem declarationFindings_agree (inferred : String) :
    declarationFindings spec' env' name inferred = declarationFindings spec env name inferred := by
  rw [declarationFindings, declarationFindings, he.declared, hs.valueFindings_eq hname]

theorem declareVariable_agree (inferred : String) :
    (declareVariable spec env name inferred).AgreeOn used (declareVariable spec' env' name inferred) := by
  rw [declareVariable, declareVariable, hs.boundType_eq hname]
  exact (he.addVariable name).declare name _

end

section

variable (hs : spec.AgreeOn used spec') (he : env.AgreeOn used env')

include he

theorem exportFindings_agree (names : List String) (h : names ⊆ used) :
    exportFindings env' names = exportFindings env names := by
  have hfilter : (names.filter fun name => (env'.lookup name).isNone) =
      names.filter fun name => (env.lookup name).isNone :=
    List.filter_congr fun name hname => by rw [he.lookup (h hname)]
  rw [exportFindings, exportFindings, hfilter]

theorem paramEnv_agree (signature : Option Signature) (params : List String) :
    (paramEnv env signature params).AgreeOn used (paramEnv env' signature params) := he.child.declareAll _

include hs

theorem infer_agree (e : Node) (h : e.names ⊆ used) : infer spec' env' e = infer spec env e := by
  cases e with
  | ident line name => exact he.nameType_eq (h (Node.mem_names_ident line name))
  | binary line operator left right =>
    obtain ⟨-, hparts⟩ := (Node.names_subset_iff [left, right] rfl).1 h
    simp only [infer, infer_agree left (hparts left (by simp)), infer_agree right (hparts right (by simp))]
  | assign line target value =>
    obtain ⟨-, hparts⟩ := (Node.names_subset_iff [target, value] rfl).1 h
    simp only [infer, infer_agree value (hparts value (by simp))]
  | call line callee args =>
    obtain ⟨-, hparts⟩ := (Node.names_subset_iff (callee :: args.getD []) rfl).1 h
    have hcallee := hparts callee List.mem_cons_self
    cases callee with
    | ident line' name => exact hs.callType_eq (hcallee (Node.mem_names_ident line' name))
    | _ => rfl
  | _ => rfl

end

/-! ## Programs -/

/-- The environments agree, and all that is found and returned is the same. -/
structure Outcome.AgreeOn (used : List String) (o o' : Outcome) : Prop where
  env : o.env.AgreeOn used o'.env
  findings : o'.findings = o.findings
  returns : o'.returns = o.returns

mutual

theorem checkExpr_agree (hs : spec.AgreeOn used spec') {env env' : Env} (he : env.AgreeOn used env') (e : Node)
    (h : e.names ⊆ used) : checkExpr spec' env' e = checkExpr spec env e := by
  cases e with
  | binary line operator left right =>
    obtain ⟨-, hparts⟩ := (Node.names_subset_iff [left, right] rfl).1 h
    have hleft := hparts left (by simp)
    have hright := hparts right (by simp)
    simp only [checkExpr_binary, infer_agree hs he left hleft, infer_agree hs he right hright,
      checkExpr_agree hs he left hleft, checkExpr_agree hs he right hright]
  | ident line name => exact useFindings_agree he (h (Node.mem_names_ident line name))
  | assign line target value =>
    obtain ⟨-, hparts⟩ := (Node.names_subset_iff [target, value] rfl).1 h
    have htarget := hparts target (by simp)
    have hvalue := hparts value (by simp)
    simp only [checkExpr_assign, infer_agree hs he value hvalue, checkExpr_agree hs he value hvalue]
    cases target with
    | ident line' name =>
      simp only [identName?, assignmentFindings_agree hs he (htarget (Node.mem_names_ident line' name))]
    | _ => simp only [identName?, checkExpr_agree hs he _ htarget]
  | call line callee args =>
    obtain ⟨-, hparts⟩ := (Node.names_subset_iff (callee :: args.getD []) rfl).1 h
    have hcallee := checkExpr_agree hs he callee (hparts callee List.mem_cons_self)
    cases args with
    | none => simp only [checkExpr, hcallee]
    | some args =>
      simp only [checkExpr_call, hcallee,
        checkArgs_agree hs he args fun arg harg => hparts arg (List.mem_cons_of_mem _ harg)]
  | member line object property =>
    obtain ⟨-, hparts⟩ := (Node.names_subset_iff [object, property] rfl).1 h
    exact checkExpr_agree hs he object (hparts object (by simp))
  | await line value =>
    obtain ⟨-, hparts⟩ := (Node.names_subset_iff [value] rfl).1 h
    exact checkExpr_agree hs he value (hparts value (by simp))
  | arrow line params body isAsync =>
    obtain ⟨-, hparts⟩ := (Node.names_subset_iff [body] rfl).1 h
    have hbody := hparts body (by simp)
    have hinner := paramEnv_agree he none (params.getD [])
    simp only [checkExpr_arrow, (checkBody_agree hs hinner true body hbody).findings,
      checkExpr_agree hs hinner body hbody]
  | _ => rfl

theorem checkArgs_agree (hs : spec.AgreeOn used spec') {env env' : Env} (he : env.AgreeOn used env') (args : List Node)
    (h : ∀ arg ∈ args, arg.names ⊆ used) : checkArgs spec' env' args = checkArgs spec env args := by
  cases args with
  | nil => rfl
  | cons arg rest =>
    rw [checkArgs_cons, checkArgs_cons, checkExpr_agree hs he arg (h arg List.mem_cons_self),
      checkArgs_agree hs he rest fun arg harg => h arg (List.mem_cons_of_mem _ harg)]

theorem checkStatement_agree (hs : spec.AgreeOn used spec') {env env' : Env} (he : env.AgreeOn used env')
    (inFunction : Bool) (node : Node) (h : node.names ⊆ used) :
    (checkStatement spec inFunction env node).AgreeOn used (checkStatement spec' inFunction env' node) := by
  cases node with
  | variableDecl line name value kind =>
    obtain ⟨hown, hparts⟩ := (Node.names_subset_iff [value] rfl).1 h
    have hvalue := hparts value (by simp)
    have hfound := checkExpr_agree hs he value hvalue
    have hinferred := infer_agree hs he value hvalue
    cases name with
    | none => exact ⟨he, hfound, rfl⟩
    | some name =>
      have hname : name ∈ used := hown (by simp [Node.ownNames])
      by_cases hn : name = ""
      · simp only [checkStatement, if_pos hn]
        exact ⟨he, hfound, rfl⟩
      · simp only [checkStatement, if_neg hn, hfound, hinferred]
        exact ⟨declareVariable_agree hs he hname _, by rw [declarationFindings_agree hs he hname], rfl⟩
  | functionDecl line name params body isAsync =>
    obtain ⟨hown, hparts⟩ := (Node.names_subset_iff [body] rfl).1 h
    have hsignature := hs.signatureOf_eq (List.append_subset.1 hown).1
    have hbody := checkBody_agree hs (paramEnv_agree he (signatureOf spec name) (params.getD [])) true body
      (hparts body (by simp))
    simp only [checkStatement_functionDecl, hsignature]
    exact ⟨he, by rw [hbody.findings, hbody.returns], rfl⟩
  | block line body =>
    obtain ⟨-, hparts⟩ := (Node.names_subset_iff body rfl).1 h
    have hinside := checkEach_agree hs (he.child.hoist body) inFunction body hparts
    exact ⟨he, hinside.findings, hinside.returns⟩
  | ifStmt line test consequent alternate =>
    obtain ⟨-, hparts⟩ := (Node.names_subset_iff [test, consequent, alternate] rfl).1 h
    have htest := hparts test (by simp)
    have halternate := hparts alternate (by simp)
    have hfirst := checkBody_agree hs he.child inFunction consequent (hparts consequent (by simp))
    have hother : (if isCondition alternate then checkStatement spec inFunction env alternate
        else checkBody spec inFunction env.child alternate).AgreeOn used
        (if isCondition alternate then checkStatement spec' inFunction env' alternate
          else checkBody spec' inFunction env'.child alternate) := by
      split
      · exact checkStatement_agree hs he inFunction alternate halternate
      · exact checkBody_agree hs he.child inFunction alternate halternate
    simp only [checkStatement_ifStmt, checkExpr_agree hs he test htest, infer_agree hs he test htest]
    exact ⟨he, by rw [hfirst.findings, hother.findings], by rw [hfirst.returns, hother.returns]⟩
  | whileStmt line test body =>
    obtain ⟨-, hparts⟩ := (Node.names_subset_iff [test, body] rfl).1 h
    have htest := hparts test (by simp)
    have hbody := checkBody_agree hs he.child inFunction body (hparts body (by simp))
    simp only [checkStatement_whileStmt, checkExpr_agree hs he test htest, infer_agree hs he test htest]
    exact ⟨he, by rw [hbody.findings], hbody.returns⟩
  | forStmt line init test update body =>
    obtain ⟨-, hparts⟩ := (Node.names_subset_iff [init, test, update, body] rfl).1 h
    have hinit := hparts init (by simp)
    have htest := hparts test (by simp)
    have hstart : (checkStart spec inFunction env init).AgreeOn used (checkStart spec' inFunction env' init) := by
      unfold checkStart
      split
      · exact checkStatement_agree hs he.child inFunction init hinit
      · exact ⟨he.child, checkExpr_agree hs he.child init hinit, rfl⟩
    have hbody := checkBody_agree hs hstart.env.child inFunction body (hparts body (by simp))
    simp only [checkStatement_forStmt, hstart.findings, checkExpr_agree hs hstart.env test htest,
      infer_agree hs hstart.env test htest, checkExpr_agree hs hstart.env update (hparts update (by simp))]
    exact ⟨he, by rw [hbody.findings], hbody.returns⟩
  | returnStmt line value =>
    obtain ⟨-, hparts⟩ := (Node.names_subset_iff [value] rfl).1 h
    have hvalue := hparts value (by simp)
    simp only [checkStatement_returnStmt, checkExpr_agree hs he value hvalue, infer_agree hs he value hvalue]
    split
    · exact ⟨he, rfl, rfl⟩
    · exact ⟨he, rfl, rfl⟩
  | exprStmt line value | printStmt line value =>
    obtain ⟨-, hparts⟩ := (Node.names_subset_iff [value] rfl).1 h
    exact ⟨he, checkExpr_agree hs he value (hparts value (by simp)), rfl⟩
  | importDecl line source names => exact ⟨he.declareAll _, rfl, rfl⟩
  | exportDecl line declaration names =>
    obtain ⟨hown, hparts⟩ := (Node.names_subset_iff [declaration] rfl).1 h
    have hdeclared := checkStatement_agree hs he inFunction declaration (hparts declaration (by simp))
    have hlisted := exportFindings_agree hdeclared.env (names.getD []) hown
    -- The listed names are looked up behind the declaration, where the environments still agree.
    simp only [checkStatement_exportDecl]
    exact ⟨hdeclared.env, by rw [hdeclared.findings, hlisted], hdeclared.returns⟩
  | _ => exact ⟨he, rfl, rfl⟩

theorem checkBody_agree (hs : spec.AgreeOn used spec') {env env' : Env} (he : env.AgreeOn used env')
    (inFunction : Bool) (node : Node) (h : node.names ⊆ used) :
    (checkBody spec inFunction env node).AgreeOn used (checkBody spec' inFunction env' node) := by
  cases node with
  | block line body | program line body =>
    obtain ⟨-, hparts⟩ := (Node.names_subset_iff body rfl).1 h
    exact checkEach_agree hs (he.hoist body) inFunction body hparts
  | _ => exact ⟨he, rfl, rfl⟩

theorem checkEach_agree (hs : spec.AgreeOn used spec') {env env' : Env} (he : env.AgreeOn used env')
    (inFunction : Bool) (nodes : List Node) (h : ∀ node ∈ nodes, node.names ⊆ used) :
    (checkEach spec inFunction env nodes).AgreeOn used (checkEach spec' inFunction env' nodes) := by
  cases nodes with
  | nil => exact ⟨he, rfl, rfl⟩
  | cons node rest =>
    have hfirst := checkStatement_agree hs he inFunction node (h node List.mem_cons_self)
    have hlater := checkEach_agree hs hfirst.env inFunction rest fun node hnode => h node (List.mem_cons_of_mem _ hnode)
    simp only [checkEach_cons]
    exact ⟨hlater.env, by rw [hfirst.findings, hlater.findings], by rw [hfirst.returns, hlater.returns]⟩

end

end Typing

/-! ## Entries that are taken out -/

namespace Registry

variable {α : Type} {removed : List String}

/-- The registry without the entries of the names in `removed`. -/
def without (r : Registry α) (removed : List String) : Registry α := r.filter (·.1 ∉ removed)

theorem find?_without {name : String} (h : name ∉ removed) (r : Registry α) :
    (r.without removed).find? name = r.find? name :=
  lookup_filter (fun _ => decide_eq_true h) r.entries

end Registry

namespace Typing

/-- The spec without what it says about the variables `vars` and the functions `funcs`. -/
def Spec.without (spec : Spec) (vars funcs : List String) : Spec := ⟨spec.vars.without vars, spec.funcs.without funcs⟩

theorem Spec.agreeOn_without {used vars funcs : List String} (hvars : ∀ name ∈ vars, name ∉ used)
    (hfuncs : ∀ name ∈ funcs, name ∉ used) (spec : Spec) : spec.AgreeOn used (spec.without vars funcs) :=
  ⟨fun hname => Registry.find?_without (fun hn => hvars _ hn hname) _,
    fun hname => Registry.find?_without (fun hn => hfuncs _ hn hname) _⟩

theorem Env.AgreeOn.declareAll_filter {used removed : List String} (hremoved : ∀ name ∈ removed, name ∉ used)
    {env env' : Env} (h : env.AgreeOn used env') (types : List (String × String)) :
    (env.declareAll types).AgreeOn used (env'.declareAll (types.filter (·.1 ∉ removed))) := by
  induction types generalizing env env' with
  | nil => exact h
  | cons entry rest ih =>
    by_cases hentry : entry.1 ∈ removed
    · rw [List.filter_cons_of_neg (by simpa using hentry)]
      exact ih (h.declare_left (hremoved _ hentry) _)
    · rw [List.filter_cons_of_pos (by simpa using hentry)]
      exact ih (h.declare _ _)

theorem agreeOn_globalEnv {used vars : List String} (hvars : ∀ name ∈ vars, name ∉ used) (funcs : List String)
    (spec : Spec) : (globalEnv spec).AgreeOn used (globalEnv (spec.without vars funcs)) :=
  Env.AgreeOn.declareAll_filter hvars ⟨rfl, fun _ => rfl⟩ _

/-- What `spec` says about names that are not among `program.names` makes no difference to what `check` finds. -/
theorem check_without (spec : Spec) (program : Node) (vars funcs : List String)
    (hvars : ∀ name ∈ vars, name ∉ program.names) (hfuncs : ∀ name ∈ funcs, name ∉ program.names) :
    check (spec.without vars funcs) program = check spec program := by
  cases program with
  | program line body =>
    exact (checkBody_agree (spec.agreeOn_without hvars hfuncs) (agreeOn_globalEnv hvars funcs spec) false _
      (List.Subset.refl _)).findings
  | _ => rfl

/-- A variable of the wrong type, and a call of a function that is not declared. -/
def wrongTotal : Node :=
  .program none
    [.variableDecl (some 1) (some "total") (.literal (some 1) (.string "a")) "let",
      .exprStmt (some 1) (.call (some 1) (.ident (some 1) "add") (some [.ident (some 1) "total"]))]

/-- A spec that also has types for a variable and a function that are not used. -/
def totalSpec : Spec where
  vars := .ofList [("price", number), ("total", number)]
  funcs := .ofList [("tax", ⟨.ofList [("rate", number)], number⟩), ("add", ⟨.ofList [("a", number)], number⟩)]

theorem check_without_price :
    parseText "ye total = 'a'; add(total)" = .ok wrongTotal ∧
      (totalSpec.without ["price"] ["tax"]).vars.names = ["total"] ∧
      (totalSpec.without ["price"] ["tax"]).funcs.names = ["add"] ∧
      check totalSpec wrongTotal = ⟨[.undeclaredUse "add"], [.wrongValue "total" "number" "string"]⟩ ∧
      check (totalSpec.without ["price"] ["tax"]) wrongTotal = check totalSpec wrongTotal := by
  have hparse : parseText "ye total = 'a'; add(total)" = .ok wrongTotal := by
    have htokens : tokenize "ye total = 'a'; add(total)" =
        .ok [⟨.keyword .ye, 1, 1⟩, ⟨.ident "total", 1, 4⟩, ⟨.op "=", 1, 10⟩, ⟨.string "a", 1, 12⟩,
          ⟨.punct .semicolon, 1, 15⟩, ⟨.ident "add", 1, 17⟩, ⟨.punct .parenOpen, 1, 20⟩, ⟨.ident "total", 1, 21⟩,
          ⟨.punct .parenClose, 1, 26⟩] := by
      decide +kernel
    rw [parseText, htokens]
    rfl
  exact ⟨hparse, by decide +kernel, by decide +kernel, by decide +kernel,
    check_without totalSpec wrongTotal ["price"] ["tax"] (by decide +kernel) (by decide +kernel)⟩

end Typing

end HindiScript
