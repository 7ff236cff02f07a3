import HindiScript.Proofs.Typing.Relevance

/-!
# Neighbouring functions in either order

The functions of a scope are bound before its first statement is checked. So it makes no difference which of two
functions that stand side by side comes first: the findings for each of them, and for all that stands before and behind
them, are the same, and only change places (`check_swap`). Two facts carry this: in both orders the same names are
bound at the start (`lookup_hoist`), and a function leaves the environment as it was (`env_of_declaresFunction`).
-/

namespace HindiScript.Typing

/-! ## What is bound at the start -/

/-- The node declares a function, by itself or in an export. -/
def declaresFunction : Node → Bool
  | .functionDecl .. => true
  | .exportDecl _ (.functionDecl ..) _ => true
  | _ => false

theorem lookup_declareAll_function (env : Env) (names : List String) (name : String) :
    (env.declareAll (names.map (·, function))).lookup name =
      if name ∈ names then some function else env.lookup name := by
  induction names generalizing env with
  | nil => rfl
  | cons first rest ih =>
    have hstep : env.declareAll ((first :: rest).map (·, function)) =
        (env.declare first (some function)).declareAll (rest.map (·, function)) := rfl
    rw [hstep, ih, Env.lookup_declare]
    by_cases hrest : name ∈ rest
    · rw [if_pos hrest, if_pos (List.mem_cons_of_mem _ hrest)]
    · simp only [List.mem_cons, hrest, or_false, if_false]

theorem lookup_hoist (env : Env) (body : List Node) (name : String) :
    (hoist env body).lookup name = if name ∈ functionNames body then some function else env.lookup name :=
  lookup_declareAll_function env (functionNames body) name

/-- Only the set of hoisted names counts, neither their order nor how often one comes. -/
theorem agreeOn_hoist {body body' : List Node} (h : ∀ name, name ∈ functionNames body' ↔ name ∈ functionNames body)
    (used : List String) (env : Env) : (hoist env body).AgreeOn used (hoist env body') := by
  refine ⟨?_, fun {name} _ => ?_⟩
  · rw [hoist, hoist, declared_declareAll, declared_declareAll]
  · simp only [lookup_hoist, h name]

theorem mem_functionNames_of_perm {body body' : List Node} (h : body'.Perm body) (name : String) :
    name ∈ functionNames body' ↔ name ∈ functionNames body := (h.filterMap _).mem_iff

/-- A function binds nothing where it stands: its name is there already. -/
theorem env_of_declaresFunction {f : Node} (h : declaresFunction f = true) (spec : Spec) (inFunction : Bool)
    (env : Env) : (checkStatement spec inFunction env f).env = env := by
  cases f with
  | functionDecl => rfl
  | exportDecl line declaration names =>
    cases declaration with
    | functionDecl => rfl
    | _ => cases h
  | _ => cases h

/-! ## Parts of a program -/

/-- The environment behind the statements `before`, when all functions of `body` are bound. -/
def envBehind (spec : Spec) (body before : List Node) : Env :=
  (checkEach spec false (hoist (globalEnv spec) body) before).env

/-- What is found in `part`, behind the statements `before` it in `body`. -/
def found (spec : Spec) (body before part : List Node) : Findings :=
  (checkEach spec false (envBehind spec body before) part).findings

section

variable (spec : Spec) (body before : List Node)

theorem envBehind_append (part : List Node) :
    envBehind spec body (before ++ part) = (checkEach spec false (envBehind spec body before) part).env := by
  rw [envBehind, checkEach_append]
  rfl

theorem found_append (part part' : List Node) :
    found spec body before (part ++ part') = found spec body before part ++ found spec body (before ++ part) part' := by
  rw [found, checkEach_append, found, found, envBehind_append]

theorem check_program (line : Option Int) : check spec (.program line body) = found spec body [] body := rfl

theorem envBehind_function {f : Node} (hf : declaresFunction f = true) :
    envBehind spec body (before ++ [f]) = envBehind spec body before := by
  rw [envBehind_append]
  exact env_of_declaresFunction hf spec false _

end

/-- What is `found` in a part depends on the set of the hoisted names only. -/
theorem found_of_perm {body body' : List Node} (h : body'.Perm body) (spec : Spec) {before part : List Node}
    (hbefore : before ⊆ body) (hpart : part ⊆ body) : found spec body' before part = found spec body before part := by
  let used := body.flatMap Node.names
  have hspec : spec.AgreeOn used spec := ⟨fun _ => rfl, fun _ => rfl⟩
  have hnames {nodes : List Node} (hn : nodes ⊆ body) : ∀ node ∈ nodes, node.names ⊆ used :=
    fun node hnode name hname => List.mem_flatMap.2 ⟨node, hn hnode, hname⟩
  have hstart := agreeOn_hoist (mem_functionNames_of_perm h) used (globalEnv spec)
  have hbehind := (checkEach_agree hspec hstart false before (hnames hbefore)).env
  exact (checkEach_agree hspec hbehind false part (hnames hpart)).findings

/-- A program in which `x` and `y` stand side by side: what is found before them, in each of them and behind them
(`a`, `b`, `c` and `d`), and that the findings for the program are these, in this order. -/
structure InParts (spec : Spec) (line : Option Int) (before : List Node) (x y : Node) (after : List Node)
    (a b c d : Findings) : Prop where
  found_before : found spec (before ++ [x, y] ++ after) [] before = a
  found_left : found spec (before ++ [x, y] ++ after) before [x] = b
  found_right : found spec (before ++ [x, y] ++ after) (before ++ [x]) [y] = c
  found_after : found spec (before ++ [x, y] ++ after) (before ++ [x, y]) after = d
  errors : (check spec (.program line (before ++ [x, y] ++ after))).errors =
    a.errors ++ b.errors ++ c.errors ++ d.errors
  warnings : (check spec (.program line (before ++ [x, y] ++ after))).warnings =
    a.warnings ++ b.warnings ++ c.warnings ++ d.warnings

theorem check_pair (spec : Spec) (line : Option Int) {body before after : List Node} {x y : Node}
    (hbody : before ++ [x, y] ++ after = body) :
    check spec (.program line body) =
      found spec body [] before ++ found spec body before [x] ++ found spec body (before ++ [x]) [y]
        ++ found spec body (before ++ [x, y]) after := by
  have hsplit : found spec body [] body = found spec body [] (before ++ ([x] ++ ([y] ++ after))) := by
    rw [← hbody]
    simp only [List.append_assoc, List.cons_append, List.nil_append]
  rw [check_program, hsplit, found_append, found_append, found_append]
  simp only [List.nil_append, List.append_assoc, List.singleton_append, Findings.append_assoc]

/-- Two functions, and all that stands behind them, are checked in the environment behind the statements before them. -/
theorem inParts_functions (spec : Spec) (line : Option Int) {body before after : List Node} {x y : Node}
    (hbody : before ++ [x, y] ++ after = body) (hx : declaresFunction x = true) (hy : declaresFunction y = true) :
    InParts spec line before x y after (found spec body [] before) (found spec body before [x])
      (found spec body before [y]) (found spec body before after) := by
  have hright : found spec body (before ++ [x]) [y] = found spec body before [y] := by
    rw [found, envBehind_function spec body before hx, found]
  have hafter : found spec body (before ++ [x, y]) after = found spec body before after := by
    rw [found, List.append_cons before x [y], envBehind_function _ _ _ hy, envBehind_function _ _ _ hx, found]
  have hcheck := check_pair spec line hbody
  rw [hright, hafter] at hcheck
  subst hbody
  exact ⟨rfl, rfl, hright, hafter, congrArg Findings.errors hcheck, congrArg Findings.warnings hcheck⟩

/-- `f` and `g`, which declare functions side by side, may stand in either order: what `check` finds before them, in
the one, in the other and behind them is the same in both programs, and only what is found in the two changes places.
-/
theorem check_swap (spec : Spec) (line : Option Int) (before after : List Node) {f g : Node}
    (hf : declaresFunction f = true) (hg : declaresFunction g = true) :
    ∃ first inF inG last : Findings,
      InParts spec line before f g after first inF inG last ∧ InParts spec line before g f after first inG inF last := by
  obtain ⟨fg, hfg⟩ : ∃ fg, before ++ [f, g] ++ after = fg := ⟨_, rfl⟩
  obtain ⟨gf, hgf⟩ : ∃ gf, before ++ [g, f] ++ after = gf := ⟨_, rfl⟩
  have hperm : gf.Perm fg := by
    rw [← hfg, ← hgf]
    exact ((List.Perm.swap f g []).append_left before).append_right after
  have hbefore : before ⊆ fg := fun _ h => by simp [← hfg, h]
  have hafter : after ⊆ fg := fun _ h => by simp [← hfg, h]
  have hinF : [f] ⊆ fg := by simp [← hfg]
  have hinG : [g] ⊆ fg := by simp [← hfg]
  have hparts := inParts_functions spec line hgf hg hf
  rw [found_of_perm hperm spec (List.nil_subset _) hbefore, found_of_perm hperm spec hbefore hinG,
    found_of_perm hperm spec hbefore hinF, found_of_perm hperm spec hbefore hafter] at hparts
  exact ⟨_, _, _, _, inParts_functions spec line hfg hf hg, hparts⟩

/-- A function that calls the other one, with a parameter too many. -/
def evenDecl : Node :=
  .functionDecl (some 2) (some "even") (some ["n", "step"])
    (.block (some 2) [.returnStmt (some 2) (.call (some 2) (.ident (some 2) "odd") (some [.ident (some 2) "k"]))]) false

/-- An exported function that calls the other one and returns a text. -/
def oddDecl : Node :=
  .exportDecl (some 3)
    (.functionDecl (some 3) (some "odd") (some ["n"])
      (.block (some 3)
        [.exprStmt (some 3) (.call (some 3) (.ident (some 3) "even") (some [.ident (some 3) "n", .ident (some 3) "one"])),
          .returnStmt (some 3) (.literal (some 3) (.string "no"))]) false)
    none

/-- Both functions tell whether a number is even or odd. -/
def paritySpec : Spec where
  funcs := .ofList [("even", ⟨.ofList [("n", number)], boolean⟩), ("odd", ⟨.ofList [("n", number)], boolean⟩)]

theorem check_swap_parity :
    let before := [Node.printStmt (some 1) (.ident (some 1) "start")]
    let after := [Node.printStmt (some 4) (.binary (some 4) "-" (.ident (some 4) "even") (.literal (some 4) (.number 1)))]
    declaresFunction evenDecl = true ∧ declaresFunction oddDecl = true ∧
      check paritySpec (.program none (before ++ [evenDecl, oddDecl] ++ after)) =
        ⟨[.undeclaredUse "start", .undeclaredUse "k", .undeclaredUse "one"],
          [.paramCount "even" 1 2, .wrongReturn "odd" boolean string, .wrongOperands "-" function number]⟩ ∧
      check paritySpec (.program none (before ++ [oddDecl, evenDecl] ++ after)) =
        ⟨[.undeclaredUse "start", .undeclaredUse "one", .undeclaredUse "k"],
          [.wrongReturn "odd" boolean string, .paramCount "even" 1 2, .wrongOperands "-" function number]⟩ ∧
      ∃ first inEven inOdd last : Findings,
        InParts paritySpec none before evenDecl oddDecl after first inEven inOdd last ∧
          InParts paritySpec none before oddDecl evenDecl after first inOdd inEven last := by
  intro before after
  exact ⟨rfl, rfl, by decide +kernel, by decide +kernel, check_swap paritySpec none before after rfl rfl⟩

end HindiScript.Typing
