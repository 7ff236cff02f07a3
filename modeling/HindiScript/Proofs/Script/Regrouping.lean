import HindiScript.Proofs.Script.Recoding
import HindiScript.Proofs.Tree.WellFormed

/-!
# When two expressions have the same text

The target of an assignment is written without parentheses. If the target is itself an assignment or an arrow function,
the text groups to the right, and so two expressions can have the same text. `Node.regrouped` is the expression as its
text groups it. Main statement: expressions that were read have the same text exactly when they are the same, up to
lines, once they are regrouped; those without such a target are told apart by their texts
(`exprText_eq_iff_regrouped`).
-/

namespace HindiScript

open Cursor

namespace Node

/-! ## Regrouping -/

/-- `e` with `value` assigned to what stands last in it. -/
def assignLast (e : Node) (line : Option Int) (value : Node) : Node :=
  match e with
  | assign line' target last => assign line' target (last.assignLast line value)
  | arrow line' params last isAsync => arrow line' params (last.assignLast line value) isAsync
  | e => assign line e value

mutual

/-- The expression as its text groups it. -/
def regrouped : Node → Node
  | binary line symbol left right => binary line symbol left.regrouped right.regrouped
  | assign line target value => target.regrouped.assignLast line value.regrouped
  | await line value => await line value.regrouped
  | arrow line params body isAsync => arrow line params body.regrouped isAsync
  | call line callee (some args) => call line callee.regrouped (some (regroupedAll args))
  | member line object property => member line object.regrouped property
  | e => e

def regroupedAll : List Node → List Node
  | [] => []
  | node :: rest => node.regrouped :: regroupedAll rest

end

theorem regroupedAll_eq_map (nodes : List Node) : regroupedAll nodes = nodes.map regrouped := by
  induction nodes with
  | nil => rfl
  | cons node rest ih => simp [regroupedAll, ih]

mutual

/-- Nothing is missing in the expression, no arrow function in it has a block, and no identifier in it is a word of
the generated script. Only a `loose` one may assign to an assignment or to an arrow function. -/
def plain (loose : Bool) : Node → Bool
  | literal .. => true
  | ident _ name => name ≠ awaitName && name ≠ asyncName && name ≠ fetchHelper
  | binary _ _ left right => left.plain loose && right.plain loose
  | assign _ target value => (loose || !target.isOpen) && target.plain loose && value.plain loose
  | await _ value => value.plain loose
  | arrow _ _ body _ => body.plain loose
  | call _ callee (some args) => callee.plain loose && plainAll loose args
  | member _ object property => object.plain loose && property.plain loose
  | _ => false

def plainAll (loose : Bool) : List Node → Bool
  | [] => true
  | node :: rest => node.plain loose && plainAll loose rest

end

theorem plain_of_mem {loose : Bool} {nodes : List Node} (h : plainAll loose nodes = true) :
    ∀ e ∈ nodes, e.plain loose = true := by
  induction nodes with
  | nil => simp
  | cons node rest ih =>
    obtain ⟨hnode, hrest⟩ := Bool.and_eq_true_iff.1 h
    exact List.forall_mem_cons.2 ⟨hnode, ih hrest⟩

theorem isMissing_of_plain {loose : Bool} {e : Node} (h : e.plain loose = true) : e.isMissing = false := by
  cases e with
  | missing => cases h
  | _ => rfl

end Node

/-! ## Expressions that were read -/

theorem Shaped.isChain {named : String → Prop} {e : Node} (h : Shaped named .chain e) : e.isChain = true := by
  cases h <;> rfl

theorem isPlainName_of_plain {loose : Bool} {line : Option Int} {name : String} (hn : isName name = true)
    (h : (Node.ident line name).plain loose = true) : isPlainName name = true := by
  simp only [Node.plain, Bool.and_eq_true, decide_eq_true_eq] at h
  simp [isPlainName, hn, h]

theorem Shaped.plain {loose : Bool} {place : Place} {e : Node} (h : Shaped (isName · = true) place e)
    (hp : e.plain loose = true) : Plain loose e := by
  induction h with
  | ident hn => exact .ident (isPlainName_of_plain hn hp)
  | call hcallee _ ihcallee ihargs =>
    obtain ⟨hc, ha⟩ := Bool.and_eq_true_iff.1 hp
    exact .call hcallee.isChain (ihcallee hc) fun a hmem => ihargs a hmem (Node.plain_of_mem ha a hmem)
  | member hobject hn ih =>
    obtain ⟨ho, hproperty⟩ := Bool.and_eq_true_iff.1 hp
    exact .member hobject.isChain (ih ho) (isPlainName_of_plain hn hproperty)
  | ofChain _ ih | elseIf _ ih | elseBlock _ ih | ofDeclaration _ ih | ofFunction _ ih | ofCondition _ ih
  | ofBlock _ ih => exact ih hp
  | number => exact .number
  | string => exact .string
  | await _ ih => exact .await (ih (Node.isMissing_of_plain hp) hp)
  | binary hs _ _ ihl ihr =>
    obtain ⟨hl, hr⟩ := Bool.and_eq_true_iff.1 hp
    exact .binary hs (ihl hl) (ihr (Node.isMissing_of_plain hr) hr)
  | assign _ _ iht ihv =>
    obtain ⟨hleft, hv⟩ := Bool.and_eq_true_iff.1 hp
    obtain ⟨hopen, ht⟩ := Bool.and_eq_true_iff.1 hleft
    refine .assign ?_ (iht ht) (ihv (Node.isMissing_of_plain hv) hv)
    rintro rfl
    simpa using hopen
  | arrow hparams _ _ ih => exact .arrow hparams (ih (Node.isMissing_of_plain hp) hp)
  | _ => cases hp

/-- `e` is what is read at the front of `text`. -/
def ReadFrom (text : String) (e : Node) : Prop := ∃ tokens, tokenize text = .ok tokens ∧ (Parse.expr tokens).1 = e

theorem ReadFrom.plain {loose : Bool} {text : String} {e : Node} (h : ReadFrom text e) (hp : e.plain loose = true) :
    Plain loose e := by
  obtain ⟨tokens, htokens, rfl⟩ := h
  have hf : isName fetchName = true := by decide
  have hread : MayStand (isName · = true) .expr (Parse.expr tokens).1 :=
    (Grammar.gives_expr (Inner.shapes_upTo hf _) hf tokens (naming_of_tokenize htokens)).1
  exact (hread (Node.isMissing_of_plain hp)).plain hp

/-! ## Expressions with the same text -/

namespace Node

variable {line : Option Int} {e value : Node}

theorem asArrowBody_of_isExpression (h : e.isExpression = true) (text : String) : e.asArrowBody text = text := by
  cases e <;> first | rfl | cases h

theorem text_assign_of_isExpression (h : e.isExpression = true) (hv : value.isExpression = true) :
    (assign line e value).text = e.text ++ " = " ++ value.text := by
  rw [text_assign, asExpr, asExpr, if_pos h, if_pos hv]

theorem text_arrow_of_isExpression (params : Option (List String)) (isAsync : Bool) (h : e.isExpression = true) :
    (arrow line params e isAsync).text = asyncText isAsync ++ paramsText params ++ " => " ++ e.text := by
  rw [text_arrow, asArrowBody_of_isExpression h]

end Node

/-- Two expressions that no place tells apart in its text. -/
structure Indistinct (a b : Node) : Prop where
  isExpression_left : a.isExpression = true
  isExpression_right : b.isExpression = true
  cohesion : a.cohesion? = b.cohesion?
  callee : Node.calleeText a a.text = Node.calleeText b b.text
  text : a.text = b.text

namespace Indistinct

open Node

variable {a b a' b' : Node} {line line' : Option Int}

theorem asExpr (h : Indistinct a b) : a.asExpr a.text = b.asExpr b.text := by
  unfold Node.asExpr
  rw [h.isExpression_left, h.isExpression_right, h.text]

theorem asOperand (h : Indistinct a b) (operator : Nat) (rightSide : Bool) :
    a.asOperand operator rightSide a.text = b.asOperand operator rightSide b.text := by
  unfold Node.asOperand
  rw [h.cohesion, h.asExpr]

theorem asArrowBody (h : Indistinct a b) : a.asArrowBody a.text = b.asArrowBody b.text := by
  rw [asArrowBody_of_isExpression h.isExpression_left, asArrowBody_of_isExpression h.isExpression_right, h.text]

theorem refl {e : Node} (h : e.isExpression = true) : Indistinct e e := ⟨h, h, rfl, rfl, rfl⟩

theorem trans {c : Node} (h : Indistinct a b) (h' : Indistinct b c) : Indistinct a c :=
  ⟨h.isExpression_left, h'.isExpression_right, h.cohesion.trans h'.cohesion, h.callee.trans h'.callee,
    h.text.trans h'.text⟩

theorem binary (symbol : String) (hl : Indistinct a a') (hr : Indistinct b b') :
    Indistinct (.binary line symbol a b) (.binary line' symbol a' b') := by
  have htext : (Node.binary line symbol a b).text = (Node.binary line' symbol a' b').text := by
    rw [text_binary, text_binary, hl.asOperand, hr.asOperand]
  exact ⟨rfl, rfl, rfl, htext, htext⟩

theorem assign (ht : Indistinct a a') (hv : Indistinct b b') : Indistinct (.assign line a b) (.assign line' a' b') := by
  have htext : (Node.assign line a b).text = (Node.assign line' a' b').text := by
    rw [text_assign, text_assign, ht.asExpr, hv.asExpr]
  exact ⟨rfl, rfl, rfl, htext, htext⟩

theorem await (h : Indistinct a b) : Indistinct (.await line a) (.await line' b) := by
  have htext : (Node.await line a).text = (Node.await line' b).text := by
    rw [text_await, text_await, h.asOperand]
  exact ⟨rfl, rfl, rfl, htext, htext⟩

theorem arrow (params : Option (List String)) (isAsync : Bool) (h : Indistinct a b) :
    Indistinct (.arrow line params a isAsync) (.arrow line' params b isAsync) := by
  have htext : (Node.arrow line params a isAsync).text = (Node.arrow line' params b isAsync).text := by
    rw [text_arrow, text_arrow, h.asArrowBody]
  exact ⟨rfl, rfl, rfl, htext, htext⟩

theorem call {args : List Node} {f : Node → Node} (hc : Indistinct a b) (hargs : ∀ e ∈ args, Indistinct e (f e)) :
    Indistinct (.call line a (some args)) (.call line' b (some (args.map f))) := by
  have hmap : args.map exprText = (args.map f).map exprText := by
    rw [List.map_map]
    exact List.map_congr_left fun e he => (hargs e he).asExpr
  have htext : (Node.call line a (some args)).text = (Node.call line' b (some (args.map f))).text := by
    rw [text_call, text_call, argTexts_eq_map, argTexts_eq_map, hmap, hc.callee]
  exact ⟨rfl, rfl, rfl, htext, htext⟩

theorem member (ho : Indistinct a a') (hp : Indistinct b b') : Indistinct (.member line a b) (.member line' a' b') := by
  have htext : (Node.member line a b).text = (Node.member line' a' b').text := by
    rw [text_member, text_member, ho.asExpr, hp.asExpr]
  exact ⟨rfl, rfl, rfl, htext, htext⟩

end Indistinct

namespace Plain

open Node

variable {loose : Bool} {e value : Node} {line : Option Int}

theorem indistinct_unlined (h : Plain loose e) : Indistinct e e.unlined := by
  induction h with
  | number | string | ident => exact ⟨rfl, rfl, rfl, rfl, rfl⟩
  | binary _ _ _ ihl ihr => exact ihl.binary _ ihr
  | await _ ih => exact ih.await
  | @call line callee args _ _ _ ihcallee ihargs =>
    have hall : (Node.call line callee (some args)).unlined = .call none callee.unlined (some (args.map unlined)) :=
      congrArg (fun as => Node.call none callee.unlined (some as)) (relinedAll_eq_map _ args)
    rw [hall]
    exact ihcallee.call ihargs
  | member _ _ _ ih => exact ih.member ⟨rfl, rfl, rfl, rfl, rfl⟩
  | arrow _ _ ih => exact ih.arrow _ _
  | assign _ _ _ iht ihv => exact iht.assign ihv

/-- An assignment to what stands last is written as one to the whole. -/
theorem indistinct_assignLast (h : Plain loose e) (hv : Plain loose value) :
    Indistinct (.assign line e value) (e.assignLast line value) := by
  induction h with
  | @assign line' target last _ ht hlast _ ih =>
    have htext : (Node.assign line (.assign line' target last) value).text =
        (Node.assign line' target (.assign line last value)).text := by
      rw [text_assign_of_isExpression rfl hv.isExpression,
        text_assign_of_isExpression ht.isExpression hlast.isExpression, text_assign_of_isExpression ht.isExpression rfl,
        text_assign_of_isExpression hlast.isExpression hv.isExpression]
      simp only [String.append_assoc]
    have hmoved : Indistinct (.assign line (.assign line' target last) value)
        (.assign line' target (.assign line last value)) := ⟨rfl, rfl, rfl, htext, htext⟩
    exact hmoved.trans ((Indistinct.refl ht.isExpression).assign ih)
  | @arrow line' params last isAsync _ hlast ih =>
    have htext : (Node.assign line (.arrow line' (some params) last isAsync) value).text =
        (Node.arrow line' (some params) (.assign line last value) isAsync).text := by
      rw [text_assign_of_isExpression rfl hv.isExpression, text_arrow_of_isExpression _ _ hlast.isExpression,
        text_arrow_of_isExpression _ _ rfl, text_assign_of_isExpression hlast.isExpression hv.isExpression]
      simp only [String.append_assoc]
    have hmoved : Indistinct (.assign line (.arrow line' (some params) last isAsync) value)
        (.arrow line' (some params) (.assign line last value) isAsync) := ⟨rfl, rfl, rfl, htext, htext⟩
    exact hmoved.trans (ih.arrow (some params) isAsync)
  | _ => exact .refl rfl

theorem assignLast (h : Plain false e) (hv : Plain false value) : Plain false (e.assignLast line value) := by
  induction h with
  | assign hopen ht _ _ ih => exact .assign hopen ht ih
  | arrow hparams _ ih => exact .arrow hparams ih
  | number => exact .assign (fun _ => rfl) .number hv
  | string => exact .assign (fun _ => rfl) .string hv
  | ident hn => exact .assign (fun _ => rfl) (.ident hn) hv
  | binary hs hl hr => exact .assign (fun _ => rfl) (.binary hs hl hr) hv
  | await h => exact .assign (fun _ => rfl) (.await h) hv
  | call hchain hcallee hargs => exact .assign (fun _ => rfl) (.call hchain hcallee hargs) hv
  | member hchain hobject hn => exact .assign (fun _ => rfl) (.member hchain hobject hn) hv

theorem isChain_regrouped (h : Plain loose e) (hc : e.isChain = true) : e.regrouped.isChain = true := by
  cases h <;> first | rfl | cases hc

/-- `regrouped`, an expression assigns to no assignment and to no arrow function. -/
theorem regrouped (h : Plain loose e) : Plain false e.regrouped := by
  induction h with
  | number => exact .number
  | string => exact .string
  | ident hn => exact .ident hn
  | binary hs _ _ ihl ihr => exact .binary hs ihl ihr
  | await _ ih => exact .await ih
  | call hchain hcallee _ ihcallee ihargs =>
    refine .call (hcallee.isChain_regrouped hchain) ihcallee fun a ha => ?_
    rw [regroupedAll_eq_map] at ha
    obtain ⟨b, hb, rfl⟩ := List.mem_map.1 ha
    exact ihargs b hb
  | member hchain hobject hn ih => exact .member (hobject.isChain_regrouped hchain) ih hn
  | arrow hparams _ ih => exact .arrow hparams ih
  | assign _ _ _ iht ihv => exact iht.assignLast ihv

/-- Regrouping does not change the text. -/
theorem indistinct_regrouped (h : Plain loose e) : Indistinct e e.regrouped := by
  induction h with
  | number | string | ident => exact .refl rfl
  | binary _ _ _ ihl ihr => exact ihl.binary _ ihr
  | await _ ih => exact ih.await
  | @call line callee args _ _ _ ihcallee ihargs =>
    rw [Node.regrouped, regroupedAll_eq_map]
    exact ihcallee.call ihargs
  | member _ _ _ ih => exact ih.member (.refl rfl)
  | arrow _ _ ih => exact ih.arrow _ _
  | assign _ ht hv iht ihv => exact (iht.assign ihv).trans (ht.regrouped.indistinct_assignLast hv.regrouped)

theorem exprText_regrouped_unlined (h : Plain loose e) : e.regrouped.unlined.exprText = e.exprText :=
  (h.indistinct_regrouped.trans h.regrouped.indistinct_unlined).asExpr.symm

/-- `exprText` says what an expression is once it is `regrouped`, and no more. -/
theorem exprText_eq_iff {a b : Node} (ha : Plain loose a) (hb : Plain loose b) :
    a.exprText = b.exprText ↔ a.regrouped.unlined = b.regrouped.unlined := by
  constructor
  · intro h
    apply ha.regrouped.unlined_eq_of_exprText_eq hb.regrouped
    exact ha.indistinct_regrouped.asExpr.symm.trans (h.trans hb.indistinct_regrouped.asExpr)
  · intro h
    rw [← ha.exprText_regrouped_unlined, h, hb.exprText_regrouped_unlined]

end Plain

/-! ## The expressions of two texts -/

/-- Two expressions that were read have the same `exprText` exactly when they are the same, up to lines, once they are
`regrouped`. If neither assigns to an assignment or to an arrow function, they are the same as they stand. -/
theorem exprText_eq_iff_regrouped {text₁ text₂ : String} {e₁ e₂ : Node} (h₁ : ReadFrom text₁ e₁) (h₂ : ReadFrom text₂ e₂)
    (hp₁ : e₁.plain true = true) (hp₂ : e₂.plain true = true) :
    (e₁.exprText = e₂.exprText ↔ e₁.regrouped.unlined = e₂.regrouped.unlined) ∧
      (e₁.plain false = true → e₂.plain false = true → e₁.exprText = e₂.exprText → e₁.unlined = e₂.unlined) := by
  constructor
  · exact (h₁.plain hp₁).exprText_eq_iff (h₂.plain hp₂)
  · intro hs₁ hs₂ h
    exact (h₁.plain hs₁).unlined_eq_of_exprText_eq (h₂.plain hs₂) h

/-- The call `f(x)` on a line. -/
def sampleCall (line : Int) : Node := .call (some line) (.ident (some line) "f") (some [.ident (some line) "x"])

/-- An arrow function is assigned, and the assignment is assigned to. -/
def arrowInTarget : Node :=
  .assign (some 1) (.assign (some 1) (sampleCall 1) (.arrow (some 1) (some ["y"]) (.ident (some 1) "y") false))
    (.literal (some 1) (.string "z"))

/-- An arrow function that assigns is assigned. -/
def arrowInValue : Node :=
  .assign (some 1) (sampleCall 1) (.arrow (some 1) (some ["y"])
    (.assign (some 1) (.ident (some 1) "y") (.literal (some 1) (.string "z"))) false)

/-- A sum is assigned on a line. -/
def assignedSum (line : Int) : Node :=
  .assign (some line) (sampleCall line)
    (.binary (some line) "+" (.ident (some line) "a") (.literal (some line) (.number 1)))

theorem reads_arrowInTarget : ReadFrom "(f(x) = (y) => y) = 'z'" arrowInTarget :=
  ⟨[⟨.punct .parenOpen, 1, 1⟩, ⟨.ident "f", 1, 2⟩, ⟨.punct .parenOpen, 1, 3⟩, ⟨.ident "x", 1, 4⟩,
    ⟨.punct .parenClose, 1, 5⟩, ⟨.op "=", 1, 7⟩, ⟨.punct .parenOpen, 1, 9⟩, ⟨.ident "y", 1, 10⟩,
    ⟨.punct .parenClose, 1, 11⟩, ⟨.op "=>", 1, 13⟩, ⟨.ident "y", 1, 16⟩, ⟨.punct .parenClose, 1, 17⟩,
    ⟨.op "=", 1, 19⟩, ⟨.string "z", 1, 21⟩], by decide +kernel, rfl⟩

theorem reads_arrowInValue : ReadFrom "f(x) = (y) => y = 'z'" arrowInValue :=
  ⟨[⟨.ident "f", 1, 1⟩, ⟨.punct .parenOpen, 1, 2⟩, ⟨.ident "x", 1, 3⟩, ⟨.punct .parenClose, 1, 4⟩,
    ⟨.op "=", 1, 6⟩, ⟨.punct .parenOpen, 1, 8⟩, ⟨.ident "y", 1, 9⟩, ⟨.punct .parenClose, 1, 10⟩,
    ⟨.op "=>", 1, 12⟩, ⟨.ident "y", 1, 15⟩, ⟨.op "=", 1, 17⟩, ⟨.string "z", 1, 19⟩], by decide +kernel, rfl⟩

theorem reads_assignedSum : ReadFrom "f(x) = a + 1" (assignedSum 1) :=
  ⟨[⟨.ident "f", 1, 1⟩, ⟨.punct .parenOpen, 1, 2⟩, ⟨.ident "x", 1, 3⟩, ⟨.punct .parenClose, 1, 4⟩,
    ⟨.op "=", 1, 6⟩, ⟨.ident "a", 1, 8⟩, ⟨.op "+", 1, 10⟩, ⟨.number 1, 1, 12⟩], by decide +kernel, rfl⟩

theorem reads_assignedSum_parentheses : ReadFrom "\n(f(x) = (a + 1))" (assignedSum 2) :=
  ⟨[⟨.punct .parenOpen, 2, 1⟩, ⟨.ident "f", 2, 2⟩, ⟨.punct .parenOpen, 2, 3⟩, ⟨.ident "x", 2, 4⟩,
    ⟨.punct .parenClose, 2, 5⟩, ⟨.op "=", 2, 7⟩, ⟨.punct .parenOpen, 2, 9⟩, ⟨.ident "a", 2, 10⟩,
    ⟨.op "+", 2, 12⟩, ⟨.number 1, 2, 14⟩, ⟨.punct .parenClose, 2, 15⟩, ⟨.punct .parenClose, 2, 16⟩],
    by decide +kernel, rfl⟩

/-- Two expressions that are the same once regrouped, and two that differ in their lines only. -/
theorem exprText_eq_iff_regrouped_arrow :
    (ReadFrom "(f(x) = (y) => y) = 'z'" arrowInTarget ∧ ReadFrom "f(x) = (y) => y = 'z'" arrowInValue ∧
      arrowInTarget.plain true = true ∧ arrowInValue.plain true = true ∧
      arrowInTarget.regrouped.unlined = arrowInValue.regrouped.unlined ∧
      arrowInTarget.exprText = arrowInValue.exprText) ∧
    ReadFrom "f(x) = a + 1" (assignedSum 1) ∧ ReadFrom "\n(f(x) = (a + 1))" (assignedSum 2) ∧
      (assignedSum 1).plain false = true ∧ (assignedSum 2).plain false = true ∧
      (assignedSum 1).exprText = (assignedSum 2).exprText ∧ (assignedSum 1).unlined = (assignedSum 2).unlined := by
  constructor
  · have hsame := exprText_eq_iff_regrouped reads_arrowInTarget reads_arrowInValue (by decide) (by decide)
    exact ⟨reads_arrowInTarget, reads_arrowInValue, by decide, by decide, rfl, hsame.1.2 rfl⟩
  · have htext : (assignedSum 1).exprText = (assignedSum 2).exprText := by decide +kernel
    have hsame := exprText_eq_iff_regrouped reads_assignedSum reads_assignedSum_parentheses (by decide) (by decide)
    exact ⟨reads_assignedSum, reads_assignedSum_parentheses, by decide, by decide, htext,
      hsame.2 (by decide) (by decide) htext⟩

/-- The parentheses around the target of an assignment are lost: two expressions have the same text. -/
theorem exprText_assign_assign : ∃ e₁ e₂, ReadFrom "(a = b) = c" e₁ ∧ ReadFrom "a = b = c" e₂ ∧
    e₁.plain true = true ∧ e₂.plain true = true ∧ e₁.exprText = e₂.exprText ∧ e₁.unlined ≠ e₂.unlined := by
  let name (name : String) : Node := .ident (some 1) name
  have h₁ : ReadFrom "(a = b) = c" (.assign (some 1) (.assign (some 1) (name "a") (name "b")) (name "c")) :=
    ⟨[⟨.punct .parenOpen, 1, 1⟩, ⟨.ident "a", 1, 2⟩, ⟨.op "=", 1, 4⟩, ⟨.ident "b", 1, 6⟩, ⟨.punct .parenClose, 1, 7⟩,
      ⟨.op "=", 1, 9⟩, ⟨.ident "c", 1, 11⟩], by decide +kernel, rfl⟩
  have h₂ : ReadFrom "a = b = c" (.assign (some 1) (name "a") (.assign (some 1) (name "b") (name "c"))) :=
    ⟨[⟨.ident "a", 1, 1⟩, ⟨.op "=", 1, 3⟩, ⟨.ident "b", 1, 5⟩, ⟨.op "=", 1, 7⟩, ⟨.ident "c", 1, 9⟩],
      by decide +kernel, rfl⟩
  refine ⟨_, _, h₁, h₂, by decide, by decide, by decide +kernel, ?_⟩
  intro h
  cases (Node.assign.inj h).2.1

end HindiScript
