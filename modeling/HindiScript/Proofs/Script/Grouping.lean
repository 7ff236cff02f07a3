import HindiScript.Proofs.Token.Cutting
import HindiScript.Proofs.Tree.Reading
import HindiScript.Script.Text

/-!
# The text of an expression keeps its grouping

The text of an expression and the grammar decide on their own how operators group: the one by the parentheses
that it sets, the other by the order in which operators are read. They agree: the tokens of the text, with the
words of the language in the place of those of the generated script, are read as the expression that was
written (`expr_tokens_exprText`).
-/

namespace HindiScript

open Cursor

/-! ## Words of the generated script -/

/-- The word before a value that is waited for. -/
def awaitName : String := "await"

/-- The word before an asynchronous function. -/
def asyncName : String := "async"

theorem awaitName_isName : isName awaitName = true := by decide

theorem asyncName_isName : isName asyncName = true := by decide

theorem fetchHelper_isName : isName fetchHelper = true := by decide

/-- The token of the language that stands where the generated script has this one. -/
def Lexeme.toSource : Lexeme → Lexeme
  | .ident name =>
    if name = awaitName then .keyword .pratiksha
    else if name = asyncName then .keyword .aasynk
    else if name = fetchHelper then .ident fetchName
    else .ident name
  | l => l

def Token.toSource (t : Token) : Token := { t with lexeme := t.lexeme.toSource }

/-- A name that means itself in the generated script. -/
def isPlainName (name : String) : Bool :=
  isName name && name ≠ awaitName && name ≠ asyncName && name ≠ fetchHelper

theorem isName_of_isPlainName {name : String} (h : isPlainName name = true) : isName name = true := by
  simp only [isPlainName, Bool.and_eq_true] at h
  exact h.1.1.1

theorem toSource_of_isPlainName {name : String} (h : isPlainName name = true) :
    (Lexeme.ident name).toSource = .ident name := by
  simp only [isPlainName, Bool.and_eq_true, decide_eq_true_eq] at h
  simp [Lexeme.toSource, h]

/-! ## Expressions that can be read back -/

def Node.isChain : Node → Bool
  | ident .. | call .. | member .. => true
  | _ => false

/-- An assignment or an arrow function. -/
def Node.isOpen : Node → Bool
  | assign .. | arrow .. => true
  | _ => false

/-- The expressions whose text can be read back, to any depth. -/
inductive Printable : Node → Prop where
  | number {line} {value : Nat} :
    (toString value).length ≤ maxDigits → Printable (.literal line (.number value))
  | string {line text} :
    (∀ ch ∈ text.toList, ch ≠ '\x22' ∧ ch ≠ '\\' ∧ 0x20 ≤ ch.toNat) → Printable (.literal line (.string text))
  | ident {line name} : isPlainName name = true → Printable (.ident line name)
  | binary {line symbol left right} :
    0 < precedence symbol → Printable left → Printable right → Printable (.binary line symbol left right)
  | await {line e} : Printable e → Printable (.await line e)
  | call {line callee args} :
    callee.isChain = true → Printable callee → (∀ a ∈ args, Printable a) →
    Printable (.call line callee (some args))
  | member {line line' object name} :
    object.isChain = true → Printable object → isPlainName name = true →
    Printable (.member line object (.ident line' name))
  | arrow {line params body isAsync} :
    (∀ p ∈ params, isPlainName p = true) → (isAsync = false → params.length ≤ maxArrowParams) → Printable body →
    Printable (.arrow line (some params) body isAsync)
  | assign {line target value} :
    target.isOpen = false → Printable target → Printable value → Printable (.assign line target value)

theorem Printable.isExpression {e : Node} (h : Printable e) : e.isExpression = true := by cases h <;> rfl

theorem Printable.asArrowBody {e : Node} (h : Printable e) (text : String) : e.asArrowBody text = text := by
  cases h <;> rfl

theorem Printable.asExpr {e : Node} (h : Printable e) (text : String) : e.asExpr text = text :=
  if_pos h.isExpression

/-- The phrase that the text of a node writes, when it stands alone. -/
def Node.phrase : Node → Phrase
  | e@(.ident ..) | e@(.call ..) | e@(.member ..) => .chain e
  | e@(.binary _ symbol _ _) => .operand (precedence symbol) e
  | e@(.assign ..) | e@(.arrow ..) => .expr e
  | e => .unary e

/-- `text` is cut into tokens that write `φ`, once the words are those of the language. -/
def Writes (text : String) (φ : Phrase) : Prop :=
  ∃ ls, Cuts text.toList ls ∧ Written φ (ls.map Lexeme.toSource)

theorem Written.operand_mono {e : Node} {level level' : Nat} {ls : List Lexeme} (h : Written (.operand level e) ls)
    (hl : level' ≤ level) : Written (.operand level' e) ls := by
  cases h with
  | ofUnary h => exact .ofUnary h
  | binary h0 hs h1 h2 => exact .binary h0 (hl.trans hs) h1 h2

theorem Written.unary_of_operand {e : Node} {level : Nat} {ls : List Lexeme} (h : Written (.operand level e) ls)
    (hl : maxPrecedence < level) : Written (.unary e) ls := by
  cases h with
  | ofUnary h => exact h
  | @binary _ _ symbol _ _ _ _ _ hs =>
    have := precedence_le symbol
    omega

namespace Printable

variable {e : Node}

/-! ## Places in an expression -/

theorem expr_of_phrase (h : Printable e) {ls : List Lexeme} (hw : Written e.phrase ls) : Written (.expr e) ls := by
  cases h with
  | number | string | await => exact hw.ofUnary.ofOperand
  | ident | call | member => exact hw.ofChain.ofUnary.ofOperand
  | binary h0 => exact (hw.operand_mono h0).ofOperand
  | arrow | assign => exact hw

theorem operand_of_phrase (h : Printable e) (ho : e.isOpen = false) {ls : List Lexeme} (hw : Written e.phrase ls) :
    Written (.operand 1 e) ls := by
  cases h with
  | number | string | await => exact hw.ofUnary
  | ident | call | member => exact hw.ofChain.ofUnary
  | binary h0 => exact hw.operand_mono h0
  | arrow | assign => cases ho

theorem writes_expr (h : Printable e) (hw : Writes e.text e.phrase) : Writes e.exprText (.expr e) := by
  obtain ⟨ls, hc, hw⟩ := hw
  rw [Node.exprText, h.asExpr]
  exact ⟨ls, hc, h.expr_of_phrase hw⟩

theorem writes_parentheses (h : Printable e) (hw : Writes e.text e.phrase) :
    Writes ("(" ++ e.text ++ ")") (.unary e) := by
  obtain ⟨ls, hc, hw⟩ := hw
  refine ⟨.punct .parenOpen :: (ls ++ [.punct .parenClose]), ?_, ?_⟩
  · rw [String.toList_append, String.toList_append, List.append_assoc]
    exact .punct .parenOpen (hc.append (.punct .parenClose cuts_nil) rfl)
  · rw [List.map_cons, List.map_append]
    exact (h.expr_of_phrase hw).parentheses

/-- `asOperand` puts an operand in parentheses exactly where its place asks for operators that bind more tightly. -/
theorem writes_operand (h : Printable e) (hw : Writes e.text e.phrase) {operator : Nat} (hop : 0 < operator)
    (rightSide : Bool) :
    Writes (e.asOperand operator rightSide e.text) (.operand (if rightSide then operator + 1 else operator) e) := by
  unfold Node.asOperand
  split
  next p hp =>
    split
    next =>
      obtain ⟨ls, hc, hw⟩ := h.writes_parentheses hw
      rw [h.asExpr]
      exact ⟨ls, hc, hw.ofUnary⟩
    next hcond =>
      -- Without parentheses only an operator that binds tightly enough can stand here.
      rw [h.asExpr]
      have hle : (if rightSide then operator + 1 else operator) ≤ p := by
        cases rightSide <;> simp at hcond ⊢ <;> omega
      obtain ⟨ls, hc, hw⟩ := hw
      cases h with
      | binary =>
        obtain rfl := Option.some.inj hp
        exact ⟨ls, hc, hw.operand_mono hle⟩
      | assign | arrow =>
        obtain rfl := Option.some.inj hp
        split at hle <;> omega
      | _ => cases hp
  next hp =>
    obtain ⟨ls, hc, hw⟩ := hw
    rw [h.asExpr]
    cases h with
    | number | string | await => exact ⟨ls, hc, hw.ofUnary⟩
    | ident | call | member => exact ⟨ls, hc, hw.ofChain.ofUnary⟩
    | _ => cases hp

end Printable

/-! ## Literals and names -/

theorem escapeChar_eq {ch : Char} (h : ch ≠ '\x22' ∧ ch ≠ '\\' ∧ 0x20 ≤ ch.toNat) :
    Json.escapeChar ch = [ch] := by
  obtain ⟨hquote, hslash, hctrl⟩ := h
  have hshort : Json.shortEscape? ch = none := by
    unfold Json.shortEscape?
    split
    case h_1 => exact absurd rfl hquote
    case h_2 => exact absurd rfl hslash
    case h_8 => rfl
    all_goals exact absurd hctrl (by decide)
  simp [Json.escapeChar, hshort, Nat.not_lt.2 hctrl]

theorem toList_quote {text : String}
    (h : ∀ ch ∈ text.toList, ch ≠ '\x22' ∧ ch ≠ '\\' ∧ 0x20 ≤ ch.toNat) :
    (Json.quote text).toList = '\x22' :: text.toList ++ ['\x22'] := by
  have hflat : text.toList.flatMap Json.escapeChar = text.toList := by
    generalize text.toList = cs at h
    induction cs with
    | nil => rfl
    | cons ch cs ih =>
      rw [List.flatMap_cons, escapeChar_eq (h ch List.mem_cons_self),
        ih fun ch hch => h ch (List.mem_cons_of_mem _ hch)]
      rfl
  rw [Json.quote, String.toList_ofList, hflat]

theorem writes_number {line : Option Int} {value : Nat} (h : (toString value).length ≤ maxDigits) :
    Writes (Node.literal line (.number value)).text (.unary (.literal line (.number value))) := by
  have htext : (Node.literal line (.number value)).text = String.ofList (Nat.toDigits 10 value) :=
    Nat.toString_eq_ofList_toDigits
  rw [Nat.toString_eq_ofList_toDigits, String.length_ofList] at h
  refine ⟨[.number value], ?_, .number⟩
  rw [htext, String.toList_ofList]
  exact cuts_number h

theorem writes_string {line : Option Int} {text : String}
    (h : ∀ ch ∈ text.toList, ch ≠ '\x22' ∧ ch ≠ '\\' ∧ 0x20 ≤ ch.toNat) :
    Writes (Node.literal line (.string text)).text (.unary (.literal line (.string text))) := by
  refine ⟨[.string text], ?_, .string⟩
  have hc := cuts_string fun ch hch => (h ch hch).1
  rwa [String.ofList_toList, ← toList_quote h] at hc

theorem writes_name {line : Option Int} {name : String} (h : isPlainName name = true) :
    Writes name (.chain (.ident line name)) := by
  refine ⟨[.ident name], cuts_name (isName_of_isPlainName h), ?_⟩
  rw [List.map_singleton, toSource_of_isPlainName h]
  exact .ident

/-- A call of `fetchName` is written with the name of the helper. -/
theorem Printable.writes_callee {callee : Node} (h : Printable callee) (hc : callee.isChain = true)
    (hw : Writes callee.text callee.phrase) : Writes (callee.calleeText callee.text) (.chain callee) := by
  cases h with
  | @ident line name hname =>
    rw [Node.calleeText]
    split
    next hfetch =>
      subst hfetch
      exact ⟨[.ident fetchHelper], cuts_name fetchHelper_isName, .ident⟩
    next => exact hw
  | call | member => exact hw
  | _ => cases hc

/-! ## Lists -/

theorem toList_comma : ", ".toList = [',', ' '] := rfl

theorem writes_arguments {args : List Node} (h : ∀ a ∈ args, Writes a.exprText (.expr a)) :
    Writes (", ".intercalate (args.map Node.exprText) ++ ")") (.arguments args) := by
  induction args with
  | nil => exact ⟨[.punct .parenClose], .punct .parenClose cuts_nil, .noArguments⟩
  | cons a args ih =>
    obtain ⟨ls, hc, hw⟩ := h a List.mem_cons_self
    obtain ⟨ms, hcs, hws⟩ := ih fun a ha => h a (List.mem_cons_of_mem _ ha)
    -- A comma stands only where a further argument follows.
    cases args with
    | nil =>
      refine ⟨ls ++ [.punct .parenClose], ?_, ?_⟩
      · rw [List.map_singleton, String.intercalate_singleton, String.toList_append]
        exact hc.append (.punct .parenClose cuts_nil) rfl
      · rw [List.map_append]
        exact .lastArgument hw
    | cons b args =>
      refine ⟨ls ++ .punct .comma :: ms, ?_, ?_⟩
      · rw [List.map_cons, List.map_cons, String.intercalate_cons_cons, ← List.map_cons]
        simp only [String.append_assoc, String.toList_append, toList_comma] at hcs ⊢
        exact hc.append (.punct .comma hcs.blank) rfl
      · rw [List.map_append]
        exact .nextArgument hw hws

theorem cuts_params {params : List String} {cs : List Char} {ls : List Lexeme}
    (h : ∀ p ∈ params, isPlainName p = true) (hc : Cuts cs ls) :
    Cuts ((", ".intercalate params).toList ++ ')' :: cs) (commaSeparated params ++ .punct .parenClose :: ls) := by
  induction params with
  | nil => exact .punct .parenClose hc
  | cons p params ih =>
    have hp := cuts_name (isName_of_isPlainName (h p List.mem_cons_self))
    have hps := ih fun p hp => h p (List.mem_cons_of_mem _ hp)
    cases params with
    | nil => exact hp.append (.punct .parenClose hc) rfl
    | cons q params =>
      rw [String.intercalate_cons_cons, Parse.commaSeparated_cons]
      simp only [String.append_assoc, String.toList_append, toList_comma, List.append_assoc]
      exact hp.append (.punct .comma hps.blank) rfl

theorem map_toSource_commaSeparated {params : List String} (h : ∀ p ∈ params, isPlainName p = true) :
    (commaSeparated params).map Lexeme.toSource = commaSeparated params := by
  induction params with
  | nil => rfl
  | cons p params ih =>
    have hp := toSource_of_isPlainName (h p List.mem_cons_self)
    have hps := ih fun p hp => h p (List.mem_cons_of_mem _ hp)
    cases params with
    | nil => simp [commaSeparated, hp]
    | cons q params =>
      rw [Parse.commaSeparated_cons, List.map_cons, List.map_cons, hp, hps]
      rfl

/-! ## Whole expressions -/

theorem mem_operators {symbol : String} (h : 0 < precedence symbol) :
    symbol ∈ shortOperators ++ longOperators := by
  grind [precedence, shortOperators, longOperators]

section

variable {line : Option Int} {e left right target value body : Node}

theorem writes_binary {symbol : String} (h0 : 0 < precedence symbol) (hl : Printable left) (hr : Printable right)
    (ihl : Writes left.text left.phrase) (ihr : Writes right.text right.phrase) :
    Writes (Node.binary line symbol left right).text (.operand (precedence symbol) (.binary line symbol left right)) := by
  obtain ⟨ls, hcl, hwl⟩ := hl.writes_operand ihl h0 false
  obtain ⟨ms, hcr, hwr⟩ := hr.writes_operand ihr h0 true
  refine ⟨ls ++ .op symbol :: ms, ?_, ?_⟩
  · simp only [Node.text_binary, String.append_assoc, String.toList_append]
    exact hcl.append (.blank (.operator (mem_operators h0) hcr)) rfl
  · rw [List.map_append]
    exact .binary h0 le_rfl hwl hwr

theorem writes_await (h : Printable e) (ih : Writes e.text e.phrase) :
    Writes (Node.await line e).text (.unary (.await line e)) := by
  obtain ⟨ls, hc, hw⟩ := h.writes_operand ih (Nat.succ_pos maxPrecedence) true
  refine ⟨.ident awaitName :: ls, ?_, ?_⟩
  · simp only [Node.text_await, String.toList_append]
    exact (cuts_name awaitName_isName).append hc.blank rfl
  · exact .await (hw.unary_of_operand (by simp [maxPrecedence]))

theorem writes_assign (ht : Printable target) (ho : target.isOpen = false) (hv : Printable value)
    (iht : Writes target.text target.phrase) (ihv : Writes value.text value.phrase) :
    Writes (Node.assign line target value).text (.expr (.assign line target value)) := by
  obtain ⟨ls, hct, hwt⟩ := iht
  obtain ⟨ms, hcv, hwv⟩ := hv.writes_expr ihv
  refine ⟨ls ++ .op "=" :: ms, ?_, ?_⟩
  · have hop : Cuts ("=".toList ++ ' ' :: value.exprText.toList) (.op "=" :: ms) := .operator (by decide) hcv
    simp only [Node.text_assign, String.append_assoc, String.toList_append, ht.asExpr]
    exact hct.append hop.blank rfl
  · rw [List.map_append]
    exact .assign (ht.operand_of_phrase ho hwt) hwv

theorem writes_call {args : List Node} (hc : Writes (e.calleeText e.text) (.chain e))
    (ha : ∀ a ∈ args, Writes a.exprText (.expr a)) :
    Writes (Node.call line e (some args)).text (.chain (.call line e (some args))) := by
  obtain ⟨ls, hc, hw⟩ := hc
  obtain ⟨ms, hcs, hws⟩ := writes_arguments ha
  refine ⟨ls ++ .punct .parenOpen :: ms, ?_, ?_⟩
  · rw [Node.text_call, Node.argTexts_eq_map]
    simp only [String.append_assoc, String.toList_append] at hcs ⊢
    exact hc.append (.punct .parenOpen hcs) rfl
  · rw [List.map_append]
    exact .call hw hws

theorem writes_member {line' : Option Int} {name : String} (h : Printable e) (hn : isPlainName name = true)
    (ih : Writes e.text (.chain e)) :
    Writes (Node.member line e (.ident line' name)).text (.chain (.member line e (.ident line' name))) := by
  obtain ⟨ls, hc, hw⟩ := ih
  refine ⟨ls ++ [.punct .dot, .ident name], ?_, ?_⟩
  · simp only [Node.text_member, String.append_assoc, String.toList_append, h.asExpr]
    exact hc.append (.punct .dot (cuts_name (isName_of_isPlainName hn))) rfl
  · rw [List.map_append, List.map_cons, List.map_singleton, toSource_of_isPlainName hn]
    exact .member hw

theorem writes_arrow {params : List String} {isAsync : Bool} (hp : ∀ p ∈ params, isPlainName p = true)
    (hn : isAsync = false → params.length ≤ maxArrowParams) (hb : Printable body)
    (ih : Writes body.text body.phrase) :
    Writes (Node.arrow line (some params) body isAsync).text (.expr (.arrow line (some params) body isAsync)) := by
  obtain ⟨ls, hc, hw⟩ := ih
  have hbody : Cuts ("=>".toList ++ ' ' :: body.text.toList) (.op "=>" :: ls) := .operator (by decide) hc
  have hparams := (cuts_params hp hbody.blank).punct .parenOpen
  have hmap : (Lexeme.punct .parenOpen :: (commaSeparated params ++ .punct .parenClose :: .op "=>" :: ls)).map
      Lexeme.toSource = parameters params ++ .op "=>" :: ls.map Lexeme.toSource := by
    simp [parameters, map_toSource_commaSeparated hp, Lexeme.toSource]
  have hwritten : Written (.expr (.arrow line (some params) body isAsync)) _ :=
    .arrow hn (.arrowExpr (hb.expr_of_phrase hw))
  simp only [Node.text_arrow, Node.paramsText, Option.getD_some, hb.asArrowBody]
  cases isAsync with
  | false =>
    refine ⟨_, ?_, by rw [hmap]; exact hwritten⟩
    simp only [String.toList_append, List.append_assoc]
    exact hparams
  | true =>
    refine ⟨.ident asyncName :: _, ?_, by rw [List.map_cons, hmap]; exact hwritten⟩
    simp only [String.toList_append, List.append_assoc]
    exact (cuts_name asyncName_isName).append hparams.blank rfl

end

/-- The text of an expression is cut into tokens that write its `phrase`. -/
theorem Printable.writes {e : Node} (h : Printable e) : Writes e.text e.phrase := by
  induction h with
  | number h => exact writes_number h
  | string h => exact writes_string h
  | ident h => exact writes_name h
  | binary h0 hl hr ihl ihr => exact writes_binary h0 hl hr ihl ihr
  | await h ih => exact writes_await h ih
  | call hc h ha ih iha => exact writes_call (h.writes_callee hc ih) fun a hm => (ha a hm).writes_expr (iha a hm)
  | member hc h hn ih =>
    refine writes_member h hn ?_
    cases h with
    | ident | call | member => exact ih
    | _ => cases hc
  | arrow hp hn hb ih => exact writes_arrow hp hn hb ih
  | assign ho ht hv iht ihv => exact writes_assign ht ho hv iht ihv

/-- `exprText` has tokens. With the words of the language in the place of those of the generated script
(`Token.toSource`), they are read as the expression, up to the lines, and no token is left. -/
theorem expr_tokens_exprText {e : Node} (h : Printable e) :
    ∃ tokens, tokenize e.exprText = .ok tokens ∧
      (Parse.expr (tokens.map Token.toSource)).1.unlined = e.unlined ∧
      (Parse.expr (tokens.map Token.toSource)).2 = [] := by
  obtain ⟨ls, hc, hw⟩ := h.writes_expr h.writes
  obtain ⟨hfail, hlex⟩ := hc.lexes (start e.exprText) rfl
  refine ⟨(start e.exprText).scan.tokens, by simp [tokenize, hfail], Parse.expr_of_written ?_⟩
  rw [← hlex, List.map_map] at hw
  rw [List.map_map]
  exact hw

/-- A product whose operands need parentheses, a wait, a fetch and an assignment in an arrow function. -/
theorem expr_tokens_exprText_product :
    let e : Node := .binary none "*" (.binary none "+" (.ident none "a") (.literal none (.number 7)))
      (.await none (.call none (.ident none fetchName) (some [.arrow none (some ["x"])
        (.assign none (.member none (.ident none "x") (.ident none "y")) (.literal none (.string "s"))) true])))
    Printable e ∧ e.exprText = "(a + 7) * await __shar_fetch(async (x) => x.y = \x22s\x22)" ∧
      ∃ tokens, tokenize e.exprText = .ok tokens ∧
        (Parse.expr (tokens.map Token.toSource)).1.unlined = e.unlined ∧
        (Parse.expr (tokens.map Token.toSource)).2 = [] := by
  intro e
  have hx : isPlainName "x" = true := by decide +kernel
  have hsum : Printable (.binary none "+" (.ident none "a") (.literal none (.number 7))) :=
    .binary (by decide) (.ident (by decide +kernel)) (.number (by decide +kernel))
  have harrow : Printable (.arrow none (some ["x"])
      (.assign none (.member none (.ident none "x") (.ident none "y")) (.literal none (.string "s"))) true) :=
    .arrow (List.forall_mem_singleton.2 hx) nofun
      (.assign rfl (.member rfl (.ident hx) (by decide +kernel)) (.string (by simp)))
  have he : Printable e := .binary (by decide) hsum
    (.await (.call rfl (.ident (by decide +kernel)) (List.forall_mem_singleton.2 harrow)))
  exact ⟨he, by decide +kernel, expr_tokens_exprText he⟩

end HindiScript
