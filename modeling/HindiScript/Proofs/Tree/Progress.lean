import HindiScript.Tree.Grammar
import Mathlib.Data.List.Infix

/-!
# Every reader leaves an end of its tokens

A reader never puts a token back, and one that gives a node has taken a token. Both are shown for each rule
of the grammar under the assumption that they hold of the readers for the inner parts (`Inner.Sound`), and
so they hold at every depth: `Inner.sound_upTo`.
-/

namespace HindiScript

namespace Parse

variable {α β : Type}

/-! ## Running a reader -/

@[simp] theorem bind_apply (p : Parse α) (f : α → Parse β) (ts : List Token) :
    (p >>= f) ts = f (p ts).1 (p ts).2 := by rfl

@[simp] theorem pure_apply (a : α) (ts : List Token) : (pure a : Parse α) ts = (a, ts) := rfl

@[simp] theorem map_apply (f : α → β) (p : Parse α) (ts : List Token) :
    (f <$> p) ts = (f (p ts).1, (p ts).2) := by rfl

@[simp] theorem get_apply (ts : List Token) : (get : Parse (List Token)) ts = (ts, ts) := rfl

@[simp] theorem set_apply (ts ts' : List Token) : (set ts' : Parse PUnit) ts = (⟨⟩, ts') := rfl

@[simp] theorem sees_cons (l : Lexeme) (tok : Token) (rest : List Token) :
    sees l (tok :: rest) = (decide (tok.lexeme = l), tok :: rest) := by simp [sees]

@[simp] theorem sees_nil (l : Lexeme) : sees l [] = (false, []) := by simp [sees]

@[simp] theorem takeLine_cons (tok : Token) (rest : List Token) :
    takeLine (tok :: rest) = (some (tok.line : Int), rest) := rfl

@[simp] theorem front?_cons (tok : Token) (rest : List Token) :
    front? (tok :: rest) = (some tok.lexeme, tok :: rest) := rfl

@[simp] theorem front?_nil : front? [] = (none, []) := rfl

theorem accept_cons (l : Lexeme) (tok : Token) (rest : List Token) :
    accept l (tok :: rest) = if tok.lexeme = l then (true, rest) else (false, tok :: rest) := rfl

theorem skipSemicolon_cons (tok : Token) (rest : List Token) :
    skipSemicolon (tok :: rest) =
      ((), if tok.lexeme = .punct .semicolon then rest else tok :: rest) := by
  simp only [skipSemicolon, bind_apply, accept_cons, pure_apply]
  split <;> rfl

/-! ## Readers that leave an end -/

/-- `p` leaves an end of the tokens it is given. -/
def Shrinks (p : Parse α) : Prop := ∀ ts, (p ts).2 <:+ ts

/-- `p` takes the first token, if there is one, and leaves an end of the others. -/
def Takes (p : Parse α) : Prop := ∀ ts, (p ts).2 <:+ ts.tail

/-- `p` leaves an end of what stands behind `tok`, when it is given `tok` first. -/
def TakesFrom (tok : Token) (p : Parse α) : Prop := ∀ rest, (p (tok :: rest)).2 <:+ rest

/-- `p` gives nothing and takes nothing, or takes the first token. So it has taken one when it gives a node. -/
def TakesOrLeaves (p : Parse Node) : Prop :=
  ∀ ts, p ts = (.missing, ts) ∨ ts ≠ [] ∧ (p ts).2 <:+ ts.tail

theorem Shrinks.pure (a : α) : Shrinks (pure a : Parse α) := fun _ => List.suffix_rfl

theorem Shrinks.bind {p : Parse α} {f : α → Parse β} (hp : Shrinks p) (hf : ∀ a, Shrinks (f a)) :
    Shrinks (p >>= f) :=
  fun ts => (hf (p ts).1 (p ts).2).trans (hp ts)

theorem Takes.bind {p : Parse α} {f : α → Parse β} (hp : Takes p) (hf : ∀ a, Shrinks (f a)) : Takes (p >>= f) :=
  fun ts => (hf _ _).trans (hp ts)

theorem Takes.shrinks {p : Parse α} (h : Takes p) : Shrinks p := fun ts => (h ts).trans (List.tail_suffix ts)

theorem TakesFrom.bind {tok : Token} {p : Parse α} {f : α → Parse β} (hp : TakesFrom tok p)
    (hf : ∀ a, Shrinks (f a)) : TakesFrom tok (p >>= f) :=
  fun rest => (hf _ _).trans (hp rest)

theorem TakesOrLeaves.shrinks {p : Parse Node} (h : TakesOrLeaves p) : Shrinks p := by
  intro ts
  rcases h ts with hm | ⟨-, ht⟩
  · rw [hm]
  · exact ht.trans (List.tail_suffix ts)

theorem TakesOrLeaves.length_lt {p : Parse Node} (h : TakesOrLeaves p) {ts : List Token}
    (hn : (p ts).1.isMissing = false) : (p ts).2.length < ts.length := by
  rcases h ts with hm | ⟨hne, ht⟩
  · simp [hm, Node.isMissing] at hn
  · have := ht.length_le
    have := List.length_pos_iff.2 hne
    rw [List.length_tail] at *
    omega

theorem TakesOrLeaves.pure_missing : TakesOrLeaves (Pure.pure .missing) := fun _ => .inl rfl

/-- What follows a reader that took a token may do anything; behind one that took nothing it has to take a
token or leave all itself. -/
theorem TakesOrLeaves.bind {p : Parse Node} {f : Node → Parse Node} (hp : TakesOrLeaves p)
    (hf : ∀ node, Shrinks (f node)) (h0 : TakesOrLeaves (f .missing)) : TakesOrLeaves (p >>= f) := by
  intro ts
  rcases hp ts with hm | ⟨hne, ht⟩
  · rw [bind_apply, hm]
    exact h0 ts
  · exact .inr ⟨hne, (hf _ _).trans ht⟩

/-! ## Single tokens and lists of names -/

theorem takes_takeLine : Takes takeLine := fun _ => List.suffix_rfl

theorem shrinks_takeLine : Shrinks takeLine := takes_takeLine.shrinks

theorem shrinks_front? : Shrinks front? := fun _ => List.suffix_rfl

theorem shrinks_sees (l : Lexeme) : Shrinks (sees l) := fun _ => List.suffix_rfl

theorem shrinks_get : Shrinks (get : Parse (List Token)) := fun _ => List.suffix_rfl

theorem shrinks_accept (l : Lexeme) : Shrinks (accept l) := by
  intro ts
  cases ts with
  | nil => exact List.suffix_rfl
  | cons tok rest =>
    simp only [accept]
    split
    · exact List.suffix_cons tok rest
    · exact List.suffix_rfl

theorem takesFrom_accept {tok : Token} {l : Lexeme} (h : tok.lexeme = l) : TakesFrom tok (accept l) := by
  intro rest
  simp [accept, h]

theorem shrinks_takeName : Shrinks takeName := by
  intro ts
  cases ts with
  | nil => exact List.suffix_rfl
  | cons tok rest =>
    simp only [takeName]
    split
    · exact List.suffix_cons tok rest
    · exact List.suffix_rfl

theorem shrinks_takeString : Shrinks takeString := by
  intro ts
  cases ts with
  | nil => exact List.suffix_rfl
  | cons tok rest =>
    simp only [takeString]
    split
    · exact List.suffix_cons tok rest
    · exact List.suffix_rfl

theorem shrinks_skipSemicolon : Shrinks skipSemicolon :=
  (shrinks_accept _).bind fun _ => Shrinks.pure _

theorem shrinks_paramNames : Shrinks paramNames := by
  intro ts
  fun_induction paramNames ts with
  | case1 => exact List.suffix_rfl
  | case2 tok rest _ => exact List.suffix_rfl
  | case3 tok name _ => exact List.suffix_cons tok []
  | case4 tok name _ comma rest names left heq ih1 ih2 =>
    have hleft : left <:+ comma :: rest := by
      split at heq
      · rw [heq] at ih1
        exact ih1.trans (List.suffix_cons comma rest)
      · rw [heq] at ih2
        exact ih2
    exact hleft.trans (List.suffix_cons tok _)
  | case5 tok rest _ _ ih => exact ih.trans (List.suffix_cons tok rest)

theorem shrinks_params : Shrinks params := by
  refine (shrinks_accept _).bind fun opened => ?_
  split
  · exact shrinks_paramNames.bind fun _ => (shrinks_accept _).bind fun _ => Shrinks.pure _
  · exact Shrinks.pure _

theorem takesFrom_params {tok : Token} (h : tok.lexeme = .punct .parenOpen) : TakesFrom tok params := by
  refine (takesFrom_accept h).bind fun opened => ?_
  split
  · exact shrinks_paramNames.bind fun _ => (shrinks_accept _).bind fun _ => Shrinks.pure _
  · exact Shrinks.pure _

theorem shrinks_importNames : Shrinks importNames := by
  intro ts
  fun_induction importNames ts with
  | case1 => exact List.suffix_rfl
  | case2 tok rest name _ names left heq ih =>
    rw [heq] at ih
    exact ih.trans (List.suffix_cons tok rest)
  | case3 tok rest _ ih => exact ih.trans (List.suffix_cons tok rest)
  | case4 tok rest _ _ => exact List.suffix_rfl

end Parse

/-! ## Rules -/

/-- What the rules need of the readers for the inner parts: each of them `Shrinks` its tokens. -/
structure Inner.Sound (inner : Inner) : Prop where
  statements (untilBrace : Bool) : Parse.Shrinks (inner.statements untilBrace)
  expr : Parse.Shrinks inner.expr
  operand (floor : Int) : Parse.Shrinks (inner.operand floor)
  operators (floor : Int) (left : Node) : Parse.Shrinks (inner.operators floor left)
  arguments : Parse.Shrinks inner.arguments
  chain (head : Node) : Parse.Shrinks (inner.chain head)
  alternative : Parse.Shrinks inner.alternative

namespace Grammar

open Parse

variable {inner : Inner}

/-! ### Expressions -/

theorem takesOrLeaves_block (h : inner.Sound) : TakesOrLeaves (block inner) := by
  intro ts
  cases ts with
  | nil => exact .inl rfl
  | cons tok rest =>
    by_cases hb : tok.lexeme = .punct .braceOpen
    · refine .inr ⟨by simp, ?_⟩
      have ht : Shrinks (inner.statements true >>= fun body => accept (.punct .braceClose) >>= fun _ =>
          (pure (.block (some (tok.line : Int)) body) : Parse Node)) :=
        (h.statements true).bind fun _ => (shrinks_accept _).bind fun _ => Shrinks.pure _
      simpa [block, hb] using ht rest
    · exact .inl (by simp [block, hb])

theorem shrinks_arrowBody (h : inner.Sound) : Shrinks (arrowBody inner) := by
  refine (shrinks_sees _).bind fun brace => ?_
  split
  · exact (takesOrLeaves_block h).shrinks
  · exact h.expr

theorem shrinks_behindParams (h : inner.Sound) (line : Option Int) (names : List String) (isAsync : Bool) :
    Shrinks (do
      if ← accept (.op "=>") then
        let body ← arrowBody inner
        return .arrow line (some names) body isAsync
      else
        return .missing : Parse Node) := by
  refine (shrinks_accept _).bind fun arrow => ?_
  split
  · exact (shrinks_arrowBody h).bind fun _ => Shrinks.pure _
  · exact Shrinks.pure _

theorem shrinks_arrowFunction (h : inner.Sound) (line : Option Int) (isAsync : Bool) :
    Shrinks (arrowFunction inner line isAsync) :=
  shrinks_params.bind fun names => shrinks_behindParams h line names isAsync

theorem takesFrom_arrowFunction (h : inner.Sound) (line : Option Int) (isAsync : Bool) {tok : Token}
    (ht : tok.lexeme = .punct .parenOpen) : TakesFrom tok (arrowFunction inner line isAsync) :=
  (takesFrom_params ht).bind fun names => shrinks_behindParams h line names isAsync

theorem takes_fetchCall (h : inner.Sound) : Takes (fetchCall inner) := by
  refine takes_takeLine.bind fun line => (shrinks_accept _).bind fun opened => ?_
  split
  · exact h.arguments.bind fun _ => Shrinks.pure _
  · exact h.expr.bind fun _ => Shrinks.pure _

theorem shrinks_chain (h : inner.Sound) (head : Node) : Shrinks (chain inner head) := by
  intro ts
  cases ts with
  | nil => exact List.suffix_rfl
  | cons tok rest =>
    simp only [chain]
    split
    · exact ((h.arguments.bind fun args => h.chain _) rest).trans (List.suffix_cons tok rest)
    · split
      · exact List.suffix_rfl
      · rename_i property rest'
        split
        · exact ((h.chain _ rest').trans (List.suffix_cons property rest')).trans
            (List.suffix_cons tok _)
        · exact List.suffix_rfl
    · exact List.suffix_rfl

theorem takesFrom_parenthesized (h : inner.Sound) (line : Option Int) {tok : Token}
    (ht : tok.lexeme = .punct .parenOpen) : TakesFrom tok (parenthesized inner line) := by
  intro rest
  rw [parenthesized, bind_apply]
  split
  · exact takesFrom_arrowFunction h line false ht rest
  · exact (takes_takeLine.bind fun _ => h.expr.bind fun _ => (shrinks_accept _).bind fun _ =>
      Shrinks.pure _) (tok :: rest)

theorem takesOrLeaves_primary (h : inner.Sound) : TakesOrLeaves (primary inner) := by
  intro ts
  rcases ts with _ | ⟨⟨l, line, column⟩, rest⟩
  · exact .inl rfl
  cases l with
  | number value => exact .inr ⟨by simp, List.suffix_rfl⟩
  | string text => exact .inr ⟨by simp, List.suffix_rfl⟩
  | ident name => exact .inr ⟨by simp, shrinks_chain h _ rest⟩
  | punct mark =>
    cases mark with
    | parenOpen => exact .inr ⟨by simp, takesFrom_parenthesized h _ rfl rest⟩
    | _ => exact .inl rfl
  | keyword word =>
    cases word with
    | lao => exact .inr ⟨by simp, takes_fetchCall h _⟩
    | aasynk =>
      by_cases hp : rest.head?.map (·.lexeme) = some (.punct .parenOpen)
      · refine .inr ⟨by simp, ?_⟩
        simp only [primary, bind_apply, get_apply, hp, if_true]
        exact shrinks_arrowFunction h _ true rest
      · left
        simp only [primary, bind_apply, get_apply, hp, if_false, pure_apply]
    | _ => exact .inl rfl
  | _ => exact .inl rfl

theorem takesOrLeaves_unary (h : inner.Sound) : TakesOrLeaves (unary inner) := by
  intro ts
  rcases ts with _ | ⟨tok, rest⟩
  · exact .inl rfl
  by_cases hp : tok.lexeme = .keyword .pratiksha
  · refine .inr ⟨by simp, ?_⟩
    simp only [unary, bind_apply, sees_cons, hp, decide_true, if_true, takeLine_cons]
    exact h.operand maxPrecedence rest
  · simp only [unary, bind_apply, sees_cons, hp, decide_false, Bool.false_eq_true, if_false]
    exact takesOrLeaves_primary h (tok :: rest)

theorem shrinks_operators (h : inner.Sound) (floor : Int) (left : Node) :
    Shrinks (operators inner floor left) := by
  intro ts
  cases ts with
  | nil => exact List.suffix_rfl
  | cons tok rest =>
    simp only [operators]
    split
    · split
      · exact List.suffix_rfl
      · exact (((h.operand _).bind fun _ => h.operators floor _) rest).trans (List.suffix_cons tok rest)
    · exact List.suffix_rfl

theorem takesOrLeaves_operand (h : inner.Sound) (floor : Int) : TakesOrLeaves (operand inner floor) := by
  refine (takesOrLeaves_unary h).bind (fun left => ?_) TakesOrLeaves.pure_missing
  split
  · exact Shrinks.pure _
  · exact shrinks_operators h floor left

theorem takesOrLeaves_expr (h : inner.Sound) : TakesOrLeaves (expr inner) := by
  refine (takesOrLeaves_operand h 0).bind (fun left => ?_) TakesOrLeaves.pure_missing
  split
  · exact Shrinks.pure _
  · refine (shrinks_sees _).bind fun equals => ?_
    split
    · exact shrinks_takeLine.bind fun _ => h.expr.bind fun _ => Shrinks.pure _
    · exact Shrinks.pure _

theorem shrinks_behindArgument (h : inner.Sound) (arg : Node) : Shrinks (behindArgument inner arg) := by
  refine (shrinks_accept _).bind fun comma => ?_
  split
  · split
    · exact h.arguments
    · exact (shrinks_accept _).bind fun _ => Shrinks.pure _
  · exact h.arguments.bind fun _ => Shrinks.pure _

theorem shrinks_arguments (h : inner.Sound) : Shrinks (arguments inner) := by
  refine shrinks_front?.bind fun front => ?_
  split
  · exact Shrinks.pure _
  · exact (shrinks_accept _).bind fun _ => Shrinks.pure _
  · exact (takesOrLeaves_expr h).shrinks.bind fun arg => shrinks_behindArgument h arg

/-! ### Statements -/

theorem shrinks_initializer (h : inner.Sound) : Shrinks (initializer inner) := by
  refine (shrinks_accept _).bind fun equals => ?_
  split
  · exact h.expr
  · exact Shrinks.pure _

theorem takes_declaration (h : inner.Sound) : Takes (declaration inner) := by
  intro ts
  exact (takes_takeLine.bind fun _ => shrinks_takeName.bind fun _ =>
    (shrinks_initializer h).bind fun _ => Shrinks.pure _) ts

theorem takes_variableStatement (h : inner.Sound) : Takes (variableStatement inner) :=
  (takes_declaration h).bind fun _ => shrinks_skipSemicolon.bind fun _ => Shrinks.pure _

theorem takes_printStatement (h : inner.Sound) : Takes (printStatement inner) :=
  takes_takeLine.bind fun _ => h.expr.bind fun _ => shrinks_skipSemicolon.bind fun _ =>
    Shrinks.pure _

theorem shrinks_condition (h : inner.Sound) (line : Option Int) :
    Shrinks (do
      let test ← inner.expr
      let consequent ← block inner
      let alternate ← inner.alternative
      return .ifStmt line test consequent alternate : Parse Node) :=
  h.expr.bind fun _ => (takesOrLeaves_block h).shrinks.bind fun _ => h.alternative.bind fun _ =>
    Shrinks.pure _

theorem shrinks_alternative (h : inner.Sound) : Shrinks (alternative inner) := by
  refine shrinks_front?.bind fun front => ?_
  split
  · exact shrinks_takeLine.bind fun line => shrinks_condition h line
  · exact shrinks_takeLine.bind fun _ => (takesOrLeaves_block h).shrinks
  · exact Shrinks.pure _

theorem takes_ifStatement (h : inner.Sound) : Takes (ifStatement inner) :=
  takes_takeLine.bind fun line => shrinks_condition h line

theorem takes_whileStatement (h : inner.Sound) : Takes (whileStatement inner) :=
  takes_takeLine.bind fun _ => h.expr.bind fun _ => (takesOrLeaves_block h).shrinks.bind fun _ =>
    Shrinks.pure _

theorem shrinks_loopStart (h : inner.Sound) : Shrinks (loopStart inner) := by
  refine shrinks_front?.bind fun front => ?_
  split
  · exact (takes_declaration h).shrinks
  · exact (takes_declaration h).shrinks
  · exact Shrinks.pure _
  · exact h.expr

theorem shrinks_loopPart (h : inner.Sound) (stop : Punct) : Shrinks (loopPart inner stop) := by
  refine (shrinks_sees _).bind fun stopped => ?_
  split
  · exact Shrinks.pure _
  · exact h.expr

theorem takes_forStatement (h : inner.Sound) : Takes (forStatement inner) := by
  have hblock := (takesOrLeaves_block h).shrinks
  refine takes_takeLine.bind fun line => (shrinks_accept _).bind fun opened => ?_
  split
  · exact (shrinks_loopStart h).bind fun _ => shrinks_skipSemicolon.bind fun _ =>
      (shrinks_loopPart h _).bind fun _ => shrinks_skipSemicolon.bind fun _ =>
      (shrinks_loopPart h _).bind fun _ => (shrinks_accept _).bind fun _ => hblock.bind fun _ =>
      Shrinks.pure _
  · exact hblock.bind fun _ => Shrinks.pure _

theorem takes_returnStatement (h : inner.Sound) : Takes (returnStatement inner) :=
  takes_takeLine.bind fun _ => h.expr.bind fun _ => shrinks_skipSemicolon.bind fun _ =>
    Shrinks.pure _

theorem takes_breakStatement : Takes breakStatement :=
  takes_takeLine.bind fun _ => shrinks_skipSemicolon.bind fun _ => Shrinks.pure _

theorem takes_continueStatement : Takes continueStatement :=
  takes_takeLine.bind fun _ => shrinks_skipSemicolon.bind fun _ => Shrinks.pure _

theorem shrinks_signature (h : inner.Sound) (line : Option Int) (isAsync : Bool) :
    Shrinks (do
      let name ← takeName
      let names ← params
      let body ← block inner
      return .functionDecl line name (some names) body isAsync : Parse Node) :=
  shrinks_takeName.bind fun _ => shrinks_params.bind fun _ => (takesOrLeaves_block h).shrinks.bind fun _ =>
    Shrinks.pure _

theorem shrinks_functionDeclaration (h : inner.Sound) : Shrinks (functionDeclaration inner) :=
  shrinks_get.bind fun _ => (shrinks_accept _).bind fun isAsync => (shrinks_accept _).bind fun _ =>
    shrinks_signature h _ isAsync

theorem takesFrom_functionDeclaration (h : inner.Sound) {tok : Token}
    (ht : tok.lexeme = .keyword .aasynk ∨ tok.lexeme = .keyword .karya) :
    TakesFrom tok (functionDeclaration inner) := by
  intro rest
  rcases ht with ht | ht
  · exact ((takesFrom_accept ht).bind fun isAsync => (shrinks_accept _).bind fun _ =>
      shrinks_signature h _ isAsync) rest
  · -- Without `aasynk` nothing is taken until `karya` is accepted.
    have hn : accept (.keyword .aasynk) (tok :: rest) = (false, tok :: rest) := by simp [accept, ht]
    simp only [functionDeclaration, bind_apply, get_apply, hn]
    exact ((takesFrom_accept ht).bind fun _ => shrinks_signature h _ false) rest

theorem takes_importStatement : Takes importStatement := by
  refine takes_takeLine.bind fun line => (shrinks_accept _).bind fun braced => ?_
  split
  · exact shrinks_importNames.bind fun _ => (shrinks_accept _).bind fun _ => (shrinks_accept _).bind fun _ =>
      shrinks_takeString.bind fun _ => shrinks_skipSemicolon.bind fun _ => Shrinks.pure _
  · exact shrinks_takeString.bind fun _ => shrinks_skipSemicolon.bind fun _ => Shrinks.pure _

theorem takes_exportStatement (h : inner.Sound) : Takes (exportStatement inner) := by
  have hv := (takes_variableStatement h).shrinks
  refine takes_takeLine.bind fun line => shrinks_front?.bind fun front => ?_
  split
  · exact hv.bind fun _ => Shrinks.pure _
  · exact hv.bind fun _ => Shrinks.pure _
  · exact (shrinks_functionDeclaration h).bind fun _ => Shrinks.pure _
  · exact (shrinks_functionDeclaration h).bind fun _ => Shrinks.pure _
  · exact shrinks_takeLine.bind fun _ => shrinks_skipSemicolon.bind fun _ => Shrinks.pure _
  · exact Shrinks.pure _

theorem takesOrLeaves_expressionStatement (h : inner.Sound) :
    TakesOrLeaves (expressionStatement inner) := by
  intro ts
  -- Where there is no expression a semicolon may still be taken, so that `hend` is needed for `bind`.
  have hend : TakesOrLeaves (skipSemicolon >>= fun _ => (pure .missing : Parse Node)) := by
    intro us
    rcases us with _ | ⟨tok, rest⟩
    · exact .inl rfl
    by_cases hs : tok.lexeme = .punct .semicolon
    · exact .inr ⟨by simp, by simp [skipSemicolon_cons, hs]⟩
    · exact .inl (by simp [skipSemicolon_cons, hs])
  have hall : TakesOrLeaves (expr inner >>= fun value => skipSemicolon >>= fun _ =>
      (pure (if value.isMissing then .missing else .exprStmt (ts.head?.map (·.line)) value) : Parse Node)) :=
    (takesOrLeaves_expr h).bind (fun _ => shrinks_skipSemicolon.bind fun _ => Shrinks.pure _) hend
  exact hall ts

theorem takesOrLeaves_statement (h : inner.Sound) : TakesOrLeaves (statement inner) := by
  intro ts
  rcases ts with _ | ⟨⟨l, line, column⟩, rest⟩
  · exact .inl rfl
  have hexpr := takesOrLeaves_expressionStatement h (⟨l, line, column⟩ :: rest)
  have hblock := takesOrLeaves_block h (⟨l, line, column⟩ :: rest)
  cases l with
  | keyword word =>
    cases word with
    | ye | sthayi => exact .inr ⟨by simp, takes_variableStatement h _⟩
    | bol => exact .inr ⟨by simp, takes_printStatement h _⟩
    | agar => exact .inr ⟨by simp, takes_ifStatement h _⟩
    | lagataar => exact .inr ⟨by simp, takes_whileStatement h _⟩
    | jabtak => exact .inr ⟨by simp, takes_forStatement h _⟩
    | wapas => exact .inr ⟨by simp, takes_returnStatement h _⟩
    | ruk => exact .inr ⟨by simp, takes_breakStatement _⟩
    | chhod => exact .inr ⟨by simp, takes_continueStatement _⟩
    | karya => exact .inr ⟨by simp, takesFrom_functionDeclaration h (.inr rfl) rest⟩
    | aayaat => exact .inr ⟨by simp, takes_importStatement _⟩
    | niryaat => exact .inr ⟨by simp, takes_exportStatement h _⟩
    | aasynk =>
      by_cases hk : rest.head?.map (·.lexeme) = some (.keyword .karya)
      · refine .inr ⟨by simp, ?_⟩
        simp only [statement, bind_apply, get_apply, hk, if_true]
        exact takesFrom_functionDeclaration h (.inl rfl) rest
      · simp only [statement, bind_apply, get_apply, hk, if_false]
        exact hexpr
    | _ => exact hexpr
  | punct mark =>
    cases mark with
    | braceOpen => exact hblock
    | semicolon => exact .inr ⟨by simp, List.suffix_rfl⟩
    | _ => exact hexpr
  | _ => exact hexpr

theorem statements_cons (inner : Inner) (untilBrace : Bool) (tok : Token) (rest : List Token) :
    statements inner untilBrace (tok :: rest) =
      if untilBrace && tok.lexeme = .punct .braceClose then ([], tok :: rest)
      else
        let read := statement inner (tok :: rest)
        if read.1.isMissing then
          inner.statements untilBrace (if read.2.length = (tok :: rest).length then rest else read.2)
        else
          let more := inner.statements untilBrace read.2
          (read.1 :: more.1, more.2) := rfl

theorem shrinks_statements (h : inner.Sound) (untilBrace : Bool) :
    Shrinks (statements inner untilBrace) := by
  intro ts
  cases ts with
  | nil => exact List.suffix_rfl
  | cons tok rest =>
    have hs := (takesOrLeaves_statement h).shrinks (tok :: rest)
    rw [statements_cons]
    split
    · exact List.suffix_rfl
    · dsimp only
      split
      · -- Nothing was read here: a token is passed over if none was taken.
        refine (h.statements untilBrace _).trans ?_
        split
        · exact List.suffix_cons tok rest
        · exact hs
      · exact (h.statements untilBrace _).trans hs

end Grammar

/-! ## Every depth -/

namespace Inner

theorem sound_ofNone : ofNone.Sound where
  statements _ := Parse.Shrinks.pure _
  expr := Parse.Shrinks.pure _
  operand _ := Parse.Shrinks.pure _
  operators _ _ := Parse.Shrinks.pure _
  arguments := Parse.Shrinks.pure _
  chain _ := Parse.Shrinks.pure _
  alternative := Parse.Shrinks.pure _

theorem Sound.step {inner : Inner} (h : inner.Sound) : inner.step.Sound where
  statements := Grammar.shrinks_statements h
  expr := (Grammar.takesOrLeaves_expr h).shrinks
  operand floor := (Grammar.takesOrLeaves_operand h floor).shrinks
  operators := Grammar.shrinks_operators h
  arguments := Grammar.shrinks_arguments h
  chain := Grammar.shrinks_chain h
  alternative := Grammar.shrinks_alternative h

theorem upTo_succ (n : Nat) : upTo (n + 1) = (upTo n).step := rfl

theorem sound_upTo (n : Nat) : (upTo n).Sound := by
  induction n with
  | zero => exact sound_ofNone
  | succ n ih => exact ih.step

end Inner

end HindiScript
