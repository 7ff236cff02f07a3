import HindiScript.Proofs.Tree.Productions

/-!
# Reading what was written

Each reader reads back the phrase it is for and leaves the tokens behind it, if these do not carry the phrase
on (`Phrase.Reads`). Main statement: `Written.reads`, by induction on how the phrase is written.
-/

namespace HindiScript

open Lexeme Punct Keyword HindiScript.Inner

theorem precedence_le (symbol : String) : precedence symbol ≤ maxPrecedence := by
  unfold precedence maxPrecedence
  split_ifs <;> omega

/-- No operator binds more tightly than `maxPrecedence`. -/
theorem Fits.atMax {level : Nat} {rest : List Token} (h : Fits level rest) : Fits maxPrecedence rest := by
  intro tok htok
  have hl := h tok htok
  unfold carriesOn at *
  split <;> simp_all [precedence_le]

namespace Node

theorem isMissing_atFront (e : Node) : e.atFront.isMissing = e.isMissing := isMissing_relined _ e

theorem atFront_call (line : Option Int) (callee : Node) (args : List Node) :
    (call line callee (some args)).atFront = .call (some 1) callee.atFront (some (args.map atFront)) := by
  simp only [atFront, relined, relinedAll_eq_map]
  rfl

theorem atFront_block (line : Option Int) (body : List Node) :
    (block line body).atFront = .block (some 1) (body.map atFront) := by
  simp only [atFront, relined, relinedAll_eq_map]
  rfl

end Node

/-! ## Looking ahead for an arrow -/

/-- `namesThenArrow` finds no arrow behind a list of names. -/
def NoArrow (ts : List Token) : Prop := ∀ n, Parse.namesThenArrow n ts = false

/-- The tokens of an expression do not turn what follows into a list of names and an arrow. -/
def Phrase.HidesArrow : Phrase → List Lexeme → Prop
  | chain _, ls | unary _, ls | operand _ _, ls | expr _, ls => ∀ X, NoArrow X → NoArrow (atFront ls ++ X)
  | _, _ => True

theorem NoArrow.ident {X : List Token} (h : NoArrow X) (name : String) : NoArrow (⟨ident name, 1, 1⟩ :: X) := by
  intro n
  cases n with
  | zero => rfl
  | succ n => exact h n

theorem NoArrow.close {rest : List Token} {level : Nat} (h : Fits level rest) :
    NoArrow (⟨punct parenClose, 1, 1⟩ :: rest) := by
  intro n
  cases n with
  | zero => rfl
  | succ n =>
    rcases rest with _ | ⟨tok, rest⟩
    · rfl
    have ht : tok.lexeme.carriesOn level = false := h _ rfl
    have : tok.lexeme ≠ op "=>" := by
      intro heq
      rw [heq] at ht
      cases ht
    simp [Parse.namesThenArrow, this]

/-- Looking ahead stops at a token that no list of names holds. -/
theorem NoArrow.of_first {l : Lexeme} (h : ∀ n X, Parse.namesThenArrow (n + 1) (⟨l, 1, 1⟩ :: X) = false)
    (X : List Token) : NoArrow (⟨l, 1, 1⟩ :: X) := by
  intro n
  cases n with
  | zero => rfl
  | succ n => exact h n X

theorem Written.hidesArrow {φ : Phrase} {ls : List Lexeme} (h : Written φ ls) : φ.HidesArrow ls := by
  induction h with
  | ident => exact fun X hX => hX.ident _
  | call _ _ ih | member _ ih | binary _ _ _ _ ih | assign _ _ ih =>
    intro X hX
    rw [atFront_append, List.append_assoc]
    exact ih _ (NoArrow.of_first (fun _ _ => rfl) _)
  | ofChain _ ih | ofUnary _ ih | ofOperand _ ih => exact ih
  | number | string | fetch | parentheses | await => exact fun X _ => NoArrow.of_first (fun _ _ => rfl) _
  | @arrow _ _ _ isAsync => cases isAsync <;> exact fun X _ => NoArrow.of_first (fun _ _ => rfl) _
  | _ => trivial

/-! ## Reading a phrase -/

/-- Statements end before `rest`: at the end or, if `untilBrace`, at a closing brace. -/
def Closes (untilBrace : Bool) (rest : List Token) : Prop :=
  if untilBrace then rest.head?.map (·.lexeme) = some (punct braceClose) else rest = []

/-- The reader for the place reads the phrase back from its tokens. -/
def Phrase.Reads : Phrase → List Lexeme → Prop
  | chain e, ls => ∀ rest, Parse.unary (atFront ls ++ rest) = Parse.chain e.atFront rest
  | unary e, ls => ∀ rest, Fits maxPrecedence rest → Parse.unary (atFront ls ++ rest) = (e.atFront, rest)
  | operand level e, ls => ∀ (floor : Nat) (rest : List Token), floor < level → Fits level rest →
    Parse.operand floor (atFront ls ++ rest) = Parse.operators floor e.atFront rest
  | expr e, ls | optional e, ls => ∀ rest, Ends (endsInBlock ls) rest →
    Parse.expr (atFront ls ++ rest) = (e.atFront, rest)
  | arguments es, ls => ∀ rest, Parse.arguments (atFront ls ++ rest) = (es.map Node.atFront, rest)
  | arrowBody e, ls => ∀ rest, Ends (endsInBlock ls) rest →
    Grammar.arrowBody readers (atFront ls ++ rest) = (e.atFront, rest)
  | initializer e, ls => ∀ rest, Ends (endsInBlock ls) rest →
    Grammar.initializer readers (atFront ls ++ rest) = (e.atFront, rest)
  | declaration e, ls => ∀ rest, Ends (endsInBlock ls) rest →
    Grammar.declaration readers (atFront ls ++ rest) = (e.atFront, rest)
  | function e, ls => ∀ rest, Grammar.functionDeclaration readers (atFront ls ++ rest) = (e.atFront, rest)
  | block e, ls => ∀ rest, Parse.block (atFront ls ++ rest) = (e.atFront, rest)
  | alternate e, ls => ∀ rest, Ends true rest → Parse.alternative (atFront ls ++ rest) = (e.atFront, rest)
  | loopStart e, ls => ∀ rest, Grammar.loopStart readers (atFront (ls ++ [punct semicolon]) ++ rest) =
    (e.atFront, ⟨punct semicolon, 1, 1⟩ :: rest)
  | statement e, ls => ∀ rest, Ends (endsInBlock ls) rest →
    ∃ left ∈ [rest, (Parse.skipSemicolon rest).2], Parse.statement (atFront ls ++ rest) = (e.atFront, left)
  | statements es, ls => ∀ untilBrace rest, Closes untilBrace rest →
    Parse.statements untilBrace (atFront ls ++ rest) = (es.map Node.atFront, rest)

namespace Written

variable {φ : Phrase} {ls ms : List Lexeme} {e : Node} {level : Nat}

theorem reads_parentheses (h : Written (.expr e) ls) (ih : (Phrase.expr e).Reads ls) :
    (Phrase.unary e).Reads (punct parenOpen :: ls ++ [punct parenClose]) := by
  intro rest hr
  have he : Parse.expr (atFront ls ++ ⟨punct parenClose, 1, 1⟩ :: rest) =
      (e.atFront, ⟨punct parenClose, 1, 1⟩ :: rest) := ih _ (.cons rfl _)
  simp only [List.cons_append, atFront_cons, atFront_append, atFront_nil, List.append_assoc, List.nil_append]
  exact Parse.unary_parenthesized (h.hidesArrow _ (.close hr)) he

theorem reads_await {line : Option Int} (h : Written (.unary e) ls) (ih : (Phrase.unary e).Reads ls) :
    (Phrase.unary (.await line e)).Reads (keyword pratiksha :: ls) := by
  intro rest hr
  have hp : e.atFront.isMissing = false := e.isMissing_atFront.trans h.present
  have hv : Parse.operand maxPrecedence (atFront ls ++ rest) = (e.atFront, rest) := by
    rw [Parse.operand_of_unary _ (ih rest hr) hp]
    exact Parse.operators_fits le_rfl hr
  exact Parse.unary_await hv

theorem reads_ofUnary (h : Written (.unary e) ls) (ih : (Phrase.unary e).Reads ls) :
    (Phrase.operand level e).Reads ls := by
  intro floor rest _ hr
  exact Parse.operand_of_unary _ (ih rest hr.atMax) (e.isMissing_atFront.trans h.present)

theorem reads_binary {line : Option Int} {symbol : String} {left right : Node} (hl : level ≤ precedence symbol)
    (ihl : (Phrase.operand (precedence symbol) left).Reads ls)
    (ihr : (Phrase.operand (precedence symbol + 1) right).Reads ms) :
    (Phrase.operand level (.binary line symbol left right)).Reads (ls ++ op symbol :: ms) := by
  intro floor rest hf hr
  have hs : floor < precedence symbol := by omega
  -- The operator does not bind more tightly than itself, so that the left operand ends before it.
  have hop : Fits (precedence symbol) (⟨op symbol, 1, 1⟩ :: (atFront ms ++ rest)) := by
    have hne : symbol ≠ "=>" := by
      rintro rfl
      exact Nat.not_lt_zero floor hs
    exact .cons (by simp [carriesOn, hne]) _
  have hright : Parse.operand (precedence symbol) (atFront ms ++ rest) = (right.atFront, rest) := by
    rw [ihr _ rest (Nat.lt_succ_self _) (hr.mono (by omega))]
    exact Parse.operators_fits hl hr
  rw [atFront_append, List.append_assoc, atFront_cons, List.cons_append, ihl floor _ hs hop]
  exact Parse.operators_op (Int.ofNat_lt.2 hs) hright

theorem reads_ofOperand (h : Written (.operand 1 e) ls) (ih : (Phrase.operand 1 e).Reads ls) :
    (Phrase.expr e).Reads ls := by
  intro rest hr
  have hr' : Ends false rest := by rwa [h.staysOpen] at hr
  have ho : Parse.operand (0 : Nat) (atFront ls ++ rest) = (e.atFront, rest) := by
    rw [ih 0 rest Nat.one_pos (hr'.fits 1)]
    exact Parse.operators_ends hr'
  exact Parse.expr_of_operand ho (e.isMissing_atFront.trans h.present) hr'

theorem reads_assign {line : Option Int} {target : Node} (h : Written (.operand 1 target) ls)
    (iht : (Phrase.operand 1 target).Reads ls) (ihv : (Phrase.expr e).Reads ms) :
    (Phrase.expr (.assign line target e)).Reads (ls ++ op "=" :: ms) := by
  intro rest hr
  rw [endsInBlock_append_cons, endsInBlock_cons (by simp)] at hr
  have ho : Parse.operand (0 : Nat) (atFront ls ++ ⟨op "=", 1, 1⟩ :: (atFront ms ++ rest)) =
      (target.atFront, ⟨op "=", 1, 1⟩ :: (atFront ms ++ rest)) := by
    have hf : Fits 0 (⟨op "=", 1, 1⟩ :: (atFront ms ++ rest)) := .cons rfl _
    rw [iht 0 _ Nat.one_pos (hf.mono (Nat.zero_le 1))]
    exact Parse.operators_fits le_rfl hf
  rw [atFront_append, List.append_assoc]
  exact Parse.expr_assign ho (target.isMissing_atFront.trans h.present) (ihv rest hr)

theorem reads_arrow {line : Option Int} {params : List String} {isAsync : Bool}
    (hn : isAsync = false → params.length ≤ maxArrowParams) (ih : (Phrase.arrowBody e).Reads ls) :
    (Phrase.expr (.arrow line (some params) e isAsync)).Reads
      (asyncWord isAsync ++ parameters params ++ op "=>" :: ls) := by
  intro rest hr
  rw [endsInBlock_append_cons, endsInBlock_cons (by simp)] at hr
  rw [atFront_append, List.append_assoc]
  have hu := Parse.unary_arrow isAsync params hn (ih rest hr)
  have ho := (Parse.operand_of_unary 0 hu rfl).trans (Parse.operators_ends hr)
  exact Parse.expr_of_operand ho rfl hr

theorem reads_lastArgument (h : Written (.expr e) ls) (ih : (Phrase.expr e).Reads ls) :
    (Phrase.arguments [e]).Reads (ls ++ [punct parenClose]) := by
  intro rest
  have he := ih (⟨punct parenClose, 1, 1⟩ :: rest) (.cons rfl _)
  rw [atFront_append, List.append_assoc]
  refine (Parse.arguments_expr h.begins _ he (e.isMissing_atFront.trans h.present)).trans ?_
  simp [Parse.accept_cons, Parse.arguments_close]

theorem reads_nextArgument {es : List Node} (h : Written (.expr e) ls) (ih : (Phrase.expr e).Reads ls)
    (ihs : (Phrase.arguments es).Reads ms) : (Phrase.arguments (e :: es)).Reads (ls ++ punct comma :: ms) := by
  intro rest
  have he := ih (⟨punct comma, 1, 1⟩ :: (atFront ms ++ rest)) (.cons rfl _)
  rw [atFront_append, List.append_assoc]
  refine (Parse.arguments_expr h.begins _ he (e.isMissing_atFront.trans h.present)).trans ?_
  simp [Parse.accept_cons, ihs rest]

theorem reads_block {line : Option Int} {es : List Node} (ih : (Phrase.statements es).Reads ls) :
    (Phrase.block (.block line es)).Reads (punct braceOpen :: ls ++ [punct braceClose]) := by
  intro rest
  have hs := ih true (⟨punct braceClose, 1, 1⟩ :: rest) rfl
  rw [Node.atFront_block]
  simp only [List.cons_append, atFront_cons, atFront_append, atFront_nil, List.append_assoc, List.nil_append]
  exact Parse.block_braces hs

/-! ### Statements -/

/-- An expression ends where a block begins. -/
theorem ends_block (h : Written (.block e) ls) (b : Bool) (rest : List Token) : Ends b (atFront ls ++ rest) := by
  cases h
  exact .cons rfl _

/-- A block ends where a statement begins. -/
theorem ends_statement (h : Written (.statement e) ls) (rest : List Token) : Ends true (atFront ls ++ rest) := by
  have hl : startsStatement ls = true := h.begins
  unfold startsStatement startsExpr at hl
  split at hl
  case h_15 =>
    split at hl
    case h_8 => cases hl
    all_goals exact .cons rfl _
  all_goals exact .cons rfl _

section

variable {line : Option Int} {test init update : Node} {ks ns : List Lexeme}

theorem reads_elseIf {alternate : Node} (hc : Written (.block e) ms) (iht : (Phrase.expr test).Reads ls)
    (ihc : (Phrase.block e).Reads ms) (iha : (Phrase.alternate alternate).Reads ns) :
    (Phrase.alternate (.ifStmt line test e alternate)).Reads (keyword nahitoh :: (ls ++ (ms ++ ns))) := by
  intro rest hr
  simp only [atFront_cons, atFront_append, List.cons_append, List.append_assoc]
  exact Parse.alternative_elseIf (iht _ (ends_block hc _ _)) (ihc _) (iha rest hr)

theorem reads_ifStmt {alternate : Node} (hc : Written (.block e) ms) (iht : (Phrase.expr test).Reads ls)
    (ihc : (Phrase.block e).Reads ms) (iha : (Phrase.alternate alternate).Reads ns) :
    (Phrase.statement (.ifStmt line test e alternate)).Reads (keyword agar :: (ls ++ (ms ++ ns))) := by
  intro rest hr
  refine ⟨rest, by simp, ?_⟩
  simp only [atFront_cons, atFront_append, List.cons_append, List.append_assoc]
  exact Parse.statement_if (iht _ (ends_block hc _ _)) (ihc _) (iha rest hr.afterBlock)

theorem reads_whileStmt (hb : Written (.block e) ms) (iht : (Phrase.expr test).Reads ls)
    (ihb : (Phrase.block e).Reads ms) :
    (Phrase.statement (.whileStmt line test e)).Reads (keyword lagataar :: (ls ++ ms)) := by
  intro rest _
  refine ⟨rest, by simp, ?_⟩
  simp only [atFront_cons, atFront_append, List.cons_append, List.append_assoc]
  exact Parse.statement_while (iht _ (ends_block hb _ _)) (ihb rest)

theorem reads_forStmt (ihi : (Phrase.loopStart init).Reads ks) (iht : (Phrase.optional test).Reads ls)
    (ihu : (Phrase.optional update).Reads ms) (ihb : (Phrase.block e).Reads ns) :
    (Phrase.statement (.forStmt line init test update e)).Reads (keyword jabtak :: punct parenOpen ::
      (ks ++ punct semicolon :: (ls ++ punct semicolon :: (ms ++ punct parenClose :: ns)))) := by
  intro rest _
  have hi := ihi (atFront (ls ++ punct semicolon :: (ms ++ punct parenClose :: ns)) ++ rest)
  simp only [atFront_cons, atFront_nil, atFront_append, List.cons_append, List.append_assoc, List.nil_append] at hi
  refine ⟨rest, by simp, ?_⟩
  simp only [atFront_cons, atFront_append, List.cons_append, List.append_assoc]
  exact Parse.statement_for hi (iht _ (.cons rfl _)) (ihu _ (.cons rfl _)) (ihb rest)

end

theorem ends_closes {untilBrace : Bool} {rest : List Token} (h : Closes untilBrace rest) : Ends true rest := by
  rcases rest with _ | ⟨tok, rest⟩
  · exact .nil
  cases untilBrace with
  | true =>
    have : tok.lexeme = punct braceClose := Option.some.inj h
    exact .cons (by rw [this]; rfl) rest
  | false => cases h

theorem statements_closes {untilBrace : Bool} {rest : List Token} (h : Closes untilBrace rest) :
    Parse.statements untilBrace rest = ([], rest) := by
  rw [Parse.statements_eq]
  rcases rest with _ | ⟨tok, rest⟩
  · rfl
  cases untilBrace with
  | true =>
    have : tok.lexeme = punct braceClose := Option.some.inj h
    simp [Grammar.statements_cons, this]
  | false => cases h

theorem ends_statements {es : List Node} {untilBrace : Bool} {rest : List Token}
    (h : Written (.statements es) ls) (hr : Closes untilBrace rest) : Ends true (atFront ls ++ rest) := by
  cases h with
  | noStatements => exact ends_closes hr
  | nextStatement semicolons h =>
    rw [atFront_append, List.append_assoc]
    exact ends_statement h _

theorem reads_nextStatement {es : List Node} {semicolons : Nat} (h : Written (.statement e) ls)
    (hn : endsInBlock ls = false → 0 < semicolons) (hs : Written (.statements es) ms)
    (ih : (Phrase.statement e).Reads ls) (ihs : (Phrase.statements es).Reads ms) :
    (Phrase.statements (e :: es)).Reads (ls ++ (List.replicate semicolons (punct semicolon) ++ ms)) := by
  intro untilBrace rest hr
  let left := atFront (List.replicate semicolons (punct semicolon)) ++ (atFront ms ++ rest)
  have hends : Ends (endsInBlock ls) left := by
    cases semicolons with
    | zero =>
      -- Only a statement that ends in a block does without, and then the next one may begin at once.
      have hb : endsInBlock ls = true := by
        by_contra hb
        exact Nat.lt_irrefl 0 (hn (by simpa using hb))
      rw [hb]
      exact (ends_statements hs hr :)
    | succ n => exact .cons rfl _
  obtain ⟨left', hleft', hst⟩ := ih left hends
  -- The semicolons are passed over, whether the statement has taken the first of them or not.
  have hskip : Parse.statements untilBrace left' = (es.map Node.atFront, rest) := by
    have hleft : Parse.statements untilBrace left = (es.map Node.atFront, rest) :=
      (Parse.statements_semicolons untilBrace semicolons _).trans (ihs untilBrace rest hr)
    simp only [List.mem_cons, List.not_mem_nil, or_false] at hleft'
    rcases hleft' with rfl | rfl
    · exact hleft
    · exact (Parse.statements_skipSemicolon untilBrace left).trans hleft
  simp only [atFront_append, List.append_assoc]
  cases ls with
  | nil => cases h.begins
  | cons l ls =>
    have hl : l ≠ punct braceClose := by
      rintro rfl
      cases h.begins
    have := Parse.statements_statement untilBrace hl hst (e.isMissing_atFront.trans h.present)
    rw [hskip] at this
    exact this

theorem reads (h : Written φ ls) : φ.Reads ls := by
  induction h with
  | ident => exact fun rest => Parse.unary_ident _ rest
  | call _ _ ih iha =>
    intro rest
    rw [atFront_append, List.append_assoc, ih, Node.atFront_call]
    exact Parse.chain_call (iha rest)
  | member _ ih =>
    intro rest
    rw [atFront_append, List.append_assoc, ih]
    exact Parse.chain_member _ rest
  | noArguments => exact fun rest => Parse.arguments_close rest
  | lastArgument h ih => exact reads_lastArgument h ih
  | nextArgument h _ ih ihs => exact reads_nextArgument h ih ihs
  | ofChain _ ih => exact fun rest hr => (ih rest).trans (Parse.chain_fits hr)
  | number => exact fun rest _ => Parse.unary_number _ rest
  | string => exact fun rest _ => Parse.unary_string _ rest
  | fetch _ ih =>
    intro rest _
    rw [Node.atFront_call]
    exact Parse.unary_fetch (ih rest)
  | parentheses h ih => exact reads_parentheses h ih
  | await h ih => exact reads_await h ih
  | ofUnary h ih => exact reads_ofUnary h ih
  | binary _ hl _ _ ihl ihr => exact reads_binary hl ihl ihr
  | ofOperand h ih => exact reads_ofOperand h ih
  | assign h _ iht ihv => exact reads_assign h iht ihv
  | arrow hn _ ih => exact reads_arrow hn ih
  | arrowExpr h ih => exact fun rest hr => (Parse.arrowBody_expr h.begins rest).trans (ih rest hr)
  | arrowBlock h ih =>
    intro rest _
    cases h
    exact (Parse.arrowBody_block _).trans (ih rest)
  | noValue => exact fun rest hr => Parse.initializer_ends hr
  | value _ ih =>
    intro rest hr
    rw [endsInBlock_cons (by simp)] at hr
    exact ih rest hr
  | @declaration _ _ _ isConstant _ _ ih =>
    intro rest hr
    rw [endsInBlock_cons (by simp), endsInBlock_cons (by simp)] at hr
    exact Parse.declaration_name isConstant _ (ih rest hr)
  | @function _ _ _ _ isAsync _ _ ih =>
    intro rest
    rw [atFront_append, List.append_assoc]
    exact Parse.functionDeclaration_name isAsync _ _ (ih rest)
  | block _ ih => exact reads_block ih
  | noAlternate => exact fun rest hr => Parse.alternative_ends hr
  | elseIf _ hc _ iht ihc iha => exact reads_elseIf hc iht ihc iha
  | elseBlock _ ih => exact fun rest _ => Parse.alternative_else (ih rest)
  | startDeclaration h ih =>
    intro rest
    have hd := ih (⟨punct semicolon, 1, 1⟩ :: rest) (.cons rfl _)
    rw [atFront_append, List.append_assoc]
    cases h with
    | @declaration _ _ _ isConstant => exact (Parse.loopStart_declaration isConstant _).trans hd
  | startOptional h ih =>
    intro rest
    have he := ih (⟨punct semicolon, 1, 1⟩ :: rest) (.cons rfl _)
    rw [atFront_append, List.append_assoc]
    cases h with
    | leftOut => rfl
    | given h => exact (Parse.loopStart_expr h.begins _).trans he
  | leftOut => exact fun rest hr => Parse.expr_ends hr
  | given _ ih => exact ih
  | declarationStmt h ih =>
    intro rest hr
    have hd := ih rest hr
    cases h with
    | @declaration _ _ _ isConstant => exact ⟨_, by simp, Parse.statement_declaration isConstant rfl hd⟩
  | printStmt _ ih =>
    intro rest hr
    rw [endsInBlock_cons (by simp)] at hr
    exact ⟨_, by simp, Parse.statement_print (ih rest hr)⟩
  | ifStmt _ hc _ iht ihc iha => exact reads_ifStmt hc iht ihc iha
  | whileStmt _ hb iht ihb => exact reads_whileStmt hb iht ihb
  | forStmt _ _ _ _ ihi iht ihu ihb => exact reads_forStmt ihi iht ihu ihb
  | foreverStmt h ih =>
    intro rest _
    cases h
    exact ⟨rest, by simp, Parse.statement_forever (ih rest)⟩
  | returnStmt _ ih =>
    intro rest hr
    rw [endsInBlock_cons (by simp)] at hr
    exact ⟨_, by simp, Parse.statement_return (ih rest hr)⟩
  | breakStmt => exact fun rest _ => ⟨_, by simp, Parse.statement_break rest⟩
  | continueStmt => exact fun rest _ => ⟨_, by simp, Parse.statement_continue rest⟩
  | functionStmt h ih =>
    intro rest _
    have hf := ih rest
    cases h with
    | @function _ _ _ _ isAsync =>
      refine ⟨rest, by simp, Eq.trans ?_ hf⟩
      cases isAsync with
      | false => exact Parse.statement_function false _
      | true => exact Parse.statement_function true _
  | importModule => exact fun rest _ => ⟨_, by simp, Parse.statement_importModule _ rest⟩
  | importNames => exact fun rest _ => ⟨_, by simp, Parse.statement_importNames _ _ rest⟩
  | exportDeclaration h ih =>
    intro rest hr
    rw [endsInBlock_cons (by simp)] at hr
    have hd := ih rest hr
    cases h with
    | @declaration _ _ _ isConstant => exact ⟨_, by simp, Parse.statement_exportDeclaration isConstant rfl hd⟩
  | exportFunction h ih =>
    intro rest _
    have hf := ih rest
    cases h with
    | @function _ _ _ _ isAsync =>
      refine ⟨rest, by simp, ?_⟩
      cases isAsync with
      | false => exact Parse.statement_exportFunction false rfl hf
      | true => exact Parse.statement_exportFunction true rfl hf
  | exportName => exact fun rest _ => ⟨_, by simp, Parse.statement_exportName _ rest⟩
  | blockStmt h ih =>
    intro rest _
    cases h
    exact ⟨rest, by simp, (Parse.statement_block _).trans (ih rest)⟩
  | exprStmt h ih =>
    intro rest hr
    exact ⟨_, by simp, Parse.statement_expr h.begins _ (ih rest hr) ((Node.isMissing_atFront _).trans h.present)⟩
  | noStatements => exact fun untilBrace rest hr => statements_closes hr
  | nextStatement semicolons h hn hs ih ihs => exact reads_nextStatement h hn hs ih ihs

end Written

/-! ## Tokens that stand anywhere -/

theorem map_toFront (ts : List Token) : ts.map Relining.toFront.token = atFront (ts.map (·.lexeme)) := by
  simp [Relining.toFront, atFront]

namespace Parse

/-- `expr` reads an expression back from all tokens that write it, up to its lines. -/
theorem expr_of_written {e : Node} {tokens : List Token} (h : Written (.expr e) (tokens.map (·.lexeme))) :
    (expr tokens).1.unlined = e.unlined ∧ (expr tokens).2 = [] := by
  have hread := h.reads [] .nil
  rw [List.append_nil, ← map_toFront, relined_expr] at hread
  obtain ⟨hnode, hleft⟩ := Prod.mk.inj hread
  have hlines := congrArg Node.unlined hnode
  rw [Node.unlined_relined] at hlines
  exact ⟨hlines.trans (Node.unlined_relined _ e), List.map_eq_nil_iff.1 hleft⟩

theorem statements_of_written {es : List Node} {tokens : List Token}
    (h : Written (.statements es) (tokens.map (·.lexeme))) :
    (statements false tokens).1.map Node.unlined = es.map Node.unlined ∧ (statements false tokens).2 = [] := by
  have hread := h.reads false [] rfl
  rw [List.append_nil, ← map_toFront, relined_statements, Node.relinedAll_eq_map] at hread
  obtain ⟨hnodes, hleft⟩ := Prod.mk.inj hread
  have hlines := congrArg (List.map Node.unlined) hnodes
  have hback : ∀ f, Node.unlined ∘ Node.relined f = Node.unlined := fun f => funext (Node.unlined_relined f)
  rw [List.map_map, hback, List.map_map] at hlines
  exact ⟨hlines.trans (congrArg (es.map ·) (hback _)), List.map_eq_nil_iff.1 hleft⟩

end Parse

end HindiScript
