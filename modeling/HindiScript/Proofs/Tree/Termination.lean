import HindiScript.Proofs.Tree.Relining

/-!
# Reading ends

Reading works on any tokens. The rules call one another in circles, and no circle is entered again before a token is
taken: tied together to a depth of more than the number of tokens, they never ask for what lies below that depth
(`Rule.reads_unrolled`). So each rule ends; it leaves an end of its tokens, those that give a node have taken a
token, and a program leaves none (`reading_ends`).
-/

namespace HindiScript

open Parse

/-! ## Rules -/

/-- A rule of the grammar, with what it is given besides tokens. -/
inductive Rule where
  -- Programs and blocks
  | statements (untilBrace : Bool)
  | statement
  | block
  -- Expressions
  | expr
  | operand (floor : Int)
  | operators (floor : Int) (left : Node)
  | unary
  | primary
  | chain (head : Node)
  | fetchCall
  | arrowFunction (line : Option Int) (isAsync : Bool)
  | params
  | arguments
  -- Statements that start with a keyword
  | declaration
  | variableStatement
  | printStatement
  | ifStatement
  | alternative
  | whileStatement
  | forStatement
  | returnStatement
  | breakStatement
  | continueStatement
  | functionDeclaration
  | importStatement
  | exportStatement

namespace Rule

def Value : Rule → Type
  | statements _ | arguments => List Node
  | params => List String
  | _ => Node

/-- The reader of a rule, over the readers `inner` for the inner parts. -/
def reads (inner : Inner) : (rule : Rule) → Parse rule.Value
  | statements untilBrace => Grammar.statements inner untilBrace
  | statement => Grammar.statement inner
  | block => Grammar.block inner
  | expr => Grammar.expr inner
  | operand floor => Grammar.operand inner floor
  | operators floor left => Grammar.operators inner floor left
  | unary => Grammar.unary inner
  | primary => Grammar.primary inner
  | chain head => Grammar.chain inner head
  | fetchCall => Grammar.fetchCall inner
  | arrowFunction line isAsync => Grammar.arrowFunction inner line isAsync
  | params => Parse.params
  | arguments => Grammar.arguments inner
  | declaration => Grammar.declaration inner
  | variableStatement => Grammar.variableStatement inner
  | printStatement => Grammar.printStatement inner
  | ifStatement => Grammar.ifStatement inner
  | alternative => Grammar.alternative inner
  | whileStatement => Grammar.whileStatement inner
  | forStatement => Grammar.forStatement inner
  | returnStatement => Grammar.returnStatement inner
  | breakStatement => Grammar.breakStatement
  | continueStatement => Grammar.continueStatement
  | functionDeclaration => Grammar.functionDeclaration inner
  | importStatement => Grammar.importStatement
  | exportStatement => Grammar.exportStatement inner

/-- The reader of a rule, with `enough` inner readers for its tokens. -/
def read (rule : Rule) : Parse rule.Value := Inner.enough fun inner => rule.reads inner

theorem shrinks_reads {inner : Inner} (h : inner.Sound) (rule : Rule) : Shrinks (rule.reads inner) := by
  cases rule with
  | statements untilBrace => exact Grammar.shrinks_statements h untilBrace
  | statement => exact (Grammar.takesOrLeaves_statement h).shrinks
  | block => exact (Grammar.takesOrLeaves_block h).shrinks
  | expr => exact (Grammar.takesOrLeaves_expr h).shrinks
  | operand floor => exact (Grammar.takesOrLeaves_operand h floor).shrinks
  | operators floor left => exact Grammar.shrinks_operators h floor left
  | unary => exact (Grammar.takesOrLeaves_unary h).shrinks
  | primary => exact (Grammar.takesOrLeaves_primary h).shrinks
  | chain head => exact Grammar.shrinks_chain h head
  | fetchCall => exact (Grammar.takes_fetchCall h).shrinks
  | arrowFunction line isAsync => exact Grammar.shrinks_arrowFunction h line isAsync
  | params => exact shrinks_params
  | arguments => exact Grammar.shrinks_arguments h
  | declaration => exact (Grammar.takes_declaration h).shrinks
  | variableStatement => exact (Grammar.takes_variableStatement h).shrinks
  | printStatement => exact (Grammar.takes_printStatement h).shrinks
  | ifStatement => exact (Grammar.takes_ifStatement h).shrinks
  | alternative => exact Grammar.shrinks_alternative h
  | whileStatement => exact (Grammar.takes_whileStatement h).shrinks
  | forStatement => exact (Grammar.takes_forStatement h).shrinks
  | returnStatement => exact (Grammar.takes_returnStatement h).shrinks
  | breakStatement => exact Grammar.takes_breakStatement.shrinks
  | continueStatement => exact Grammar.takes_continueStatement.shrinks
  | functionDeclaration => exact Grammar.shrinks_functionDeclaration h
  | importStatement => exact Grammar.takes_importStatement.shrinks
  | exportStatement => exact (Grammar.takes_exportStatement h).shrinks

/-- Inner parts that agree on short lists make rules that agree on lists with one token more. -/
theorem reads_eq_of_follows {a b : Inner} {n : Nat} (h : a.Follows .stay n b) (ha : a.Sound) (rule : Rule)
    {ts : List Token} (hts : ts.length ≤ n + 1) : rule.reads b ts = rule.reads a ts := by
  have node {p q : Parse Node} (hpq : Follows .stay (Node.relined id) (n + 1) (n + 1) p q) : q ts = p ts :=
    hpq.eq_of_stay Node.relined_id hts
  have nodes {p q : Parse (List Node)} (hpq : Follows .stay (Node.relinedAll id) (n + 1) (n + 1) p q) : q ts = p ts :=
    hpq.eq_of_stay Node.relinedAll_id hts
  cases rule with
  | statements untilBrace => exact nodes (Grammar.follows_statements h ha le_rfl untilBrace)
  | statement => exact node (Grammar.follows_statement h le_rfl)
  | block => exact node (Grammar.follows_block h le_rfl)
  | expr => exact node (Grammar.follows_expr h le_rfl)
  | operand floor => exact node (Grammar.follows_operand h le_rfl floor)
  | operators floor left =>
    have := Grammar.follows_operators h le_rfl floor left
    rw [show left.relined Relining.stay.line = left from Node.relined_id left] at this
    exact node this
  | unary => exact node (Grammar.follows_unary h le_rfl)
  | primary => exact node (Grammar.follows_primary h le_rfl)
  | chain head =>
    have := Grammar.follows_chain h le_rfl head
    rw [show head.relined Relining.stay.line = head from Node.relined_id head] at this
    exact node this
  | fetchCall => exact node (Grammar.follows_fetchCall h le_rfl)
  | arrowFunction line isAsync => exact node (Grammar.follows_arrowFunction h le_rfl line isAsync)
  | arguments => exact nodes (Grammar.follows_arguments h ha le_rfl)
  | declaration => exact node (Grammar.follows_declaration h le_rfl)
  | variableStatement => exact node (Grammar.follows_variableStatement h le_rfl)
  | printStatement => exact node (Grammar.follows_printStatement h le_rfl)
  | ifStatement => exact node (Grammar.follows_ifStatement h le_rfl)
  | alternative => exact node (Grammar.follows_alternative h le_rfl)
  | whileStatement => exact node (Grammar.follows_whileStatement h le_rfl)
  | forStatement => exact node (Grammar.follows_forStatement h le_rfl)
  | returnStatement => exact node (Grammar.follows_returnStatement h le_rfl)
  | functionDeclaration => exact node (Grammar.follows_functionDeclaration h le_rfl)
  | exportStatement => exact node (Grammar.follows_exportStatement h le_rfl)
  | params | breakStatement | continueStatement | importStatement => rfl

end Rule

/-! ## Depth -/

namespace Inner

/-- The rules tied together to a `depth`. What lies `below` it is read in whatever way is given. -/
def unrolled (below : Inner) (depth : Nat) : Inner := depth.repeat step below

/-- A list with no tokens asks for nothing below the first step of the rules. -/
theorem follows_step_zero (a b : Inner) : a.step.Follows .stay 0 b.step where
  statements _ _ hm := .of_nil hm rfl rfl
  expr hm := .of_nil hm rfl rfl
  operand _ _ hm := .of_nil hm rfl rfl
  operators _ _ _ hm := .of_nil hm rfl rfl
  arguments hm := .of_nil hm rfl rfl
  chain _ _ hm := .of_nil hm rfl rfl
  alternative hm := .of_nil hm rfl rfl

theorem follows_unrolled (below : Inner) (n : Nat) : (upTo (n + 1)).Follows .stay n (below.unrolled (n + 1)) := by
  induction n with
  | zero => exact follows_step_zero ofNone below
  | succ n ih => exact ih.step (sound_upTo (n + 1))

end Inner

/-- A rule that is tied to a `depth` of more than the number of its tokens never asks for what lies `below`. -/
theorem Rule.reads_unrolled (rule : Rule) (below : Inner) {depth : Nat} {ts : List Token} (h : ts.length < depth) :
    rule.reads (below.unrolled depth) ts = rule.read ts := by
  obtain ⟨n, rfl⟩ : ∃ n, depth = n + 1 := ⟨depth - 1, by omega⟩
  calc rule.reads (below.unrolled (n + 1)) ts
      = rule.reads (.upTo (n + 1)) ts :=
        reads_eq_of_follows (Inner.follows_unrolled below n) (Inner.sound_upTo (n + 1)) rule (by omega)
    _ = rule.reads (.upTo ts.length) ts :=
        reads_eq_of_follows (Inner.follows_upTo .stay le_rfl (by omega)) (Inner.sound_upTo _) rule (Nat.le_succ _)

/-! ## Programs -/

namespace Parse

theorem takesOrLeaves_enough {rule : Inner → Parse Node} (h : ∀ {inner}, inner.Sound → TakesOrLeaves (rule inner)) :
    TakesOrLeaves (Inner.enough rule) :=
  fun ts => h (Inner.sound_upTo ts.length) ts

/-- `statements` up to the end leave no token: where none can be read, a token is passed over. -/
theorem statements_false_left (ts : List Token) : (statements false ts).2 = [] := by
  induction hn : ts.length using Nat.strong_induction_on generalizing ts with
  | _ n ih =>
    subst hn
    have hread : TakesOrLeaves statement := takesOrLeaves_enough Grammar.takesOrLeaves_statement
    have hless {left : List Token} (hl : left.length < ts.length) : (statements false left).2 = [] := ih _ hl left rfl
    cases ts with
    | nil => rfl
    | cons tok rest =>
      have hlength := (hread.shrinks (tok :: rest)).length_le
      rw [statements_eq, Grammar.statements_cons, ← statement_eq]
      simp only [Bool.false_and, Bool.false_eq_true, if_false, Inner.readers_statements]
      split
      · apply hless
        split
        · exact Nat.lt_succ_self _
        · omega
      next hm => exact hless (hread.length_lt (by simpa using hm))

end Parse

/-- On every list of tokens each `Rule` ends and leaves an end of the list, whatever lies `below` the depth of its
tokens. A statement, a block and an expression of any kind have taken a token when they give a node. The whole list
makes a program, with no token left. -/
theorem reading_ends (ts : List Token) :
    (∀ rule : Rule, (rule.read ts).2 <:+ ts ∧
      ∀ below depth, ts.length < depth → rule.reads (Inner.unrolled below depth) ts = rule.read ts) ∧
    (∀ floor, ∀ p ∈ [statement, block, expr, operand floor, unary, primary],
      (p ts).1 ≠ .missing → (p ts).2.length < ts.length) ∧
    ∃ body, Parse.program ts = (.program none body, []) := by
  refine ⟨fun rule => ⟨Rule.shrinks_reads (Inner.sound_upTo _) rule ts, fun below depth => rule.reads_unrolled below⟩,
    fun floor p hp hnode => ?_, (statements false ts).1, ?_⟩
  · have hread : TakesOrLeaves p := by
      simp only [List.mem_cons, List.not_mem_nil, or_false] at hp
      rcases hp with rfl | rfl | rfl | rfl | rfl | rfl
      · exact takesOrLeaves_enough Grammar.takesOrLeaves_statement
      · exact takesOrLeaves_enough Grammar.takesOrLeaves_block
      · exact takesOrLeaves_enough Grammar.takesOrLeaves_expr
      · exact takesOrLeaves_enough fun h => Grammar.takesOrLeaves_operand h floor
      · exact takesOrLeaves_enough Grammar.takesOrLeaves_unary
      · exact takesOrLeaves_enough Grammar.takesOrLeaves_primary
    refine hread.length_lt ?_
    by_contra hm
    exact hnode (Node.eq_missing (by simpa using hm))
  · rw [Parse.program, bind_apply, statements_false_left, pure_apply]

end HindiScript
