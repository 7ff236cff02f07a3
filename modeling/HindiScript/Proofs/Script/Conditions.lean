import HindiScript.Proofs.Tree.Productions
import HindiScript.Proofs.Tree.Termination
import HindiScript.Script.Text

/-!
# Conditions keep their clauses in order

A condition is read as a tree that nests to the right: each further clause stands in the place of the last block.
`Parse.clauses` reads the same tokens in a loop, clause after clause. Main statement: the text of the tree is that
of the clauses, one after another as they were read, and of the last block, if there is one
(`statementText_condition`).
-/

namespace HindiScript

open Lexeme Keyword HindiScript.Inner

/-! ## Clauses -/

/-- A test and a block, with the line of the word in front of them. -/
structure Clause where
  line : Option Int
  test : Node
  body : Node

namespace Clause

def text (c : Clause) : String := "if (" ++ c.test.exprText ++ ") " ++ c.body.blockText

/-- `clauses` as one tree, with the block `last` behind them. -/
def nest (clauses : List Clause) (last : Node) : Node :=
  clauses.foldr (fun c alternate => .ifStmt c.line c.test c.body alternate) last

end Clause

namespace Parse

/-- The word that starts a clause, a test and a block. -/
def clause : Parse Clause := do
  let line ← takeLine
  let test ← expr
  let body ← block
  return ⟨line, test, body⟩

theorem takes_clause : Takes clause := by
  have hexpr : Shrinks expr := (takesOrLeaves_enough Grammar.takesOrLeaves_expr).shrinks
  have hblock : Shrinks block := (takesOrLeaves_enough Grammar.takesOrLeaves_block).shrinks
  exact takes_takeLine.bind fun _ => hexpr.bind fun _ => hblock.bind fun _ => Shrinks.pure _

/-- The clauses that start with `nahitoh`, one after another. -/
def elseIfs : List Token → List Clause × List Token
  | [] => ([], [])
  | tok :: rest =>
    if tok.lexeme = keyword nahitoh then
      let read := clause (tok :: rest)
      let more := elseIfs read.2
      (read.1 :: more.1, more.2)
    else ([], tok :: rest)
termination_by ts => ts.length
decreasing_by exact Nat.lt_succ_of_le (takes_clause (tok :: rest)).length_le

/-- `warna` and the last block. -/
def lastBlock : Parse Node := do
  if ← accept (keyword warna) then block else return .missing

/-- The clauses of a condition, clause after clause, and its last block. -/
def clauses : Parse (List Clause × Node) := do
  let first ← clause
  let more ← elseIfs
  let last ← lastBlock
  return (first :: more, last)

/-! ## Reading clauses -/

theorem lastBlock_other {tok : Token} (h : tok.lexeme ≠ keyword warna) (rest : List Token) :
    lastBlock (tok :: rest) = (.missing, tok :: rest) := by
  simp [lastBlock, accept_cons, h]

/-- `Parse.alternative` reads behind the first block what `elseIfs` and `lastBlock` read, with the clauses nested. -/
theorem alternative_eq_nest (ts : List Token) :
    alternative ts = (Clause.nest (elseIfs ts).1 (lastBlock (elseIfs ts).2).1, (lastBlock (elseIfs ts).2).2) := by
  fun_induction elseIfs ts with
  | case1 => rfl
  | case2 tok rest h read more ih =>
    obtain ⟨l, line, column⟩ := tok
    obtain rfl : l = keyword nahitoh := h
    exact alternative_elseIf rfl rfl ih
  | case3 tok rest h =>
    by_cases hlast : tok.lexeme = keyword warna
    · obtain ⟨l, line, column⟩ := tok
      obtain rfl : l = keyword warna := hlast
      exact alternative_else rfl
    · rw [lastBlock_other hlast]
      exact alternative_other h hlast rest

theorem ifStatement_eq : enough Grammar.ifStatement = Grammar.ifStatement readers :=
  enough_eq Node.relined_id _ fun _ h => Grammar.follows_ifStatement h le_rfl

/-- A condition is read as `clauses` reads it, with the clauses nested. -/
theorem ifStatement_eq_nest (ts : List Token) :
    enough Grammar.ifStatement ts = (Clause.nest (clauses ts).1.1 (clauses ts).1.2, (clauses ts).2) := by
  have hblock : Grammar.block readers = block := block_eq.symm
  rw [ifStatement_eq]
  simp only [Grammar.ifStatement, bind_apply, hblock, readers_expr, readers_alternative, alternative_eq_nest]
  rfl

/-- What is read after `warna` is a block, or nothing. -/
theorem lastBlock_cases (ts : List Token) :
    (lastBlock ts).1 = .missing ∨ ∃ line body, (lastBlock ts).1 = .block line body := by
  have hblock (us : List Token) : (block us).1 = .missing ∨ ∃ line body, (block us).1 = .block line body := by
    simp only [block_eq, Grammar.block, bind_apply]
    split
    · exact .inr ⟨_, _, rfl⟩
    · exact .inl rfl
  simp only [lastBlock, bind_apply]
  split
  · exact hblock _
  · exact .inl rfl

end Parse

/-! ## The text of clauses -/

namespace Clause

/-- What is written for the last block. -/
def lastText (last : Node) : String := if last.isMissing then "" else " else " ++ last.blockText

variable {last : Node} (h : last = .missing ∨ ∃ line body, last = .block line body)

include h in
theorem asAlternate_last : last.asAlternate last.text = lastText last := by
  rcases h with rfl | ⟨line, body, rfl⟩ <;> rfl

include h in
theorem text_nest (c : Clause) (more : List Clause) :
    (nest (c :: more) last).text = " else ".intercalate ((c :: more).map text) ++ lastText last := by
  induction more generalizing c with
  | nil =>
    rw [List.map_singleton, String.intercalate_singleton, ← asAlternate_last h]
    rfl
  | cons d more ih =>
    -- The tree of the other clauses is a condition, and so stands as it is behind `else`.
    have hstep : (nest (c :: d :: more) last).text = c.text ++ (" else " ++ (nest (d :: more) last).text) := rfl
    rw [hstep, ih]
    simp only [List.map_cons, String.intercalate_cons_cons, String.append_assoc]

end Clause

/-- A condition that is read from tokens is written clause by clause, in the order in which `clauses` reads tests and
blocks, and the last block is written if and only if one was read. -/
theorem statementText_condition (line column : Nat) (rest : List Token) :
    let tokens : List Token := ⟨keyword agar, line, column⟩ :: rest
    ∃ clauses last left e, Parse.clauses tokens = ((clauses, last), left) ∧
      enough Grammar.ifStatement tokens = (e, left) ∧ Parse.statement tokens = (e, left) ∧
      e.statementText = " else ".intercalate (clauses.map Clause.text) ++
        if last.isMissing then "" else " else " ++ last.blockText := by
  intro tokens
  have hread := Parse.ifStatement_eq_nest tokens
  have hstatement : Parse.statement tokens = enough Grammar.ifStatement tokens := by
    rw [Parse.statement_eq, Parse.ifStatement_eq]
    rfl
  refine ⟨_, _, _, _, rfl, hread, hstatement.trans hread, ?_⟩
  exact Clause.text_nest (Parse.lastBlock_cases _) (Parse.clause tokens).1 _

end HindiScript
