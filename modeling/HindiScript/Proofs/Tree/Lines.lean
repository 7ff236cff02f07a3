import HindiScript.Tree.Grammar

/-!
# The lines of a tree

A node carries the line of its first token. `Node.relined` replaces the lines of a tree and `Node.unlined` leaves
them out, which is what "the same tree up to lines" means; a `Relining` moves tokens to other lines.
-/

namespace HindiScript

/-! ## Trees on other lines -/

namespace Node

mutual

/-- The tree with each line replaced by `f`. -/
def relined (f : Option Int → Option Int) : Node → Node
  | missing => missing
  | program line body => program (f line) (relinedAll f body)
  | variableDecl line name value kind => variableDecl (f line) name (value.relined f) kind
  | printStmt line value => printStmt (f line) (value.relined f)
  | ifStmt line test consequent alternate =>
    ifStmt (f line) (test.relined f) (consequent.relined f) (alternate.relined f)
  | whileStmt line test body => whileStmt (f line) (test.relined f) (body.relined f)
  | forStmt line init test update body =>
    forStmt (f line) (init.relined f) (test.relined f) (update.relined f) (body.relined f)
  | returnStmt line value => returnStmt (f line) (value.relined f)
  | breakStmt line => breakStmt (f line)
  | continueStmt line => continueStmt (f line)
  | block line body => block (f line) (relinedAll f body)
  | exprStmt line value => exprStmt (f line) (value.relined f)
  | functionDecl line name params body isAsync =>
    functionDecl (f line) name params (body.relined f) isAsync
  | importDecl line source names => importDecl (f line) source names
  | exportDecl line declaration names => exportDecl (f line) (declaration.relined f) names
  | binary line operator left right => binary (f line) operator (left.relined f) (right.relined f)
  | assign line target value => assign (f line) (target.relined f) (value.relined f)
  | await line value => await (f line) (value.relined f)
  | arrow line params body isAsync => arrow (f line) params (body.relined f) isAsync
  | call line callee none => call (f line) (callee.relined f) none
  | call line callee (some args) => call (f line) (callee.relined f) (some (relinedAll f args))
  | member line object property => member (f line) (object.relined f) (property.relined f)
  | literal line value => literal (f line) value
  | ident line name => ident (f line) name

def relinedAll (f : Option Int → Option Int) : List Node → List Node
  | [] => []
  | node :: rest => node.relined f :: relinedAll f rest

end

/-- The tree without its lines. Two trees are the same up to their lines when their `unlined` are. -/
def unlined (e : Node) : Node := e.relined fun _ => none

@[simp] theorem isMissing_relined (f : Option Int → Option Int) (e : Node) :
    (e.relined f).isMissing = e.isMissing := by
  cases e with
  | call line callee args => cases args <;> rfl
  | _ => rfl

theorem eq_missing {e : Node} (h : e.isMissing = true) : e = .missing := by
  cases e with
  | missing => rfl
  | _ => cases h

theorem relinedAll_eq_map (f : Option Int → Option Int) (nodes : List Node) :
    relinedAll f nodes = nodes.map (relined f) := by
  induction nodes with
  | nil => rfl
  | cons node rest ih => simp [relinedAll, ih]

mutual

theorem relined_relined (f g : Option Int → Option Int) (e : Node) :
    (e.relined f).relined g = e.relined (g ∘ f) := by
  cases e with
  | call line callee args =>
    cases args with
    | none => simp [relined, relined_relined f g callee]
    | some args => simp [relined, relined_relined f g callee, relinedAll_relinedAll f g args]
  | program line body | block line body => simp [relined, relinedAll_relinedAll f g body]
  | variableDecl line name value kind => simp [relined, relined_relined f g value]
  | printStmt line value | returnStmt line value | exprStmt line value | await line value =>
    simp [relined, relined_relined f g value]
  | ifStmt line test consequent alternate =>
    simp [relined, relined_relined f g test, relined_relined f g consequent, relined_relined f g alternate]
  | whileStmt line test body => simp [relined, relined_relined f g test, relined_relined f g body]
  | forStmt line init test update body =>
    simp [relined, relined_relined f g init, relined_relined f g test, relined_relined f g update,
      relined_relined f g body]
  | functionDecl line name params body isAsync => simp [relined, relined_relined f g body]
  | exportDecl line declaration names => simp [relined, relined_relined f g declaration]
  | binary line operator left right => simp [relined, relined_relined f g left, relined_relined f g right]
  | assign line target value => simp [relined, relined_relined f g target, relined_relined f g value]
  | arrow line params body isAsync => simp [relined, relined_relined f g body]
  | member line object property =>
    simp [relined, relined_relined f g object, relined_relined f g property]
  | _ => simp [relined]

theorem relinedAll_relinedAll (f g : Option Int → Option Int) (nodes : List Node) :
    relinedAll g (relinedAll f nodes) = relinedAll (g ∘ f) nodes := by
  cases nodes with
  | nil => rfl
  | cons node rest => simp [relinedAll, relined_relined f g node, relinedAll_relinedAll f g rest]

end

mutual

theorem relined_id (e : Node) : e.relined id = e := by
  cases e with
  | call line callee args =>
    cases args with
    | none => simp [relined, relined_id callee]
    | some args => simp [relined, relined_id callee, relinedAll_id args]
  | program line body | block line body => simp [relined, relinedAll_id body]
  | variableDecl line name value kind => simp [relined, relined_id value]
  | printStmt line value | returnStmt line value | exprStmt line value | await line value =>
    simp [relined, relined_id value]
  | ifStmt line test consequent alternate =>
    simp [relined, relined_id test, relined_id consequent, relined_id alternate]
  | whileStmt line test body => simp [relined, relined_id test, relined_id body]
  | forStmt line init test update body =>
    simp [relined, relined_id init, relined_id test, relined_id update, relined_id body]
  | functionDecl line name params body isAsync => simp [relined, relined_id body]
  | exportDecl line declaration names => simp [relined, relined_id declaration]
  | binary line operator left right => simp [relined, relined_id left, relined_id right]
  | assign line target value => simp [relined, relined_id target, relined_id value]
  | arrow line params body isAsync => simp [relined, relined_id body]
  | member line object property => simp [relined, relined_id object, relined_id property]
  | _ => simp [relined]

theorem relinedAll_id (nodes : List Node) : relinedAll id nodes = nodes := by
  cases nodes with
  | nil => rfl
  | cons node rest => simp [relinedAll, relined_id node, relinedAll_id rest]

end

@[simp] theorem unlined_relined (f : Option Int → Option Int) (e : Node) :
    (e.relined f).unlined = e.unlined :=
  relined_relined f _ e

end Node

/-! ## Tokens on other lines -/

/-- A way to move tokens to other lines, with what it does to the line that a node takes from a token. -/
structure Relining where
  token : Token → Token
  line : Option Int → Option Int
  lexeme_token (t : Token) : (token t).lexeme = t.lexeme
  line_some (t : Token) : line (some (t.line : Int)) = some ((token t).line : Int)
  line_none : line none = none

namespace Relining

/-- Every token stays where it is. -/
def stay : Relining := ⟨id, id, fun _ => rfl, fun _ => rfl, rfl⟩

/-- Every token moves to the start of the first line. -/
def toFront : Relining :=
  ⟨fun t => ⟨t.lexeme, 1, 1⟩, Option.map fun _ => 1, fun _ => rfl, fun _ => rfl, rfl⟩

variable (r : Relining)

@[simp] theorem map_lexeme (ts : List Token) :
    (ts.map r.token).head?.map (·.lexeme) = ts.head?.map (·.lexeme) := by
  cases ts with
  | nil => rfl
  | cons t rest => simp [r.lexeme_token]

theorem token_eq (l : Lexeme) (line column : Nat) :
    ∃ line' column', r.token ⟨l, line, column⟩ = ⟨l, line', column'⟩ ∧
      r.line (some (line : Int)) = some (line' : Int) := by
  have hl := r.lexeme_token ⟨l, line, column⟩
  have hs := r.line_some ⟨l, line, column⟩
  generalize r.token ⟨l, line, column⟩ = t at hl hs ⊢
  obtain ⟨l', line', column'⟩ := t
  simp only at hl
  exact ⟨line', column', by rw [hl], hs⟩

theorem line_head? (ts : List Token) :
    (ts.map r.token).head?.map (fun t => (t.line : Int)) = r.line (ts.head?.map fun t => (t.line : Int)) := by
  cases ts with
  | nil => exact r.line_none.symm
  | cons t rest => exact (r.line_some t).symm

end Relining

end HindiScript
