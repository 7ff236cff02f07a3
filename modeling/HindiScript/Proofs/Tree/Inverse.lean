import HindiScript.Proofs.Tree.Reading

/-!
# Parsing inverts the grammar

`Stands` says which trees are programs of the grammar, without a word on how they are written: any statement
and any expression to any depth, with nothing missing but what may be left out. Every such program can be
written (`Stands.written`), and parsing gives it back from whatever tokens write it
(`parse_eq_of_written`).
-/

namespace HindiScript

open Lexeme Punct Keyword

/-! ## The trees of the grammar -/

/-- A place in a program. -/
inductive Place where
  | chain
  | expr
  | block
  | declaration
  | function
  | condition
  | alternate
  | statement
  | program

/-- The tree may stand in the place. -/
inductive Stands : Place → Node → Prop where
  | ident {line name} : Stands .chain (.ident line name)
  | call {line callee args} :
    Stands .chain callee → (∀ a ∈ args, Stands .expr a) → Stands .chain (.call line callee (some args))
  | member {line line' object name} :
    Stands .chain object → Stands .chain (.member line object (.ident line' name))
  | ofChain {e} : Stands .chain e → Stands .expr e
  | number {line} {value : Nat} : Stands .expr (.literal line (.number value))
  | string {line text} : Stands .expr (.literal line (.string text))
  | await {line e} : Stands .expr e → Stands .expr (.await line e)
  | binary {line symbol left right} :
    0 < precedence symbol → Stands .expr left → Stands .expr right →
    Stands .expr (.binary line symbol left right)
  | assign {line target value} :
    Stands .expr target → Stands .expr value → Stands .expr (.assign line target value)
  | arrow {line params body isAsync place} :
    (isAsync = false → params.length ≤ maxArrowParams) → place = .expr ∨ place = .block → Stands place body →
    Stands .expr (.arrow line (some params) body isAsync)
  | block {line body} : (∀ s ∈ body, Stands .statement s) → Stands .block (.block line body)
  | declaration {line name value kind} :
    kind = "let" ∨ kind = "const" → (value.isMissing = false → Stands .expr value) →
    Stands .declaration (.variableDecl line (some name) value kind)
  | function {line name params body isAsync} :
    Stands .block body → Stands .function (.functionDecl line (some name) (some params) body isAsync)
  | condition {line test consequent alternate} :
    Stands .expr test → Stands .block consequent → (alternate.isMissing = false → Stands .alternate alternate) →
    Stands .condition (.ifStmt line test consequent alternate)
  | elseIf {e} : Stands .condition e → Stands .alternate e
  | elseBlock {e} : Stands .block e → Stands .alternate e
  | ofDeclaration {e} : Stands .declaration e → Stands .statement e
  | ofFunction {e} : Stands .function e → Stands .statement e
  | ofCondition {e} : Stands .condition e → Stands .statement e
  | ofBlock {e} : Stands .block e → Stands .statement e
  | printStmt {line e} : Stands .expr e → Stands .statement (.printStmt line e)
  | whileStmt {line test body} :
    Stands .expr test → Stands .block body → Stands .statement (.whileStmt line test body)
  | forStmt {line init test update body place} :
    place = .declaration ∨ place = .expr → (init.isMissing = false → Stands place init) →
    (test.isMissing = false → Stands .expr test) → (update.isMissing = false → Stands .expr update) →
    Stands .block body → Stands .statement (.forStmt line init test update body)
  | returnStmt {line e} : (e.isMissing = false → Stands .expr e) → Stands .statement (.returnStmt line e)
  | breakStmt {line} : Stands .statement (.breakStmt line)
  | continueStmt {line} : Stands .statement (.continueStmt line)
  | importDecl {line source names} : Stands .statement (.importDecl line (some source) names)
  | exportDecl {line e place} :
    place = .declaration ∨ place = .function → Stands place e → Stands .statement (.exportDecl line e none)
  | exportName {line name} : Stands .statement (.exportDecl line .missing (some [name]))
  | exprStmt {line e} : Stands .expr e → Stands .statement (.exprStmt line e)
  | program {line body} : (∀ s ∈ body, Stands .statement s) → Stands .program (.program line body)

/-! ## Each of them can be written -/

/-- Some tokens write `φ`. -/
def Writable (φ : Phrase) : Prop := ∃ ls, Written φ ls

namespace Writable

variable {e : Node} {es : List Node}

/-- In parentheses an expression is the operand of any operator. -/
theorem operand (h : Writable (.expr e)) (level : Nat) : Writable (.operand level e) := by
  obtain ⟨ls, h⟩ := h
  exact ⟨_, h.parentheses.ofUnary⟩

theorem arguments (h : ∀ a ∈ es, Writable (.expr a)) : Writable (.arguments es) := by
  induction es with
  | nil => exact ⟨_, .noArguments⟩
  | cons a es ih =>
    obtain ⟨ls, ha⟩ := h a List.mem_cons_self
    obtain ⟨ms, hes⟩ := ih fun a ha => h a (List.mem_cons_of_mem _ ha)
    cases es with
    | nil => exact ⟨_, ha.lastArgument⟩
    | cons b es => exact ⟨_, ha.nextArgument hes⟩

theorem statements (h : ∀ s ∈ es, Writable (.statement s)) : Writable (.statements es) := by
  induction es with
  | nil => exact ⟨_, .noStatements⟩
  | cons s es ih =>
    obtain ⟨ls, hs⟩ := h s List.mem_cons_self
    obtain ⟨ms, hes⟩ := ih fun s hs => h s (List.mem_cons_of_mem _ hs)
    exact ⟨_, .nextStatement 1 hs (fun _ => Nat.one_pos) hes⟩

/-- What may be left out is left out where it is missing. -/
theorem optional (h : e.isMissing = false → Writable (.expr e)) : Writable (.optional e) := by
  cases e with
  | missing => exact ⟨_, .leftOut⟩
  | _ => obtain ⟨ls, h⟩ := h rfl; exact ⟨_, h.given⟩

theorem initializer (h : e.isMissing = false → Writable (.expr e)) : Writable (.initializer e) := by
  cases e with
  | missing => exact ⟨_, .noValue⟩
  | _ => obtain ⟨ls, h⟩ := h rfl; exact ⟨_, h.value⟩

theorem alternate (h : e.isMissing = false → Writable (.alternate e)) : Writable (.alternate e) := by
  cases e with
  | missing => exact ⟨_, .noAlternate⟩
  | _ => exact h rfl

end Writable

/-- What has to be writable for a tree in the place. A condition is written in two ways, at the start of a
statement and behind another condition. -/
def Place.Writable : Place → Node → Prop
  | chain, e => HindiScript.Writable (.chain e)
  | expr, e => HindiScript.Writable (.expr e)
  | block, e => HindiScript.Writable (.block e)
  | declaration, e => HindiScript.Writable (.declaration e)
  | function, e => HindiScript.Writable (.function e)
  | condition, e => HindiScript.Writable (.statement e) ∧ HindiScript.Writable (.alternate e)
  | alternate, e => HindiScript.Writable (.alternate e)
  | statement, e => HindiScript.Writable (.statement e)
  | program, e => HindiScript.Writable (.statements e.body)

theorem Stands.written {place : Place} {e : Node} (h : Stands place e) : place.Writable e := by
  induction h with
  | ident => exact ⟨_, .ident⟩
  | call _ _ ih iha =>
    obtain ⟨ls, hc⟩ := ih
    obtain ⟨ms, ha⟩ := Writable.arguments iha
    exact ⟨_, hc.call ha⟩
  | member _ ih => obtain ⟨ls, h⟩ := ih; exact ⟨_, h.member⟩
  | ofChain _ ih => obtain ⟨ls, h⟩ := ih; exact ⟨_, h.ofChain.ofUnary.ofOperand⟩
  | number => exact ⟨_, Written.number.ofUnary.ofOperand⟩
  | string => exact ⟨_, Written.string.ofUnary.ofOperand⟩
  | await _ ih => obtain ⟨ls, h⟩ := ih; exact ⟨_, h.parentheses.await.ofUnary.ofOperand⟩
  | binary hs _ _ ihl ihr =>
    obtain ⟨ls, hl⟩ := Writable.operand ihl _
    obtain ⟨ms, hr⟩ := Writable.operand ihr _
    exact ⟨_, .ofOperand (.binary hs hs hl hr)⟩
  | assign _ _ iht ihv =>
    obtain ⟨ls, ht⟩ := Writable.operand iht 1
    obtain ⟨ms, hv⟩ := ihv
    exact ⟨_, .assign ht hv⟩
  | arrow hn hplace _ ih =>
    rcases hplace with rfl | rfl <;> obtain ⟨ls, h⟩ := ih
    · exact ⟨_, .arrow hn (.arrowExpr h)⟩
    · exact ⟨_, .arrow hn (.arrowBlock h)⟩
  | block _ ih => obtain ⟨ls, h⟩ := Writable.statements ih; exact ⟨_, .block h⟩
  | declaration hkind _ ih =>
    obtain ⟨ls, h⟩ := Writable.initializer ih
    rcases hkind with rfl | rfl
    · exact ⟨_, .declaration false h⟩
    · exact ⟨_, .declaration true h⟩
  | function _ ih => obtain ⟨ls, h⟩ := ih; exact ⟨_, .function h⟩
  | condition _ _ _ iht ihc iha =>
    obtain ⟨ls, ht⟩ := iht
    obtain ⟨ms, hc⟩ := ihc
    obtain ⟨ns, ha⟩ := Writable.alternate iha
    exact ⟨⟨_, .ifStmt ht hc ha⟩, ⟨_, .elseIf ht hc ha⟩⟩
  | elseIf _ ih => exact ih.2
  | elseBlock _ ih => obtain ⟨ls, h⟩ := ih; exact ⟨_, .elseBlock h⟩
  | ofDeclaration _ ih => obtain ⟨ls, h⟩ := ih; exact ⟨_, .declarationStmt h⟩
  | ofFunction _ ih => obtain ⟨ls, h⟩ := ih; exact ⟨_, .functionStmt h⟩
  | ofCondition _ ih => exact ih.1
  | ofBlock _ ih => obtain ⟨ls, h⟩ := ih; exact ⟨_, .blockStmt h⟩
  | printStmt _ ih => obtain ⟨ls, h⟩ := ih; exact ⟨_, .printStmt h⟩
  | whileStmt _ _ iht ihb =>
    obtain ⟨ls, ht⟩ := iht
    obtain ⟨ms, hb⟩ := ihb
    exact ⟨_, .whileStmt ht hb⟩
  | @forStmt _ init _ _ _ place hplace _ _ _ _ ihi iht ihu ihb =>
    -- A missing start is written in one way only, whichever place it is missing from.
    have hi : Writable (.loopStart init) := by
      rcases hplace with rfl | rfl
      · cases init with
        | missing => exact ⟨_, .startOptional .leftOut⟩
        | _ => obtain ⟨ls, h⟩ := ihi rfl; exact ⟨_, .startDeclaration h⟩
      · obtain ⟨ls, h⟩ := Writable.optional ihi
        exact ⟨_, .startOptional h⟩
    obtain ⟨ks, hi⟩ := hi
    obtain ⟨ls, ht⟩ := Writable.optional iht
    obtain ⟨ms, hu⟩ := Writable.optional ihu
    obtain ⟨ns, hb⟩ := ihb
    exact ⟨_, .forStmt hi ht hu hb⟩
  | returnStmt _ ih => obtain ⟨ls, h⟩ := Writable.optional ih; exact ⟨_, .returnStmt h⟩
  | breakStmt => exact ⟨_, .breakStmt⟩
  | continueStmt => exact ⟨_, .continueStmt⟩
  | @importDecl _ _ names =>
    cases names with
    | none => exact ⟨_, .importModule⟩
    | some names => exact ⟨_, .importNames⟩
  | exportDecl hplace _ ih =>
    rcases hplace with rfl | rfl <;> obtain ⟨ls, h⟩ := ih
    · exact ⟨_, .exportDeclaration h⟩
    · exact ⟨_, .exportFunction h⟩
  | exportName => exact ⟨_, .exportName⟩
  | exprStmt _ ih => obtain ⟨ls, h⟩ := ih; exact ⟨_, .exprStmt h⟩
  | program _ ih => exact Writable.statements ih

/-! ## Parsing -/

/-- A program of the grammar (`Stands`) can be written, and `parse` gives the program back from the tokens that write
it, up to the lines, and leaves no token. -/
theorem parse_eq_of_written {p : Node} (hp : Stands .program p) :
    (∃ ls, Written (.statements p.body) ls) ∧
      ∀ tokens : List Token, Written (.statements p.body) (tokens.map (·.lexeme)) →
        (parse tokens).unlined = p.unlined ∧ (Parse.program tokens).2 = [] := by
  refine ⟨hp.written, fun tokens hw => ?_⟩
  cases hp with
  | @program line body =>
    obtain ⟨hnodes, hleft⟩ := Parse.statements_of_written hw
    refine ⟨?_, hleft⟩
    change Node.program none (Node.relinedAll _ _) = Node.program none (Node.relinedAll _ _)
    rw [Node.relinedAll_eq_map, Node.relinedAll_eq_map]
    exact congrArg (Node.program none) hnodes

/-- `karya f(a) { wapas;; } f = (a) => lao(a.b + 1);` with the lines that its tokens stand on. -/
theorem parse_eq_of_written_fetch :
    let body : List Node :=
      [.functionDecl none (some "f") (some ["a"]) (.block none [.returnStmt none .missing]) false,
        .exprStmt none (.assign none (.ident none "f") (.arrow none (some ["a"])
          (.call none (.ident none fetchName) (some [.binary none "+" (.member none (.ident none "a") (.ident none "b"))
            (.literal none (.number 1))])) false))]
    let tokens : List Token :=
      [⟨keyword karya, 1, 1⟩, ⟨ident "f", 1, 7⟩, ⟨punct parenOpen, 1, 8⟩, ⟨ident "a", 1, 9⟩,
        ⟨punct parenClose, 1, 10⟩, ⟨punct braceOpen, 1, 12⟩, ⟨keyword wapas, 2, 1⟩, ⟨punct semicolon, 2, 6⟩,
        ⟨punct semicolon, 2, 7⟩, ⟨punct braceClose, 3, 1⟩, ⟨ident "f", 4, 1⟩, ⟨op "=", 4, 3⟩,
        ⟨punct parenOpen, 4, 5⟩, ⟨ident "a", 4, 6⟩, ⟨punct parenClose, 4, 7⟩, ⟨op "=>", 4, 9⟩, ⟨keyword lao, 5, 3⟩,
        ⟨punct parenOpen, 5, 6⟩, ⟨ident "a", 5, 7⟩, ⟨punct dot, 5, 8⟩, ⟨ident "b", 5, 9⟩, ⟨op "+", 5, 11⟩,
        ⟨number 1, 5, 13⟩, ⟨punct parenClose, 5, 14⟩, ⟨punct semicolon, 5, 15⟩]
    Stands .program (.program none body) ∧ Written (.statements body) (tokens.map (·.lexeme)) ∧
      (parse tokens).unlined = (Node.program none body).unlined ∧ (Parse.program tokens).2 = [] := by
  intro body tokens
  have hsum : 0 < precedence "+" := by decide
  have hp : Stands .program (.program none body) := by
    refine .program (List.forall_mem_cons.2 ⟨.ofFunction (.function (.block ?_)), ?_⟩)
    · exact List.forall_mem_singleton.2 (.returnStmt nofun)
    · refine List.forall_mem_singleton.2 (.exprStmt (.assign (.ofChain .ident) (.arrow ?_ (.inl rfl) ?_)))
      · decide
      · refine .ofChain (.call .ident (List.forall_mem_singleton.2 ?_))
        exact .binary hsum (.ofChain (.member .ident)) .number
  have hfunction : Written (.statement body.head!) _ := .functionStmt (.function (.block
    (.nextStatement 2 (.returnStmt .leftOut) (fun _ => Nat.two_pos) .noStatements)))
  have hfetch : Written (.unary (.call none (.ident none fetchName) (some [.binary none "+"
      (.member none (.ident none "a") (.ident none "b")) (.literal none (.number 1))]))) _ :=
    .fetch (.lastArgument (.ofOperand (.binary hsum (by decide) (.ofUnary (.ofChain (.member .ident)))
      (.ofUnary .number))))
  have hassign : Written (.statement body.getLast!) _ := .exprStmt (.assign (.ofUnary (.ofChain .ident))
    (.arrow (by decide) (.arrowExpr (.ofOperand (.ofUnary hfetch)))))
  have hw : Written (.statements body) (tokens.map (·.lexeme)) :=
    .nextStatement 0 hfunction nofun (.nextStatement 1 hassign (fun _ => Nat.one_pos) .noStatements)
  exact ⟨hp, hw, (parse_eq_of_written hp).2 tokens hw⟩

end HindiScript
