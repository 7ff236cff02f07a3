import HindiScript.Proofs.Tree.Written

/-!
# Readers on the tokens they are for

One lemma for each production of the grammar: what the reader gives for tokens that begin as the production
does, when the readers of its parts give theirs. The tokens stand at the front here (`atFront`), but for the
productions that are also used where they may stand anywhere.
-/

namespace HindiScript

open Lexeme Punct Keyword

/-! ## Tokens and trees at the front -/

/-- The tokens, all at the start of the first line. -/
def atFront (ls : List Lexeme) : List Token := ls.map fun l => ⟨l, 1, 1⟩

@[simp] theorem atFront_nil : atFront [] = [] := rfl

@[simp] theorem atFront_cons (l : Lexeme) (ls : List Lexeme) : atFront (l :: ls) = ⟨l, 1, 1⟩ :: atFront ls := rfl

@[simp] theorem atFront_append (ls ms : List Lexeme) : atFront (ls ++ ms) = atFront ls ++ atFront ms :=
  List.map_append

/-- The tree, with every node on the first line. -/
def Node.atFront (e : Node) : Node := e.relined fun _ => some 1

/-! ## What may follow a phrase -/

/-- The token carries on an expression whose outer operators bind at least as tightly as `level`. -/
def Lexeme.carriesOn (level : Nat) : Lexeme → Bool
  | op symbol => symbol = "=>" || level < precedence symbol
  | punct parenOpen | punct dot => true
  | _ => false

/-- The token may stand behind an expression or a statement. Where these end in a block, nearly all may. -/
def Lexeme.mayFollow (afterBlock : Bool) : Lexeme → Bool
  | punct parenClose | punct braceOpen | punct braceClose | punct semicolon | punct comma => true
  | op _ | keyword nahitoh | keyword warna => false
  | _ => afterBlock

/-- The tokens do not carry on an expression of `level`. -/
def Fits (level : Nat) (rest : List Token) : Prop := ∀ tok ∈ rest.head?, tok.lexeme.carriesOn level = false

/-- An expression or a statement ends before `rest`. -/
def Ends (afterBlock : Bool) (rest : List Token) : Prop :=
  ∀ tok ∈ rest.head?, tok.lexeme.mayFollow afterBlock = true

theorem Fits.cons {level : Nat} {tok : Token} (h : tok.lexeme.carriesOn level = false) (rest : List Token) :
    Fits level (tok :: rest) := by
  rintro _ ⟨⟩
  exact h

theorem Ends.cons {afterBlock : Bool} {tok : Token} (h : tok.lexeme.mayFollow afterBlock = true)
    (rest : List Token) : Ends afterBlock (tok :: rest) := by
  rintro _ ⟨⟩
  exact h

theorem Ends.nil {afterBlock : Bool} : Ends afterBlock [] := by
  rintro _ ⟨⟩

theorem Fits.mono {level level' : Nat} {rest : List Token} (h : Fits level rest) (hl : level ≤ level') :
    Fits level' rest := by
  intro tok htok
  have := h tok htok
  unfold carriesOn at *
  split <;> simp_all
  omega

theorem Ends.fits {rest : List Token} (h : Ends false rest) (level : Nat) : Fits level rest := by
  intro tok htok
  have := h tok htok
  unfold mayFollow at this
  unfold carriesOn
  split <;> simp_all

theorem Ends.afterBlock {b : Bool} {rest : List Token} (h : Ends b rest) : Ends true rest := by
  intro tok htok
  have := h tok htok
  unfold mayFollow at *
  split <;> simp_all

namespace Parse

open HindiScript.Inner

variable {e left right : Node} {es : List Node} {rest X : List Token} {l : Lexeme} {b : Bool} {line column : Nat}

/-! ## Calls, members and arguments -/

theorem unary_ident (name : String) (rest : List Token) :
    unary (⟨ident name, line, column⟩ :: rest) = chain (.ident (some (line : Int)) name) rest := by
  rw [unary_eq, chain_eq]
  rfl

theorem chain_call (h : arguments X = (es, rest)) :
    chain e (⟨punct parenOpen, 1, 1⟩ :: X) = chain (.call (some 1) e (some es)) rest := by
  rw [congrFun (chain_eq e)]
  change chain (.call (some 1) e (some (arguments X).1)) (arguments X).2 = _
  rw [h]

theorem chain_member (name : String) (rest : List Token) :
    chain e (⟨punct dot, 1, 1⟩ :: ⟨ident name, 1, 1⟩ :: rest) =
      chain (.member (some 1) e (.ident (some 1) name)) rest := by
  rw [congrFun (chain_eq e)]
  rfl

theorem chain_fits {level : Nat} (h : Fits level rest) : chain e rest = (e, rest) := by
  rw [chain_eq]
  rcases rest with _ | ⟨⟨l, line, column⟩, rest⟩
  · rfl
  have hl : l.carriesOn level = false := h _ rfl
  cases l with
  | punct mark =>
    cases mark with
    | parenOpen | dot => cases hl
    | _ => rfl
  | _ => rfl

theorem arguments_close (rest : List Token) : arguments (⟨punct parenClose, 1, 1⟩ :: rest) = ([], rest) := by
  rw [arguments_eq]
  rfl

theorem arguments_expr {ls : List Lexeme} (hl : startsExpr ls = true) (X : List Token)
    (h : expr (atFront ls ++ X) = (e, rest)) (he : e.isMissing = false) :
    arguments (atFront ls ++ X) =
      (e :: (arguments (accept (punct comma) rest).2).1, (arguments (accept (punct comma) rest).2).2) := by
  have hfirst : arguments (atFront ls ++ X) = Grammar.behindArgument readers e rest := by
    rw [arguments_eq]
    unfold startsExpr at hl
    split at hl
    case h_8 => cases hl
    all_goals
      rw [expr_eq] at h
      simp only [Grammar.arguments, bind_apply, atFront_cons, List.cons_append, front?_cons]
      simp only [atFront_cons, List.cons_append] at h
      rw [h]
  rw [hfirst]
  simp [Grammar.behindArgument, he]

/-! ## What no operator breaks up -/

theorem unary_number (value : Nat) (rest : List Token) :
    unary (⟨number value, line, column⟩ :: rest) = (.literal (some (line : Int)) (.number value), rest) := by
  rw [unary_eq]
  rfl

theorem unary_string (text : String) (rest : List Token) :
    unary (⟨string text, line, column⟩ :: rest) = (.literal (some (line : Int)) (.string text), rest) := by
  rw [unary_eq]
  rfl

theorem unary_fetch (h : arguments X = (es, rest)) :
    unary (⟨keyword lao, 1, 1⟩ :: ⟨punct parenOpen, 1, 1⟩ :: X) =
      (.call (some 1) (.ident (some 1) fetchName) (some es), rest) := by
  rw [unary_eq]
  change (Node.call (some 1) (.ident (some 1) fetchName) (some (arguments X).1), (arguments X).2) = _
  rw [h]

theorem unary_await (h : operand maxPrecedence X = (e, rest)) :
    unary (⟨keyword pratiksha, 1, 1⟩ :: X) = (.await (some 1) e, rest) := by
  rw [unary_eq]
  change (Node.await (some 1) (operand maxPrecedence X).1, (operand maxPrecedence X).2) = _
  rw [h]

theorem unary_parenthesized (h : ∀ n, namesThenArrow n X = false)
    (he : expr X = (e, ⟨punct parenClose, 1, 1⟩ :: rest)) :
    unary (⟨punct parenOpen, 1, 1⟩ :: X) = (e, rest) := by
  rw [unary_eq]
  change Grammar.parenthesized readers (some 1) (⟨punct parenOpen, 1, 1⟩ :: X) = _
  simp [Grammar.parenthesized, arrowAhead, h, he, accept_cons]

/-! ## Operators and assignments -/

theorem operand_of_unary (floor : Int) (h : unary X = (e, rest)) (he : e.isMissing = false) :
    operand floor X = operators floor e rest := by
  rw [unary_eq] at h
  rw [operand_eq, operators_eq]
  simp [Grammar.operand, h, he]

theorem operators_op {floor : Int} {symbol : String} (hs : floor < precedence symbol)
    (h : operand (precedence symbol) X = (right, rest)) :
    operators floor left (⟨op symbol, line, column⟩ :: X) =
      operators floor (.binary (some (line : Int)) symbol left right) rest := by
  rw [congrFun (operators_eq floor left)]
  simp [Grammar.operators, Int.not_le.2 hs, h]

/-- `operators` leaves an operator that does not bind more tightly than `floor`. -/
theorem operators_looser {floor : Int} {symbol : String} (hs : precedence symbol ≤ floor) (X : List Token) :
    operators floor left (⟨op symbol, line, column⟩ :: X) = (left, ⟨op symbol, line, column⟩ :: X) := by
  rw [operators_eq]
  simp [Grammar.operators, hs]

theorem operators_fits {level floor : Nat} (hl : level ≤ floor) (h : Fits level rest) :
    operators floor left rest = (left, rest) := by
  rcases rest with _ | ⟨⟨l, line, column⟩, rest⟩
  · rfl
  cases l with
  | op symbol =>
    have hs : (decide (symbol = "=>") || decide (level < precedence symbol)) = false := h _ rfl
    exact operators_looser (by simp at hs; omega) rest
  | _ => rw [operators_eq]; rfl

theorem operators_ends {floor : Int} (h : Ends b rest) : operators floor left rest = (left, rest) := by
  rw [operators_eq]
  rcases rest with _ | ⟨⟨l, line, column⟩, rest⟩
  · rfl
  cases l with
  | op symbol => cases (h _ rfl : (op symbol).mayFollow b = true)
  | _ => rfl

theorem expr_of_operand (h : operand 0 X = (e, rest)) (he : e.isMissing = false) (hr : Ends b rest) :
    expr X = (e, rest) := by
  have hs : (sees (op "=") rest).1 = false := by
    rcases rest with _ | ⟨⟨l, line, column⟩, rest⟩
    · rfl
    have hl : l.mayFollow b = true := hr _ rfl
    cases l with
    | op symbol => cases hl
    | _ => rfl
  rw [operand_eq] at h
  rw [expr_eq]
  simp only [Grammar.expr, bind_apply, h, he, hs, Bool.false_eq_true, if_false]
  rfl

theorem expr_assign {Y : List Token} (h : operand 0 X = (left, ⟨op "=", 1, 1⟩ :: Y))
    (he : left.isMissing = false) (hv : expr Y = (e, rest)) : expr X = (.assign (some 1) left e, rest) := by
  rw [operand_eq] at h
  rw [expr_eq]
  simp [Grammar.expr, h, he, hv]

/-- Where no expression begins, none is read. -/
theorem expr_ends (h : Ends false rest) : expr rest = (.missing, rest) := by
  rw [expr_eq]
  rcases rest with _ | ⟨⟨l, line, column⟩, rest⟩
  · rfl
  have hl : l.mayFollow false = true := h _ rfl
  cases l with
  | punct mark =>
    cases mark with
    | parenOpen | dot => cases hl
    | _ => rfl
  | keyword word => cases word <;> cases hl
  | _ => cases hl

/-! ## Names and arrows -/

theorem commaSeparated_cons (n m : String) (names : List String) :
    commaSeparated (n :: m :: names) = ident n :: punct comma :: commaSeparated (m :: names) := by
  simp [commaSeparated]

theorem paramNames_commaSeparated (names : List String) (rest : List Token) :
    paramNames (atFront (commaSeparated names) ++ ⟨punct parenClose, 1, 1⟩ :: rest) =
      (names, ⟨punct parenClose, 1, 1⟩ :: rest) := by
  induction names with
  | nil => simp [commaSeparated, paramNames]
  | cons n names ih =>
    cases names with
    | nil => simp [commaSeparated, paramNames]
    | cons m names =>
      rw [commaSeparated_cons, atFront_cons, atFront_cons, List.cons_append, List.cons_append, paramNames]
      simp [ih]

theorem params_parameters (names : List String) (rest : List Token) :
    params (atFront (parameters names) ++ rest) = (names, rest) := by
  simp [params, parameters, accept_cons, paramNames_commaSeparated]

theorem importNames_commaSeparated (names : List String) (rest : List Token) :
    importNames (atFront (commaSeparated names) ++ ⟨punct braceClose, 1, 1⟩ :: rest) =
      (names, ⟨punct braceClose, 1, 1⟩ :: rest) := by
  induction names with
  | nil => simp [commaSeparated, importNames]
  | cons n names ih =>
    cases names with
    | nil => simp [commaSeparated, importNames]
    | cons m names =>
      rw [commaSeparated_cons, atFront_cons, atFront_cons, List.cons_append, List.cons_append]
      simp [importNames, ih]

/-- The names of a short list are passed over on the way to the arrow. -/
theorem namesThenArrow_commaSeparated {n : Nat} (names : List String) (h : 2 * names.length < n)
    (rest : List Token) :
    namesThenArrow n (atFront (commaSeparated names ++ [punct parenClose, op "=>"]) ++ rest) = true := by
  induction names generalizing n with
  | nil =>
    obtain ⟨n, rfl⟩ : ∃ i, n = i + 1 := ⟨n - 1, by omega⟩
    simp [commaSeparated, namesThenArrow]
  | cons name names ih =>
    -- A name and the comma behind it take two of the tokens that are looked at.
    obtain ⟨n, rfl⟩ : ∃ i, n = i + 2 := ⟨n - 2, by rw [List.length_cons] at h; omega⟩
    cases names with
    | nil => simp [commaSeparated, namesThenArrow]
    | cons m names =>
      have := ih (n := n) (by simp only [List.length_cons] at h ⊢; omega)
      rw [commaSeparated_cons]
      simpa [namesThenArrow] using this

theorem arrowFunction_parameters (line : Option Int) (isAsync : Bool) (names : List String)
    (h : Grammar.arrowBody readers X = (e, rest)) :
    Grammar.arrowFunction readers line isAsync (atFront (parameters names) ++ ⟨op "=>", 1, 1⟩ :: X) =
      (.arrow line (some names) e isAsync, rest) := by
  simp [Grammar.arrowFunction, params_parameters, accept_cons, h]

theorem unary_arrow (isAsync : Bool) (names : List String) (hn : isAsync = false → names.length ≤ maxArrowParams)
    (h : Grammar.arrowBody readers X = (e, rest)) :
    unary (atFront (asyncWord isAsync ++ parameters names) ++ ⟨op "=>", 1, 1⟩ :: X) =
      (.arrow (some 1) (some names) e isAsync, rest) := by
  have harrow := arrowFunction_parameters (some 1) isAsync names h
  rw [unary_eq]
  cases isAsync with
  | true => exact harrow
  | false =>
    -- The opening parenthesis is told from that of an expression by looking ahead for the arrow.
    have hahead : namesThenArrow (arrowReach - 1)
        (atFront (commaSeparated names ++ [punct parenClose, op "=>"]) ++ X) = true :=
      namesThenArrow_commaSeparated names (by have := hn rfl; simp only [maxArrowParams, arrowReach] at *; omega) X
    change Grammar.parenthesized readers (some 1) (atFront (parameters names) ++ ⟨op "=>", 1, 1⟩ :: X) = _
    rw [← harrow]
    simp only [atFront_append, atFront_cons, atFront_nil, List.append_assoc, List.cons_append,
      List.nil_append] at hahead
    simp [Grammar.parenthesized, arrowAhead, parameters, hahead]

/-! ## Blocks and the parts of statements -/

theorem block_braces (h : statements true X = (es, ⟨punct braceClose, 1, 1⟩ :: rest)) :
    block (⟨punct braceOpen, 1, 1⟩ :: X) = (.block (some 1) es, rest) := by
  rw [block_eq]
  simp [Grammar.block, h, accept_cons]

theorem arrowBody_block (X : List Token) :
    Grammar.arrowBody readers (⟨punct braceOpen, 1, 1⟩ :: X) = block (⟨punct braceOpen, 1, 1⟩ :: X) := by
  rw [block_eq]
  simp [Grammar.arrowBody]

theorem arrowBody_expr {ls : List Lexeme} (hl : startsExpr ls = true) (X : List Token) :
    Grammar.arrowBody readers (atFront ls ++ X) = expr (atFront ls ++ X) := by
  unfold startsExpr at hl
  split at hl
  case h_8 => cases hl
  all_goals rfl

theorem initializer_ends (h : Ends b rest) : Grammar.initializer readers rest = (.missing, rest) := by
  rcases rest with _ | ⟨⟨l, line, column⟩, rest⟩
  · rfl
  have hl : l.mayFollow b = true := h _ rfl
  cases l with
  | op symbol => cases hl
  | _ => rfl

theorem declaration_name (isConstant : Bool) (name : String) (h : Grammar.initializer readers X = (e, rest)) :
    Grammar.declaration readers (⟨keyword (declaringWord isConstant), 1, 1⟩ :: ⟨ident name, 1, 1⟩ :: X) =
      (.variableDecl (some 1) (some name) e (if isConstant then "const" else "let"), rest) := by
  cases isConstant <;> simp [Grammar.declaration, declaringWord, takeName, h]

theorem functionDeclaration_name (isAsync : Bool) (name : String) (names : List String) (h : block X = (e, rest)) :
    Grammar.functionDeclaration readers
        (atFront (asyncWord isAsync ++ keyword karya :: ident name :: parameters names) ++ X) =
      (.functionDecl (some 1) (some name) (some names) e isAsync, rest) := by
  rw [block_eq] at h
  cases isAsync <;>
    simp [Grammar.functionDeclaration, asyncWord, accept_cons, takeName, params_parameters, h]

/-- `loopPart` is `expr`, which is missing where the mark behind the part comes at once. -/
theorem loopPart_eq {stop : Punct} (h : (punct stop).mayFollow false = true) :
    Grammar.loopPart readers stop = expr := by
  funext ts
  simp only [Grammar.loopPart, bind_apply]
  rcases ts with _ | ⟨tok, rest⟩
  · rfl
  by_cases hs : tok.lexeme = punct stop
  · rw [expr_ends (Ends.cons (by rwa [hs]) rest)]
    simp [hs]
  · simp [hs]

theorem loopStart_expr {ls : List Lexeme} (hl : startsExpr ls = true) (X : List Token) :
    Grammar.loopStart readers (atFront ls ++ X) = expr (atFront ls ++ X) := by
  unfold startsExpr at hl
  split at hl
  case h_8 => cases hl
  all_goals rfl

theorem loopStart_declaration (isConstant : Bool) (X : List Token) :
    Grammar.loopStart readers (⟨keyword (declaringWord isConstant), 1, 1⟩ :: X) =
      Grammar.declaration readers (⟨keyword (declaringWord isConstant), 1, 1⟩ :: X) := by
  cases isConstant <;> rfl

/-! ## Statements -/

theorem statement_declaration (isConstant : Bool) {ts : List Token}
    (hts : ts = ⟨keyword (declaringWord isConstant), 1, 1⟩ :: X)
    (h : Grammar.declaration readers ts = (e, rest)) : statement ts = (e, (skipSemicolon rest).2) := by
  have : statement ts = Grammar.variableStatement readers ts := by
    rw [statement_eq, hts]
    cases isConstant <;> rfl
  rw [this]
  simp [Grammar.variableStatement, h]

theorem statement_print (h : expr X = (e, rest)) :
    statement (⟨keyword bol, 1, 1⟩ :: X) = (.printStmt (some 1) e, (skipSemicolon rest).2) := by
  rw [statement_eq]
  change Grammar.printStatement readers _ = _
  simp [Grammar.printStatement, h]

section

variable {test consequent alternate init update body : Node} {Y Z W : List Token}

theorem alternative_elseIf (ht : expr X = (test, Y)) (hc : block Y = (consequent, Z))
    (ha : alternative Z = (alternate, rest)) :
    alternative (⟨keyword nahitoh, line, column⟩ :: X) =
      (.ifStmt (some (line : Int)) test consequent alternate, rest) := by
  rw [block_eq] at hc
  rw [congrFun alternative_eq]
  simp [Grammar.alternative, ht, hc, ha]

theorem alternative_else (h : block X = (e, rest)) :
    alternative (⟨keyword warna, line, column⟩ :: X) = (e, rest) := by
  rw [block_eq] at h
  rw [alternative_eq]
  simp [Grammar.alternative, h]

theorem alternative_other {tok : Token} (hif : tok.lexeme ≠ keyword nahitoh) (helse : tok.lexeme ≠ keyword warna)
    (rest : List Token) : alternative (tok :: rest) = (.missing, tok :: rest) := by
  obtain ⟨l, line, column⟩ := tok
  rw [alternative_eq]
  cases l with
  | keyword word =>
    cases word with
    | nahitoh => exact absurd rfl hif
    | warna => exact absurd rfl helse
    | _ => rfl
  | _ => rfl

theorem alternative_ends (h : Ends b rest) : alternative rest = (.missing, rest) := by
  rcases rest with _ | ⟨tok, rest⟩
  · rfl
  have htok : tok.lexeme.mayFollow b = true := h _ rfl
  refine alternative_other ?_ ?_ rest <;>
  · intro hl
    rw [hl] at htok
    cases htok

theorem statement_if (ht : expr X = (test, Y)) (hc : block Y = (consequent, Z))
    (ha : alternative Z = (alternate, rest)) :
    statement (⟨keyword agar, line, column⟩ :: X) =
      (.ifStmt (some (line : Int)) test consequent alternate, rest) := by
  rw [block_eq] at hc
  rw [statement_eq]
  change Grammar.ifStatement readers _ = _
  simp [Grammar.ifStatement, ht, hc, ha]

theorem statement_while (ht : expr X = (test, Y)) (hb : block Y = (body, rest)) :
    statement (⟨keyword lagataar, 1, 1⟩ :: X) = (.whileStmt (some 1) test body, rest) := by
  rw [block_eq] at hb
  rw [statement_eq]
  change Grammar.whileStatement readers _ = _
  simp [Grammar.whileStatement, ht, hb]

theorem statement_jabtak (X : List Token) :
    statement (⟨keyword jabtak, 1, 1⟩ :: X) = Grammar.forStatement readers (⟨keyword jabtak, 1, 1⟩ :: X) := by
  rw [statement_eq]
  rfl

theorem statement_for (hi : Grammar.loopStart readers X = (init, ⟨punct semicolon, 1, 1⟩ :: Y))
    (ht : expr Y = (test, ⟨punct semicolon, 1, 1⟩ :: Z)) (hu : expr Z = (update, ⟨punct parenClose, 1, 1⟩ :: W))
    (hb : block W = (body, rest)) :
    statement (⟨keyword jabtak, 1, 1⟩ :: ⟨punct parenOpen, 1, 1⟩ :: X) =
      (.forStmt (some 1) init test update body, rest) := by
  rw [block_eq] at hb
  rw [statement_jabtak]
  -- A part that is left out is read by `expr` too, which then gives nothing.
  have h1 : Grammar.loopPart readers semicolon = expr := loopPart_eq rfl
  have h2 : Grammar.loopPart readers parenClose = expr := loopPart_eq rfl
  simp only [Grammar.forStatement, bind_apply, takeLine_cons, accept_cons, if_true, hi, skipSemicolon_cons, h1,
    ht, h2, hu, hb, pure_apply]
  rfl

theorem statement_forever (hb : block (⟨punct braceOpen, 1, 1⟩ :: X) = (body, rest)) :
    statement (⟨keyword jabtak, 1, 1⟩ :: ⟨punct braceOpen, 1, 1⟩ :: X) =
      (.forStmt (some 1) .missing .missing .missing body, rest) := by
  rw [block_eq] at hb
  rw [statement_jabtak]
  simp [Grammar.forStatement, accept_cons, hb]

end

theorem statement_return (h : expr X = (e, rest)) :
    statement (⟨keyword wapas, 1, 1⟩ :: X) = (.returnStmt (some 1) e, (skipSemicolon rest).2) := by
  rw [statement_eq]
  change Grammar.returnStatement readers _ = _
  simp [Grammar.returnStatement, h]

theorem statement_break (rest : List Token) :
    statement (⟨keyword ruk, 1, 1⟩ :: rest) = (.breakStmt (some 1), (skipSemicolon rest).2) := by
  rw [statement_eq]
  rfl

theorem statement_continue (rest : List Token) :
    statement (⟨keyword chhod, 1, 1⟩ :: rest) = (.continueStmt (some 1), (skipSemicolon rest).2) := by
  rw [statement_eq]
  rfl

theorem statement_function (isAsync : Bool) (X : List Token) :
    statement (atFront (asyncWord isAsync ++ [keyword karya]) ++ X) =
      Grammar.functionDeclaration readers (atFront (asyncWord isAsync ++ [keyword karya]) ++ X) := by
  rw [statement_eq]
  cases isAsync <;> rfl

theorem statement_importModule (source : String) (rest : List Token) :
    statement (⟨keyword aayaat, 1, 1⟩ :: ⟨string source, 1, 1⟩ :: rest) =
      (.importDecl (some 1) (some source) none, (skipSemicolon rest).2) := by
  rw [statement_eq]
  rfl

theorem statement_importNames (names : List String) (source : String) (rest : List Token) :
    statement (⟨keyword aayaat, 1, 1⟩ :: ⟨punct braceOpen, 1, 1⟩ ::
        (atFront (commaSeparated names ++ [punct braceClose, keyword se, string source]) ++ rest)) =
      (.importDecl (some 1) (some source) (some names), (skipSemicolon rest).2) := by
  rw [statement_eq]
  change Grammar.importStatement (⟨keyword aayaat, 1, 1⟩ :: ⟨punct braceOpen, 1, 1⟩ :: _) = _
  simp [Grammar.importStatement, accept_cons, importNames_commaSeparated, takeString]

theorem statement_exportDeclaration (isConstant : Bool) {ts : List Token}
    (hts : ts = ⟨keyword (declaringWord isConstant), 1, 1⟩ :: X)
    (h : Grammar.declaration readers ts = (e, rest)) :
    statement (⟨keyword niryaat, 1, 1⟩ :: ts) = (.exportDecl (some 1) e none, (skipSemicolon rest).2) := by
  have hv : Grammar.variableStatement readers ts = (e, (skipSemicolon rest).2) := by
    simp [Grammar.variableStatement, h]
  have hs : statement (⟨keyword niryaat, 1, 1⟩ :: ts) = (.exportDecl (some 1)
      (Grammar.variableStatement readers ts).1 none, (Grammar.variableStatement readers ts).2) := by
    rw [statement_eq, hts]
    cases isConstant <;> rfl
  rw [hs, hv]

theorem statement_exportFunction (isAsync : Bool) {ts : List Token}
    (hts : ts = atFront (asyncWord isAsync ++ [keyword karya]) ++ X)
    (h : Grammar.functionDeclaration readers ts = (e, rest)) :
    statement (⟨keyword niryaat, 1, 1⟩ :: ts) = (.exportDecl (some 1) e none, rest) := by
  have hs : statement (⟨keyword niryaat, 1, 1⟩ :: ts) = (.exportDecl (some 1)
      (Grammar.functionDeclaration readers ts).1 none, (Grammar.functionDeclaration readers ts).2) := by
    rw [statement_eq, hts]
    cases isAsync <;> rfl
  rw [hs, h]

theorem statement_exportName (name : String) (rest : List Token) :
    statement (⟨keyword niryaat, 1, 1⟩ :: ⟨ident name, 1, 1⟩ :: rest) =
      (.exportDecl (some 1) .missing (some [name]), (skipSemicolon rest).2) := by
  rw [statement_eq]
  rfl

theorem statement_block (X : List Token) :
    statement (⟨punct braceOpen, 1, 1⟩ :: X) = block (⟨punct braceOpen, 1, 1⟩ :: X) := by
  rw [statement_eq, block_eq]
  rfl

theorem statement_expr {ls : List Lexeme} (hl : startsExpr ls = true) (X : List Token)
    (h : expr (atFront ls ++ X) = (e, rest)) (he : e.isMissing = false) :
    statement (atFront ls ++ X) = (.exprStmt (some 1) e, (skipSemicolon rest).2) := by
  have hs : statement (atFront ls ++ X) = Grammar.expressionStatement readers (atFront ls ++ X) := by
    rw [statement_eq]
    unfold startsExpr at hl
    split at hl
    case h_8 => cases hl
    all_goals rfl
  have hline : (atFront ls ++ X).head?.map (fun t => (t.line : Int)) = some 1 := by
    cases ls with
    | nil => cases hl
    | cons l ls => rfl
  rw [expr_eq] at h
  rw [hs]
  simp only [Grammar.expressionStatement, bind_apply, get_apply, h, hline]
  simp [he]

/-! ## Statement after statement -/

theorem statements_semicolon (untilBrace : Bool) {tok : Token} (h : tok.lexeme = punct semicolon) :
    statements untilBrace (tok :: rest) = statements untilBrace rest := by
  rw [congrFun (statements_eq untilBrace), Grammar.statements_cons]
  simp [Grammar.statement, h, Node.isMissing]

theorem statements_semicolons (untilBrace : Bool) (n : Nat) (rest : List Token) :
    statements untilBrace (atFront (List.replicate n (punct semicolon)) ++ rest) = statements untilBrace rest := by
  induction n with
  | zero => rfl
  | succ n ih => rw [List.replicate_succ, atFront_cons, List.cons_append, statements_semicolon untilBrace rfl, ih]

theorem statements_skipSemicolon (untilBrace : Bool) (rest : List Token) :
    statements untilBrace (skipSemicolon rest).2 = statements untilBrace rest := by
  rcases rest with _ | ⟨tok, rest⟩
  · rfl
  rw [skipSemicolon_cons]
  split
  next h => rw [statements_semicolon untilBrace h]
  next => rfl

theorem statements_statement (untilBrace : Bool) {tok : Token} (htok : tok.lexeme ≠ punct braceClose)
    (h : statement (tok :: X) = (e, rest)) (he : e.isMissing = false) :
    statements untilBrace (tok :: X) = (e :: (statements untilBrace rest).1, (statements untilBrace rest).2) := by
  rw [statement_eq] at h
  rw [congrFun (statements_eq untilBrace), Grammar.statements_cons]
  simp [htok, h, he]

end Parse

end HindiScript
