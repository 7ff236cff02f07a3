import HindiScript.Proofs.Tree.Inverse

/-!
# The shape of what was read

Whatever the tokens are, the tree that is read from them has a shape (`Shaped`): parts may be missing, but each part
that is there is one that its place can hold. It is shown for each rule of the grammar under the assumption that it
holds of the readers for the inner parts (`Inner.Shapes`), and so it holds of every program: `shaped_parse`.
-/

namespace HindiScript

variable {named : String → Prop}

/-! ## Shapes -/

/-- The tree has the shape of what is read for the place. Its names are as `named` says; a part of it may be missing,
but for those that are read first. -/
inductive Shaped (named : String → Prop) : Place → Node → Prop where
  | ident {line name} : named name → Shaped named .chain (.ident line name)
  | call {line callee args} :
    Shaped named .chain callee → (∀ a ∈ args, Shaped named .expr a) →
    Shaped named .chain (.call line callee (some args))
  | member {line line' object name} :
    Shaped named .chain object → named name → Shaped named .chain (.member line object (.ident line' name))
  | ofChain {e} : Shaped named .chain e → Shaped named .expr e
  | number {line} {value : Nat} : Shaped named .expr (.literal line (.number value))
  | string {line text} : Shaped named .expr (.literal line (.string text))
  | await {line e} : (e.isMissing = false → Shaped named .expr e) → Shaped named .expr (.await line e)
  | binary {line symbol left right} :
    0 < precedence symbol → Shaped named .expr left → (right.isMissing = false → Shaped named .expr right) →
    Shaped named .expr (.binary line symbol left right)
  | assign {line target value} :
    Shaped named .expr target → (value.isMissing = false → Shaped named .expr value) →
    Shaped named .expr (.assign line target value)
  | arrow {line params body isAsync place} :
    (∀ n ∈ params, named n) → place = .expr ∨ place = .block → (body.isMissing = false → Shaped named place body) →
    Shaped named .expr (.arrow line (some params) body isAsync)
  | block {line body} : (∀ s ∈ body, Shaped named .statement s) → Shaped named .block (.block line body)
  | declaration {line name value kind} :
    kind = "let" ∨ kind = "const" → (∀ n ∈ name, named n) → (value.isMissing = false → Shaped named .expr value) →
    Shaped named .declaration (.variableDecl line name value kind)
  | function {line name params body isAsync} :
    (∀ n ∈ name, named n) → (∀ n ∈ params, named n) → (body.isMissing = false → Shaped named .block body) →
    Shaped named .function (.functionDecl line name (some params) body isAsync)
  | condition {line test consequent alternate} :
    (test.isMissing = false → Shaped named .expr test) →
    (consequent.isMissing = false → Shaped named .block consequent) →
    (alternate.isMissing = false → Shaped named .alternate alternate) →
    Shaped named .condition (.ifStmt line test consequent alternate)
  | elseIf {e} : Shaped named .condition e → Shaped named .alternate e
  | elseBlock {e} : Shaped named .block e → Shaped named .alternate e
  | ofDeclaration {e} : Shaped named .declaration e → Shaped named .statement e
  | ofFunction {e} : Shaped named .function e → Shaped named .statement e
  | ofCondition {e} : Shaped named .condition e → Shaped named .statement e
  | ofBlock {e} : Shaped named .block e → Shaped named .statement e
  | printStmt {line e} : (e.isMissing = false → Shaped named .expr e) → Shaped named .statement (.printStmt line e)
  | whileStmt {line test body} :
    (test.isMissing = false → Shaped named .expr test) → (body.isMissing = false → Shaped named .block body) →
    Shaped named .statement (.whileStmt line test body)
  | forStmt {line init test update body place} :
    place = .declaration ∨ place = .expr → (init.isMissing = false → Shaped named place init) →
    (test.isMissing = false → Shaped named .expr test) → (update.isMissing = false → Shaped named .expr update) →
    (body.isMissing = false → Shaped named .block body) →
    Shaped named .statement (.forStmt line init test update body)
  | returnStmt {line e} : (e.isMissing = false → Shaped named .expr e) → Shaped named .statement (.returnStmt line e)
  | breakStmt {line} : Shaped named .statement (.breakStmt line)
  | continueStmt {line} : Shaped named .statement (.continueStmt line)
  | importDecl {line source names} :
    (∀ ns ∈ names, ∀ n ∈ ns, named n) → Shaped named .statement (.importDecl line source names)
  | exportDecl {line e place} :
    place = .declaration ∨ place = .function → Shaped named place e → Shaped named .statement (.exportDecl line e none)
  | exportName {line name} : named name → Shaped named .statement (.exportDecl line .missing (some [name]))
  | exportNothing {line} : Shaped named .statement (.exportDecl line .missing none)
  | exprStmt {line e} : Shaped named .expr e → Shaped named .statement (.exprStmt line e)
  | program {line body} : (∀ s ∈ body, Shaped named .statement s) → Shaped named .program (.program line body)

theorem Shaped.isMissing_eq {place : Place} {e : Node} (h : Shaped named place e) : e.isMissing = false := by
  induction h with
  | ofChain _ ih | elseIf _ ih | elseBlock _ ih | ofDeclaration _ ih | ofFunction _ ih | ofCondition _ ih
  | ofBlock _ ih => exact ih
  | _ => rfl

/-- The tree has the shape for the place, or nothing stands there. -/
def MayStand (named : String → Prop) (place : Place) (e : Node) : Prop := e.isMissing = false → Shaped named place e

theorem MayStand.missing {place : Place} : MayStand named place .missing := nofun

theorem Shaped.mayStand {place : Place} {e : Node} (h : Shaped named place e) : MayStand named place e := fun _ => h

/-! ## What readers give -/

/-- The names among `ts` are as `named` says. -/
def Naming (named : String → Prop) (ts : List Token) : Prop := ∀ tok ∈ ts, ∀ name, tok.lexeme = .ident name → named name

namespace Naming

variable {tok : Token} {rest ts : List Token}

theorem tail (h : Naming named (tok :: rest)) : Naming named rest := fun t ht => h t (List.mem_cons_of_mem _ ht)

theorem suffix (h : Naming named ts) (hs : rest <:+ ts) : Naming named rest := fun t ht => h t (hs.subset ht)

end Naming

namespace Parse

variable {α β : Type} {p : Parse α} {P Q : α → Prop} {R : β → Prop}

/-- From tokens with such names `p` gives a value with `P`. -/
def Gives (named : String → Prop) (p : Parse α) (P : α → Prop) : Prop :=
  ∀ ts, Naming named ts → P (p ts).1 ∧ Naming named (p ts).2

namespace Gives

theorem pure {a : α} (h : P a) : Gives named (Pure.pure a) P := fun _ hts => ⟨h, hts⟩

theorem bind {f : α → Parse β} (hp : Gives named p P) (hf : ∀ a, P a → Gives named (f a) R) :
    Gives named (p >>= f) R := by
  intro ts hts
  obtain ⟨hvalue, hrest⟩ := hp ts hts
  exact hf _ hvalue _ hrest

theorem mono (hp : Gives named p P) (h : ∀ a, P a → Q a) : Gives named p Q :=
  fun ts hts => (hp ts hts).imp_left (h _)

theorem after {f : α → Parse β} (hp : Shrinks p) (hf : ∀ a, Gives named (f a) R) : Gives named (p >>= f) R :=
  fun ts hts => hf _ _ (hts.suffix (hp ts))

end Gives

theorem gives_front? : Gives named front? fun l => ∀ name, l = some (.ident name) → named name := by
  intro ts hts
  refine ⟨fun name hname => ?_, hts⟩
  cases ts with
  | nil => cases hname
  | cons tok rest => exact hts tok List.mem_cons_self name (Option.some.inj hname)

theorem gives_takeName : Gives named takeName fun name => ∀ n ∈ name, named n := by
  intro ts hts
  refine ⟨fun n hn => ?_, hts.suffix (shrinks_takeName ts)⟩
  rcases ts with _ | ⟨⟨l, line, column⟩, rest⟩
  · cases hn
  cases l with
  | ident name =>
    cases hn
    exact hts _ List.mem_cons_self _ rfl
  | _ => cases hn

theorem gives_paramNames : Gives named paramNames fun names => ∀ n ∈ names, named n := by
  intro ts hts
  refine ⟨?_, hts.suffix (shrinks_paramNames ts)⟩
  fun_induction paramNames ts with
  | case1 => simp
  | case2 => simp
  | case3 tok name hl => simpa using hts tok List.mem_cons_self name hl
  | case4 tok name hl comma rest names left heq ih1 ih2 =>
    have hmore : ∀ n ∈ names, named n := by
      split at heq
      · rw [heq] at ih1
        exact ih1 hts.tail.tail
      · rw [heq] at ih2
        exact ih2 hts.tail
    simpa using ⟨hts tok List.mem_cons_self name hl, hmore⟩
  | case5 tok rest _ _ ih => exact ih hts.tail

theorem gives_params : Gives named params fun names => ∀ n ∈ names, named n := by
  refine .after (shrinks_accept _) fun opened => ?_
  split
  · exact gives_paramNames.bind fun _ hnames => .after (shrinks_accept _) fun _ => .pure hnames
  · exact .pure nofun

theorem gives_importNames : Gives named importNames fun names => ∀ n ∈ names, named n := by
  intro ts hts
  refine ⟨?_, hts.suffix (shrinks_importNames ts)⟩
  fun_induction importNames ts with
  | case1 => simp
  | case2 tok rest name hl names left heq ih =>
    rw [heq] at ih
    simpa using ⟨hts tok List.mem_cons_self name hl, ih hts.tail⟩
  | case3 tok rest _ ih => exact ih hts.tail
  | case4 => simp

end Parse

/-! ## Rules -/

/-- What the rules need of the readers for the inner parts: they give trees of the shape for their places. -/
structure Inner.Shapes (named : String → Prop) (inner : Inner) : Prop where
  statements (untilBrace : Bool) :
    Parse.Gives named (inner.statements untilBrace) fun body => ∀ s ∈ body, Shaped named .statement s
  expr : Parse.Gives named inner.expr (MayStand named .expr)
  operand (floor : Int) (h : 0 ≤ floor) : Parse.Gives named (inner.operand floor) (MayStand named .expr)
  operators (floor : Int) (left : Node) (h : 0 ≤ floor) (hl : Shaped named .expr left) :
    Parse.Gives named (inner.operators floor left) (Shaped named .expr)
  arguments : Parse.Gives named inner.arguments fun args => ∀ a ∈ args, Shaped named .expr a
  chain (head : Node) (h : Shaped named .chain head) : Parse.Gives named (inner.chain head) (Shaped named .chain)
  alternative : Parse.Gives named inner.alternative (MayStand named .alternate)

namespace Grammar

open Parse

variable {inner : Inner}

/-! ### Expressions -/

theorem gives_block (h : inner.Shapes named) : Gives named (block inner) (MayStand named .block) := by
  refine .after (shrinks_sees _) fun brace => ?_
  split
  · exact .after shrinks_takeLine fun _ => (h.statements true).bind fun _ hbody =>
      .after (shrinks_accept _) fun _ => .pure (Shaped.block hbody).mayStand
  · exact .pure .missing

theorem gives_arrowFunction (h : inner.Shapes named) (line : Option Int) (isAsync : Bool) :
    Gives named (arrowFunction inner line isAsync) (MayStand named .expr) := by
  refine gives_params.bind fun names hnames => .after (shrinks_accept _) fun arrow => ?_
  split
  · have hbody : Gives named (arrowBody inner) fun body =>
        MayStand named .expr body ∨ MayStand named .block body := by
      refine .after (shrinks_sees _) fun brace => ?_
      split
      · exact (gives_block h).mono fun _ => .inr
      · exact h.expr.mono fun _ => .inl
    refine hbody.bind fun body hb => .pure ?_
    rcases hb with hb | hb
    · exact (Shaped.arrow hnames (.inl rfl) hb).mayStand
    · exact (Shaped.arrow hnames (.inr rfl) hb).mayStand
  · exact .pure .missing

theorem gives_fetchCall (h : inner.Shapes named) (hf : named fetchName) :
    Gives named (fetchCall inner) (Shaped named .chain) := by
  refine .after shrinks_takeLine fun line => .after (shrinks_accept _) fun opened => ?_
  split
  · exact h.arguments.bind fun _ hargs => .pure (.call (.ident hf) hargs)
  · refine h.expr.bind fun arg harg => .pure (.call (.ident hf) ?_)
    split
    · exact nofun
    · next hm =>
      intro a ha
      obtain rfl := List.mem_singleton.1 ha
      exact harg (by simpa using hm)

theorem gives_chain (h : inner.Shapes named) {head : Node} (hh : Shaped named .chain head) :
    Gives named (chain inner head) (Shaped named .chain) := by
  intro ts hts
  cases ts with
  | nil => exact ⟨hh, hts⟩
  | cons tok rest =>
    simp only [chain]
    split
    · exact (h.arguments.bind fun _ hargs => h.chain _ (.call hh hargs)) rest hts.tail
    · split
      · exact ⟨hh, hts⟩
      · rename_i property rest'
        split
        · next name hname =>
          have hn := hts.tail property List.mem_cons_self name hname
          exact h.chain _ (.member hh hn) rest' hts.tail.tail
        · exact ⟨hh, hts⟩
    · exact ⟨hh, hts⟩

theorem gives_parenthesized (h : inner.Shapes named) (line : Option Int) :
    Gives named (parenthesized inner line) (MayStand named .expr) := by
  refine .after (fun _ => List.suffix_rfl) fun ahead => ?_
  split
  · exact gives_arrowFunction h line false
  · exact .after shrinks_takeLine fun _ => h.expr.bind fun _ hvalue => .after (shrinks_accept _) fun _ => .pure hvalue

theorem gives_primary (h : inner.Shapes named) (hf : named fetchName) :
    Gives named (primary inner) (MayStand named .expr) := by
  intro ts hts
  rcases ts with _ | ⟨⟨l, line, column⟩, rest⟩
  · exact ⟨.missing, hts⟩
  cases l with
  | number value => exact ⟨Shaped.number.mayStand, hts.tail⟩
  | string text => exact ⟨Shaped.string.mayStand, hts.tail⟩
  | ident name =>
    have hhead : Shaped named .chain (.ident (some line) name) := .ident (hts _ List.mem_cons_self _ rfl)
    exact ((gives_chain h hhead).mono fun _ he => (Shaped.ofChain he).mayStand) rest hts.tail
  | punct mark =>
    cases mark with
    | parenOpen => exact gives_parenthesized h _ _ hts
    | _ => exact ⟨.missing, hts⟩
  | keyword word =>
    cases word with
    | lao => exact ((gives_fetchCall h hf).mono fun _ he => (Shaped.ofChain he).mayStand) _ hts
    | aasynk =>
      by_cases hp : rest.head?.map (·.lexeme) = some (.punct .parenOpen)
      · simp only [primary, bind_apply, get_apply, hp, if_true]
        exact gives_arrowFunction h _ true rest hts.tail
      · simp only [primary, bind_apply, get_apply, hp, if_false, pure_apply]
        exact ⟨.missing, hts⟩
    | _ => exact ⟨.missing, hts⟩
  | _ => exact ⟨.missing, hts⟩

theorem gives_unary (h : inner.Shapes named) (hf : named fetchName) :
    Gives named (unary inner) (MayStand named .expr) := by
  refine .after (shrinks_sees _) fun awaits => ?_
  split
  · exact .after shrinks_takeLine fun _ => (h.operand _ (by decide)).bind fun _ hvalue =>
      .pure (Shaped.await hvalue).mayStand
  · exact gives_primary h hf

theorem gives_operators (h : inner.Shapes named) {floor : Int} (hfloor : 0 ≤ floor) {left : Node}
    (hl : Shaped named .expr left) : Gives named (operators inner floor left) (Shaped named .expr) := by
  intro ts hts
  cases ts with
  | nil => exact ⟨hl, hts⟩
  | cons tok rest =>
    simp only [operators]
    split
    · split
      · exact ⟨hl, hts⟩
      · exact ((h.operand _ (by omega)).bind fun _ hright =>
          h.operators floor _ hfloor (.binary (by omega) hl hright)) rest hts.tail
    · exact ⟨hl, hts⟩

theorem gives_operand (h : inner.Shapes named) (hf : named fetchName) {floor : Int} (hfloor : 0 ≤ floor) :
    Gives named (operand inner floor) (MayStand named .expr) := by
  refine (gives_unary h hf).bind fun left hl => ?_
  split
  · exact .pure .missing
  · next hm => exact (gives_operators h hfloor (hl (by simpa using hm))).mono fun _ he => he.mayStand

theorem gives_expr (h : inner.Shapes named) (hf : named fetchName) :
    Gives named (expr inner) (MayStand named .expr) := by
  refine (gives_operand h hf (Int.le_refl 0)).bind fun left hl => ?_
  split
  · exact .pure .missing
  · next hm =>
    have hleft := hl (by simpa using hm)
    refine .after (shrinks_sees _) fun equals => ?_
    split
    · exact .after shrinks_takeLine fun _ => h.expr.bind fun _ hvalue => .pure (Shaped.assign hleft hvalue).mayStand
    · exact .pure hl

theorem gives_arguments (h : inner.Shapes named) (hf : named fetchName) :
    Gives named (arguments inner) fun args => ∀ a ∈ args, Shaped named .expr a := by
  refine .after shrinks_front? fun front => ?_
  split
  · exact .pure nofun
  · exact .after (shrinks_accept _) fun _ => .pure nofun
  · refine (gives_expr h hf).bind fun arg harg => .after (shrinks_accept _) fun comma => ?_
    split
    · split
      · exact h.arguments
      · exact .after (shrinks_accept _) fun _ => .pure nofun
    · next hm =>
      refine h.arguments.bind fun more hmore => .pure fun a ha => ?_
      rcases List.mem_cons.1 ha with rfl | ha
      · exact harg (by simpa using hm)
      · exact hmore a ha

/-! ### Statements -/

theorem gives_declaration (h : inner.Shapes named) :
    Gives named (declaration inner) (Shaped named .declaration) := by
  refine .after (shrinks_sees _) fun isConstant => .after shrinks_takeLine fun line =>
    gives_takeName.bind fun name hname => ?_
  have hvalue : Gives named (initializer inner) (MayStand named .expr) := by
    refine .after (shrinks_accept _) fun equals => ?_
    split
    · exact h.expr
    · exact .pure .missing
  refine hvalue.bind fun value hv => .pure (.declaration ?_ hname hv)
  cases isConstant <;> simp

theorem gives_variableStatement (h : inner.Shapes named) :
    Gives named (variableStatement inner) (Shaped named .declaration) :=
  (gives_declaration h).bind fun _ hd => .after shrinks_skipSemicolon fun _ => .pure hd

theorem gives_printStatement (h : inner.Shapes named) :
    Gives named (printStatement inner) (Shaped named .statement) :=
  .after shrinks_takeLine fun _ => h.expr.bind fun _ hvalue => .after shrinks_skipSemicolon fun _ =>
    .pure (.printStmt hvalue)

theorem gives_ifStatement (h : inner.Shapes named) : Gives named (ifStatement inner) (Shaped named .condition) :=
  .after shrinks_takeLine fun _ => h.expr.bind fun _ htest => (gives_block h).bind fun _ hconsequent =>
    h.alternative.bind fun _ halternate => .pure (.condition htest hconsequent halternate)

theorem gives_alternative (h : inner.Shapes named) :
    Gives named (alternative inner) (MayStand named .alternate) := by
  refine .after shrinks_front? fun front => ?_
  split
  · exact (gives_ifStatement h).mono fun _ he => (Shaped.elseIf he).mayStand
  · exact .after shrinks_takeLine fun _ => (gives_block h).mono fun _ he hm => .elseBlock (he hm)
  · exact .pure .missing

theorem gives_whileStatement (h : inner.Shapes named) :
    Gives named (whileStatement inner) (Shaped named .statement) :=
  .after shrinks_takeLine fun _ => h.expr.bind fun _ htest => (gives_block h).bind fun _ hbody =>
    .pure (.whileStmt htest hbody)

theorem gives_loopStart (h : inner.Shapes named) :
    Gives named (loopStart inner) fun init => MayStand named .declaration init ∨ MayStand named .expr init := by
  refine .after shrinks_front? fun front => ?_
  split
  · exact (gives_declaration h).mono fun _ hd => .inl hd.mayStand
  · exact (gives_declaration h).mono fun _ hd => .inl hd.mayStand
  · exact .pure (.inl .missing)
  · exact h.expr.mono fun _ => .inr

theorem gives_loopPart (h : inner.Shapes named) (stop : Punct) :
    Gives named (loopPart inner stop) (MayStand named .expr) := by
  refine .after (shrinks_sees _) fun stopped => ?_
  split
  · exact .pure .missing
  · exact h.expr

theorem gives_forStatement (h : inner.Shapes named) : Gives named (forStatement inner) (Shaped named .statement) := by
  refine .after shrinks_takeLine fun line => .after (shrinks_accept _) fun opened => ?_
  split
  · refine (gives_loopStart h).bind fun init hinit => .after shrinks_skipSemicolon fun _ =>
      (gives_loopPart h _).bind fun test htest => .after shrinks_skipSemicolon fun _ =>
      (gives_loopPart h _).bind fun update hupdate => .after (shrinks_accept _) fun _ =>
      (gives_block h).bind fun body hbody => .pure ?_
    rcases hinit with hinit | hinit
    · exact .forStmt (.inl rfl) hinit htest hupdate hbody
    · exact .forStmt (.inr rfl) hinit htest hupdate hbody
  · exact (gives_block h).bind fun _ hbody => .pure (.forStmt (.inr rfl) nofun nofun nofun hbody)

theorem gives_returnStatement (h : inner.Shapes named) :
    Gives named (returnStatement inner) (Shaped named .statement) :=
  .after shrinks_takeLine fun _ => h.expr.bind fun _ hvalue => .after shrinks_skipSemicolon fun _ =>
    .pure (.returnStmt hvalue)

theorem gives_breakStatement : Gives named breakStatement (Shaped named .statement) :=
  .after shrinks_takeLine fun _ => .after shrinks_skipSemicolon fun _ => .pure .breakStmt

theorem gives_continueStatement : Gives named continueStatement (Shaped named .statement) :=
  .after shrinks_takeLine fun _ => .after shrinks_skipSemicolon fun _ => .pure .continueStmt

theorem gives_functionDeclaration (h : inner.Shapes named) :
    Gives named (functionDeclaration inner) (Shaped named .function) :=
  .after shrinks_get fun _ => .after (shrinks_accept _) fun _ => .after (shrinks_accept _) fun _ =>
    gives_takeName.bind fun _ hname => gives_params.bind fun _ hparams => (gives_block h).bind fun _ hbody =>
    .pure (.function hname hparams hbody)

theorem gives_importStatement : Gives named importStatement (Shaped named .statement) := by
  refine .after shrinks_takeLine fun line => .after (shrinks_accept _) fun braced => ?_
  split
  · refine gives_importNames.bind fun names hnames => .after (shrinks_accept _) fun _ =>
      .after (shrinks_accept _) fun _ => .after shrinks_takeString fun _ => .after shrinks_skipSemicolon fun _ =>
      .pure (.importDecl ?_)
    rintro _ ⟨⟩
    exact hnames
  · exact .after shrinks_takeString fun _ => .after shrinks_skipSemicolon fun _ => .pure (.importDecl nofun)

theorem gives_exportStatement (h : inner.Shapes named) :
    Gives named (exportStatement inner) (Shaped named .statement) := by
  refine .after shrinks_takeLine fun line => gives_front?.bind fun front hfront => ?_
  split
  · exact (gives_variableStatement h).bind fun _ hd => .pure (.exportDecl (.inl rfl) hd)
  · exact (gives_variableStatement h).bind fun _ hd => .pure (.exportDecl (.inl rfl) hd)
  · exact (gives_functionDeclaration h).bind fun _ hd => .pure (.exportDecl (.inr rfl) hd)
  · exact (gives_functionDeclaration h).bind fun _ hd => .pure (.exportDecl (.inr rfl) hd)
  · exact .after shrinks_takeLine fun _ => .after shrinks_skipSemicolon fun _ => .pure (.exportName (hfront _ rfl))
  · exact .pure .exportNothing

theorem gives_expressionStatement (h : inner.Shapes named) (hf : named fetchName) :
    Gives named (expressionStatement inner) (MayStand named .statement) := by
  refine .after shrinks_get fun ts => (gives_expr h hf).bind fun value hvalue =>
    .after shrinks_skipSemicolon fun _ => .pure ?_
  split
  · exact .missing
  · next hm => exact (Shaped.exprStmt (hvalue (by simpa using hm))).mayStand

theorem gives_statement (h : inner.Shapes named) (hf : named fetchName) :
    Gives named (statement inner) (MayStand named .statement) := by
  intro ts hts
  rcases ts with _ | ⟨⟨l, line, column⟩, rest⟩
  · exact ⟨.missing, hts⟩
  have hexpr := gives_expressionStatement h hf _ hts
  have hfunction := ((gives_functionDeclaration h).mono fun _ hd => (Shaped.ofFunction hd).mayStand) _ hts
  cases l with
  | keyword word =>
    cases word with
    | ye | sthayi => exact ((gives_variableStatement h).mono fun _ hd => (Shaped.ofDeclaration hd).mayStand) _ hts
    | bol => exact ((gives_printStatement h).mono fun _ hs => hs.mayStand) _ hts
    | agar => exact ((gives_ifStatement h).mono fun _ hs => (Shaped.ofCondition hs).mayStand) _ hts
    | lagataar => exact ((gives_whileStatement h).mono fun _ hs => hs.mayStand) _ hts
    | jabtak => exact ((gives_forStatement h).mono fun _ hs => hs.mayStand) _ hts
    | wapas => exact ((gives_returnStatement h).mono fun _ hs => hs.mayStand) _ hts
    | ruk => exact (gives_breakStatement.mono fun _ hs => hs.mayStand) _ hts
    | chhod => exact (gives_continueStatement.mono fun _ hs => hs.mayStand) _ hts
    | karya => exact hfunction
    | aayaat => exact (gives_importStatement.mono fun _ hs => hs.mayStand) _ hts
    | niryaat => exact ((gives_exportStatement h).mono fun _ hs => hs.mayStand) _ hts
    | aasynk =>
      by_cases hk : rest.head?.map (·.lexeme) = some (.keyword .karya)
      · simp only [statement, bind_apply, get_apply, hk, if_true]
        exact hfunction
      · simp only [statement, bind_apply, get_apply, hk, if_false]
        exact hexpr
    | _ => exact hexpr
  | punct mark =>
    cases mark with
    | braceOpen => exact ((gives_block h).mono fun _ he hm => Shaped.ofBlock (he hm)) _ hts
    | semicolon => exact ⟨.missing, hts.tail⟩
    | _ => exact hexpr
  | _ => exact hexpr

theorem gives_statements (h : inner.Shapes named) (hf : named fetchName) (untilBrace : Bool) :
    Gives named (statements inner untilBrace) fun body => ∀ s ∈ body, Shaped named .statement s := by
  intro ts hts
  cases ts with
  | nil => exact ⟨nofun, hts⟩
  | cons tok rest =>
    obtain ⟨hnode, hleft⟩ := gives_statement h hf _ hts
    rw [statements_cons]
    split
    · exact ⟨nofun, hts⟩
    · dsimp only
      split
      · refine h.statements untilBrace _ ?_
        split
        · exact hts.tail
        · exact hleft
      · next hm =>
        obtain ⟨hmore, hend⟩ := h.statements untilBrace _ hleft
        refine ⟨fun s hs => ?_, hend⟩
        rcases List.mem_cons.1 hs with rfl | hs
        · exact hnode (by simpa using hm)
        · exact hmore s hs

end Grammar

/-! ## Every depth -/

namespace Inner

theorem shapes_ofNone : ofNone.Shapes named where
  statements _ := .pure nofun
  expr := .pure .missing
  operand _ _ := .pure .missing
  operators _ _ _ hl := .pure hl
  arguments := .pure nofun
  chain _ h := .pure h
  alternative := .pure .missing

theorem Shapes.step {inner : Inner} (h : inner.Shapes named) (hf : named fetchName) : inner.step.Shapes named where
  statements := Grammar.gives_statements h hf
  expr := Grammar.gives_expr h hf
  operand _ hfloor := Grammar.gives_operand h hf hfloor
  operators _ _ hfloor hl := Grammar.gives_operators h hfloor hl
  arguments := Grammar.gives_arguments h hf
  chain _ hh := Grammar.gives_chain h hh
  alternative := Grammar.gives_alternative h

theorem shapes_upTo (hf : named fetchName) (n : Nat) : (upTo n).Shapes named := by
  induction n with
  | zero => exact shapes_ofNone
  | succ n ih => exact ih.step hf

end Inner

/-- What `parse` gives for tokens with such names is a program of the shape. -/
theorem shaped_parse (hf : named fetchName) {tokens : List Token} (h : Naming named tokens) :
    Shaped named .program (parse tokens) :=
  .program (Grammar.gives_statements (Inner.shapes_upTo hf _) hf false tokens h).1

/-! ## The nodes below -/

theorem Node.mem_present {c : Node} {nodes : List Node} :
    c ∈ children.present nodes ↔ c ∈ nodes ∧ c.isMissing = false := by
  simp [children.present]

theorem Node.mem_present_singleton {c node : Node} : c ∈ children.present [node] ↔ c = node ∧ c.isMissing = false := by
  rw [mem_present, List.mem_singleton]

/-- What stands below a tree of the shape is of the shape for its own place, which is never that of the whole. -/
theorem Shaped.child {place : Place} {e c : Node} (h : Shaped named place e) (hc : c ∈ e.children) :
    ∃ place', Shaped named place' c ∧ place' ≠ .program := by
  induction h with
  | ident | number | string | breakStmt | continueStmt | importDecl => cases hc
  | ofChain _ ih | elseIf _ ih | elseBlock _ ih | ofDeclaration _ ih | ofFunction _ ih | ofCondition _ ih
  | ofBlock _ ih => exact ih hc
  | block hbody | program hbody => exact ⟨_, hbody c (Node.mem_present.1 hc).1, nofun⟩
  | arrow _ hplace hpart =>
    obtain ⟨rfl, hm⟩ := Node.mem_present_singleton.1 hc
    exact ⟨_, hpart hm, by rintro rfl; simp at hplace⟩
  | await hpart | declaration _ _ hpart | function _ _ hpart | printStmt hpart | returnStmt hpart =>
    obtain ⟨rfl, hm⟩ := Node.mem_present_singleton.1 hc
    exact ⟨_, hpart hm, nofun⟩
  | exprStmt hpart =>
    obtain ⟨rfl, -⟩ := Node.mem_present_singleton.1 hc
    exact ⟨_, hpart, nofun⟩
  | exportDecl hplace hpart =>
    obtain ⟨rfl, -⟩ := Node.mem_present_singleton.1 hc
    exact ⟨_, hpart, by rintro rfl; simp at hplace⟩
  | exportName | exportNothing => cases hc
  | call hcallee hargs =>
    rcases List.mem_cons.1 (Node.mem_present.1 hc).1 with rfl | ha
    · exact ⟨_, hcallee, nofun⟩
    · exact ⟨_, hargs c ha, nofun⟩
  | member hobject hname =>
    obtain ⟨hc, -⟩ := Node.mem_present.1 hc
    simp only [List.mem_cons, List.not_mem_nil, or_false] at hc
    rcases hc with rfl | rfl
    · exact ⟨_, hobject, nofun⟩
    · exact ⟨_, .ident hname, nofun⟩
  | binary _ hfirst hpart | assign hfirst hpart =>
    obtain ⟨hc, hm⟩ := Node.mem_present.1 hc
    simp only [List.mem_cons, List.not_mem_nil, or_false] at hc
    rcases hc with rfl | rfl
    · exact ⟨_, hfirst, nofun⟩
    · exact ⟨_, hpart hm, nofun⟩
  | condition htest hconsequent halternate =>
    obtain ⟨hc, hm⟩ := Node.mem_present.1 hc
    simp only [List.mem_cons, List.not_mem_nil, or_false] at hc
    rcases hc with rfl | rfl | rfl
    · exact ⟨_, htest hm, nofun⟩
    · exact ⟨_, hconsequent hm, nofun⟩
    · exact ⟨_, halternate hm, nofun⟩
  | whileStmt htest hbody =>
    obtain ⟨hc, hm⟩ := Node.mem_present.1 hc
    simp only [List.mem_cons, List.not_mem_nil, or_false] at hc
    rcases hc with rfl | rfl
    · exact ⟨_, htest hm, nofun⟩
    · exact ⟨_, hbody hm, nofun⟩
  | forStmt hplace hinit htest hupdate hbody =>
    obtain ⟨hc, hm⟩ := Node.mem_present.1 hc
    simp only [List.mem_cons, List.not_mem_nil, or_false] at hc
    rcases hc with rfl | rfl | rfl | rfl
    · exact ⟨_, hinit hm, by rintro rfl; simp at hplace⟩
    · exact ⟨_, htest hm, nofun⟩
    · exact ⟨_, hupdate hm, nofun⟩
    · exact ⟨_, hbody hm, nofun⟩

end HindiScript
