import HindiScript.Proofs.Token.Tiling
import HindiScript.Proofs.Tree.Shape

/-!
# Trees that were read are well formed

Reading leaves parts out, but it never puts a part where it does not belong. `Node.wellFormed` says of a node, by
looking at its own parts only, what may stand in each of them. Every node of a program that was read from a text is
well formed, however many parts of the text could not be read (`wellFormed_of_parseText`).
-/

namespace HindiScript

open Cursor

/-! ## Well-formed nodes -/

namespace Place

/-- The node is of a kind that stands in such places. -/
def holds : Place → Node → Bool
  | .program, .program .. => true
  | .statement, e => e.isStatement
  | .expr, e => e.isExpression
  | .chain, .ident .. | .chain, .call .. | .chain, .member .. => true
  | .block, .block .. => true
  | .condition, .ifStmt .. => true
  | .alternate, .block .. | .alternate, .ifStmt .. => true
  | .declaration, .variableDecl .. => true
  | .function, .functionDecl .. => true
  | _, _ => false

/-- The place `holds` the node, or nothing stands there. -/
def mayHold (place : Place) (e : Node) : Bool := e.isMissing || place.holds e

variable {place : Place} {e : Node}

theorem holds_expr_of_chain (h : Place.chain.holds e = true) : Place.expr.holds e = true := by
  unfold holds at h
  cases e with
  | ident | call | member => rfl
  | _ => cases h

theorem holds_alternate (hp : place = .block ∨ place = .condition) (h : place.holds e = true) :
    Place.alternate.holds e = true := by
  rcases hp with rfl | rfl
  all_goals
    unfold holds at h
    cases e with
    | block | ifStmt => rfl
    | _ => cases h

/-- The places that hold statements of some kinds only. -/
theorem holds_statement (hp : place = .alternate ∨ place = .declaration ∨ place = .function)
    (h : place.holds e = true) : Place.statement.holds e = true := by
  rcases hp with rfl | rfl | rfl
  all_goals
    unfold holds at h
    cases e with
    | block | ifStmt | variableDecl | functionDecl => rfl
    | _ => cases h

/-- What stands anywhere but as the whole is a statement or an expression. -/
theorem isStatement_or_isExpression (hp : place ≠ .program) (h : place.holds e = true) :
    (e.isStatement || e.isExpression) = true := by
  rw [Bool.or_eq_true]
  cases place with
  | program => exact absurd rfl hp
  | statement => exact .inl h
  | expr => exact .inr h
  | chain => exact .inr (holds_expr_of_chain h)
  | alternate => exact .inl (holds_statement (.inl rfl) h)
  | declaration | function => exact .inl (holds_statement (by simp) h)
  | block | condition => exact .inl (holds_statement (.inl rfl) (holds_alternate (by simp) h))

theorem mayHold_or_holds {other : Place} (h : place.mayHold e = true) : (other.mayHold e || place.holds e) = true := by
  unfold mayHold at h ⊢
  cases hm : e.isMissing with
  | true => rfl
  | false =>
    rw [hm, Bool.false_or] at h
    rw [h, Bool.or_true]

end Place

namespace Node

/-- Each part of the node is of a kind that its place can hold (`Place.holds`, `Place.mayHold`). The parts that are
read first are not missing, lists hold nothing that is missing, and names are names. -/
def wellFormed : Node → Bool
  | missing => false
  | program _ body | block _ body => body.all Place.statement.holds
  | variableDecl _ name value kind => name.all isName && Place.expr.mayHold value && (kind = "let" || kind = "const")
  | printStmt _ value | returnStmt _ value | await _ value => Place.expr.mayHold value
  | ifStmt _ test consequent alternate =>
    Place.expr.mayHold test && Place.block.mayHold consequent && Place.alternate.mayHold alternate
  | whileStmt _ test body => Place.expr.mayHold test && Place.block.mayHold body
  | forStmt _ init test update body =>
    (Place.expr.mayHold init || Place.declaration.holds init) && Place.expr.mayHold test && Place.expr.mayHold update
      && Place.block.mayHold body
  | breakStmt _ | continueStmt _ => true
  | exprStmt _ value => Place.expr.holds value
  | functionDecl _ name params body _ =>
    name.all isName && params.any (·.all isName) && Place.block.mayHold body
  | importDecl _ _ names => names.all (·.all isName)
  | exportDecl _ declaration none => Place.declaration.mayHold declaration || Place.function.holds declaration
  | exportDecl _ declaration (some names) => declaration.isMissing && names.length = 1 && names.all isName
  | binary _ operator left right => 0 < precedence operator && Place.expr.holds left && Place.expr.mayHold right
  | assign _ target value => Place.expr.holds target && Place.expr.mayHold value
  | arrow _ params body _ => params.any (·.all isName) && (Place.expr.mayHold body || Place.block.holds body)
  | call _ callee args => Place.chain.holds callee && args.any (·.all Place.expr.holds)
  | member _ object (ident _ name) => Place.chain.holds object && isName name
  | member .. => false
  | literal _ (.number value) => 0 ≤ value
  | literal _ (.string _) => true
  | literal .. => false
  | ident _ name => isName name

end Node

/-! ## What has a shape -/

theorem Shaped.holds {named : String → Prop} {place : Place} {e : Node} (h : Shaped named place e) :
    place.holds e = true := by
  induction h with
  | ofChain _ ih => exact Place.holds_expr_of_chain ih
  | elseIf _ ih => exact Place.holds_alternate (.inr rfl) ih
  | elseBlock _ ih => exact Place.holds_alternate (.inl rfl) ih
  | ofDeclaration _ ih => exact Place.holds_statement (.inr (.inl rfl)) ih
  | ofFunction _ ih => exact Place.holds_statement (.inr (.inr rfl)) ih
  | ofCondition _ ih => exact Place.holds_statement (.inl rfl) (Place.holds_alternate (.inr rfl) ih)
  | ofBlock _ ih => exact Place.holds_statement (.inl rfl) (Place.holds_alternate (.inl rfl) ih)
  | _ => rfl

theorem MayStand.mayHold {named : String → Prop} {place : Place} {e : Node} (h : MayStand named place e) :
    place.mayHold e = true := by
  unfold Place.mayHold
  cases hm : e.isMissing with
  | true => rfl
  | false => exact (h hm).holds

theorem Shaped.wellFormed {place : Place} {e : Node} (h : Shaped (isName · = true) place e) : e.wellFormed = true := by
  induction h with
  | ident hname => exact hname
  | call hcallee hargs =>
    simp only [Node.wellFormed, hcallee.holds, Bool.true_and, Option.any_some, List.all_eq_true]
    exact fun a ha => (hargs a ha).holds
  | member hobject hname => simp only [Node.wellFormed, hobject.holds, hname, Bool.and_self]
  | @number _ value => exact decide_eq_true (Int.natCast_nonneg value)
  | string | breakStmt | continueStmt | exportNothing => rfl
  | ofChain _ ih | elseIf _ ih | elseBlock _ ih | ofDeclaration _ ih | ofFunction _ ih | ofCondition _ ih
  | ofBlock _ ih => exact ih
  | block hbody | program hbody => exact List.all_eq_true.2 fun s hs => (hbody s hs).holds
  | await hpart | printStmt hpart | returnStmt hpart => exact MayStand.mayHold hpart
  | exprStmt hpart => exact hpart.holds
  | binary hlevel hleft hright =>
    simp only [Node.wellFormed, hlevel, hleft.holds, MayStand.mayHold hright, decide_true, Bool.and_self]
  | assign htarget hvalue => simp only [Node.wellFormed, htarget.holds, MayStand.mayHold hvalue, Bool.and_self]
  | arrow hparams hplace hbody =>
    simp only [Node.wellFormed, Option.any_some, List.all_eq_true.2 hparams, Bool.true_and]
    rcases hplace with rfl | rfl
    · simp only [MayStand.mayHold hbody, Bool.true_or]
    · exact Place.mayHold_or_holds (MayStand.mayHold hbody)
  | declaration hkind hname hvalue =>
    simp only [Node.wellFormed, (Option.all_eq_true _ _).2 hname, MayStand.mayHold hvalue, Bool.true_and]
    simpa using hkind
  | function hname hparams hbody =>
    simp only [Node.wellFormed, (Option.all_eq_true _ _).2 hname, Option.any_some, List.all_eq_true.2 hparams,
      MayStand.mayHold hbody, Bool.and_self]
  | condition htest hconsequent halternate =>
    simp only [Node.wellFormed, MayStand.mayHold htest, MayStand.mayHold hconsequent, MayStand.mayHold halternate,
      Bool.and_self]
  | whileStmt htest hbody => simp only [Node.wellFormed, MayStand.mayHold htest, MayStand.mayHold hbody, Bool.and_self]
  | forStmt hplace hinit htest hupdate hbody =>
    simp only [Node.wellFormed, MayStand.mayHold htest, MayStand.mayHold hupdate, MayStand.mayHold hbody,
      Bool.and_true]
    rcases hplace with rfl | rfl
    · exact Place.mayHold_or_holds (MayStand.mayHold hinit)
    · simp only [MayStand.mayHold hinit, Bool.true_or]
  | importDecl hnames => exact (Option.all_eq_true _ _).2 fun ns hns => List.all_eq_true.2 (hnames ns hns)
  | exportDecl hplace hpart =>
    rcases hplace with rfl | rfl
    · simp only [Node.wellFormed, hpart.mayStand.mayHold, Bool.true_or]
    · simp only [Node.wellFormed, hpart.holds, Bool.or_true]
  | exportName hname => simp [Node.wellFormed, Node.isMissing, hname]

/-! ## Names -/

theorem isName_of_spells {text more : List Char} {name : String} (h : Spells text more (.ident name)) :
    isName name = true := by
  have hname := h.ofList_eq
  obtain ⟨hword, husual, hkeyword⟩ := h
  subst hname
  obtain ⟨ch, hch, hstart⟩ := hword.starts
  cases text with
  | nil => cases hch
  | cons first cs =>
    obtain rfl := Option.some.inj hch
    have hlexeme : wordLexeme (String.ofList (first :: cs)) = .ident (String.ofList (first :: cs)) := by
      have := wordLexeme_eq_ident (fun k => husual.symm ▸ hkeyword k)
      rwa [husual] at this
    have hall : cs.all isWordChar = true := List.all_eq_true.2 fun c hc => hword.all c (List.mem_cons_of_mem _ hc)
    simp only [isName, String.toList_ofList, hstart, hall, hlexeme, decide_true, Bool.and_self]

theorem naming_of_tokenize {text : String} {tokens : List Token} (h : tokenize text = .ok tokens) :
    Naming (isName · = true) tokens := by
  intro tok htok name hname
  obtain ⟨cs, more, hs⟩ := exists_spells_of_tokenize h htok
  rw [hname] at hs
  exact isName_of_spells hs

/-! ## Programs -/

theorem Shaped.descendant {named : String → Prop} {place : Place} {e n : Node} (h : Shaped named place e)
    (hn : n ∈ e.descendants) : ∃ place', Shaped named place' n ∧ place' ≠ .program := by
  rw [Node.descendants_eq] at hn
  obtain ⟨c, hc, hn⟩ := List.mem_flatMap.1 hn
  obtain ⟨place', hchild, hp⟩ := h.child hc
  rcases List.mem_cons.1 hn with rfl | hn
  · exact ⟨place', hchild, hp⟩
  · exact hchild.descendant hn
termination_by sizeOf e
decreasing_by exact Node.sizeOf_lt_of_mem_children hc

theorem exists_tokens_of_parseText {text : String} {program : Node} (h : parseText text = .ok program) :
    ∃ tokens, tokenize text = .ok tokens ∧ parse tokens = program := by
  unfold parseText at h
  cases ht : tokenize text with
  | error failure =>
    rw [ht] at h
    cases h
  | ok tokens =>
    rw [ht] at h
    exact ⟨tokens, rfl, Except.ok.inj h⟩

theorem exists_body_of_parseText {text : String} {program : Node} (h : parseText text = .ok program) :
    ∃ body, program = .program none body := by
  obtain ⟨tokens, -, rfl⟩ := exists_tokens_of_parseText h
  exact ⟨_, rfl⟩

theorem shaped_of_parseText {text : String} {program : Node} (h : parseText text = .ok program) :
    Shaped (isName · = true) .program program := by
  obtain ⟨tokens, ht, rfl⟩ := exists_tokens_of_parseText h
  exact shaped_parse (by decide) (naming_of_tokenize ht)

/-- What `parseText` gives is a program. It and all its `descendants` are `wellFormed`, and those below it are
statements and expressions. -/
theorem wellFormed_of_parseText {text : String} {program : Node} (h : parseText text = .ok program) :
    (∃ body, program = .program none body) ∧ program.wellFormed = true ∧
      ∀ n ∈ program.descendants, n.wellFormed = true ∧ (n.isStatement || n.isExpression) = true := by
  have hshape := shaped_of_parseText h
  refine ⟨?_, hshape.wellFormed, ?_⟩
  · obtain ⟨tokens, -, rfl⟩ := exists_tokens_of_parseText h
    exact ⟨_, rfl⟩
  · intro n hn
    obtain ⟨place, hn, hp⟩ := hshape.descendant hn
    exact ⟨hn.wellFormed, Place.isStatement_or_isExpression hp hn.holds⟩

/-- A program that breaks off in most of its parts. -/
def unfinishedSource : String := "agar (a = ) \x7b niryaat y; f(, (b c) => + 1) \x7d nahitoh"

/-- What is read from `unfinishedSource`. -/
def unfinishedProgram : Node :=
  .program none
    [.ifStmt (some 1) (.assign (some 1) (.ident (some 1) "a") .missing)
      (.block (some 1)
        [.exportDecl (some 1) .missing (some ["y"]),
          .exprStmt (some 1)
            (.call (some 1) (.ident (some 1) "f")
              (some [.binary (some 1) "+" (.arrow (some 1) (some ["b", "c"]) .missing false)
                (.literal (some 1) (.number 1))]))])
      (.ifStmt (some 1) .missing .missing .missing)]

theorem wellFormed_unfinished : parseText unfinishedSource = .ok unfinishedProgram ∧
    unfinishedProgram.wellFormed = true ∧
    ∀ n ∈ unfinishedProgram.descendants, n.wellFormed = true ∧ (n.isStatement || n.isExpression) = true := by
  have hparse : parseText unfinishedSource = .ok unfinishedProgram := by
    have htokens : tokenize unfinishedSource =
        .ok [⟨.keyword .agar, 1, 1⟩, ⟨.punct .parenOpen, 1, 6⟩, ⟨.ident "a", 1, 7⟩, ⟨.op "=", 1, 9⟩,
          ⟨.punct .parenClose, 1, 11⟩, ⟨.punct .braceOpen, 1, 13⟩, ⟨.keyword .niryaat, 1, 15⟩, ⟨.ident "y", 1, 23⟩,
          ⟨.punct .semicolon, 1, 24⟩, ⟨.ident "f", 1, 26⟩, ⟨.punct .parenOpen, 1, 27⟩, ⟨.punct .comma, 1, 28⟩,
          ⟨.punct .parenOpen, 1, 30⟩, ⟨.ident "b", 1, 31⟩, ⟨.ident "c", 1, 33⟩, ⟨.punct .parenClose, 1, 34⟩,
          ⟨.op "=>", 1, 36⟩, ⟨.op "+", 1, 39⟩, ⟨.number 1, 1, 41⟩, ⟨.punct .parenClose, 1, 42⟩,
          ⟨.punct .braceClose, 1, 44⟩, ⟨.keyword .nahitoh, 1, 46⟩] := by
      decide +kernel
    rw [parseText, htokens]
    rfl
  exact ⟨hparse, (wellFormed_of_parseText hparse).2⟩

end HindiScript
