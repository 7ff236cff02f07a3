import HindiScript.Bundle.Module
import HindiScript.Proofs.Tree.WellFormed

/-!
# Imports leave no text

A build binds the names that a program imports, so an import has no text of its own. `Node.importFree` is a tree without
the imports in its programs and blocks, however deep these stand: in conditions and loops, in functions, and in arrow
functions inside of expressions. In a program that was read no import stands anywhere else, so all of them are taken out
and nothing but them (`Shaped.descendants_importFree`), and the text is the same as before (`text_eq_text_importFree`).
-/

namespace HindiScript

namespace Node

/-! ## Trees without imports -/

mutual

/-- The tree without the imports among the statements of its programs and blocks. -/
def importFree : Node → Node
  | missing => missing
  | program line body => program line (importFreeBody body)
  | variableDecl line name value kind => variableDecl line name value.importFree kind
  | printStmt line value => printStmt line value.importFree
  | ifStmt line test consequent alternate => ifStmt line test.importFree consequent.importFree alternate.importFree
  | whileStmt line test body => whileStmt line test.importFree body.importFree
  | forStmt line init test update body =>
    forStmt line init.importFree test.importFree update.importFree body.importFree
  | returnStmt line value => returnStmt line value.importFree
  | breakStmt line => breakStmt line
  | continueStmt line => continueStmt line
  | block line body => block line (importFreeBody body)
  | exprStmt line value => exprStmt line value.importFree
  | functionDecl line name params body isAsync => functionDecl line name params body.importFree isAsync
  | importDecl line source names => importDecl line source names
  | exportDecl line declaration names => exportDecl line declaration.importFree names
  | binary line operator left right => binary line operator left.importFree right.importFree
  | assign line target value => assign line target.importFree value.importFree
  | await line value => await line value.importFree
  | arrow line params body isAsync => arrow line params body.importFree isAsync
  | call line callee none => call line callee.importFree none
  | call line callee (some args) => call line callee.importFree (some (importFreeArgs args))
  | member line object property => member line object.importFree property.importFree
  | literal line value => literal line value
  | ident line name => ident line name

def importFreeBody : List Node → List Node
  | [] => []
  | node :: rest => if node.isImport then importFreeBody rest else node.importFree :: importFreeBody rest

def importFreeArgs : List Node → List Node
  | [] => []
  | node :: rest => node.importFree :: importFreeArgs rest

end

theorem importFreeBody_eq (body : List Node) :
    importFreeBody body = (body.filter (!·.isImport)).map importFree := by
  induction body with
  | nil => rfl
  | cons node rest ih => cases h : node.isImport <;> simp [importFreeBody, h, ih]

theorem importFreeArgs_eq_map (args : List Node) : importFreeArgs args = args.map importFree := by
  induction args with
  | nil => rfl
  | cons node rest ih => simp [importFreeArgs, ih]

/-! ## Texts -/

/-- The nodes are of one kind and have the same name, if they have one. So every place takes the same of both. -/
structure SameKind (e e' : Node) : Prop where
  isMissing : e'.isMissing = e.isMissing
  isDeclaration : Place.declaration.holds e' = Place.declaration.holds e
  name? : e'.name? = e.name?
  asExpr (text : String) : e'.asExpr text = e.asExpr text
  asStatement (text : String) : e'.asStatement text = e.asStatement text
  asBlock (text : String) : e'.asBlock text = e.asBlock text
  asAlternate (text : String) : e'.asAlternate text = e.asAlternate text
  asArrowBody (text : String) : e'.asArrowBody text = e.asArrowBody text
  asOperand (operator : Nat) (rightSide : Bool) (text : String) :
    e'.asOperand operator rightSide text = e.asOperand operator rightSide text
  calleeText (text : String) : Node.calleeText e' text = Node.calleeText e text

theorem sameKind_importFree (e : Node) : SameKind e e.importFree := by
  cases e with
  | call line callee args =>
    cases args <;> exact ⟨rfl, rfl, rfl, fun _ => rfl, fun _ => rfl, fun _ => rfl, fun _ => rfl, fun _ => rfl,
      fun _ _ _ => rfl, fun _ => rfl⟩
  | _ => exact ⟨rfl, rfl, rfl, fun _ => rfl, fun _ => rfl, fun _ => rfl, fun _ => rfl, fun _ => rfl, fun _ _ _ => rfl,
      fun _ => rfl⟩

/-- A loop that starts with no declaration takes what stands there as an expression. -/
theorem text_forStmt_of_not {init : Node} (h : Place.declaration.holds init = false) (line : Option Int)
    (test update body : Node) : (forStmt line init test update body).text =
      forText (init.asExpr init.text) (test.asExpr test.text) (update.asExpr update.text) (body.asBlock body.text) := by
  cases init with
  | variableDecl => cases h
  | _ => rfl

mutual

theorem text_importFree (e : Node) : e.importFree.text = e.text := by
  cases e with
  | program line body => exact congrArg ("\n".intercalate ·) (filter_texts_importFreeBody body)
  | block line body => exact congrArg (fun parts => braces ("\n".intercalate parts)) (filter_texts_importFreeBody body)
  | variableDecl line name value kind =>
    have hkind := sameKind_importFree value
    simp only [importFree, text_variableDecl, declarationText, text_importFree value, hkind.isMissing, hkind.asExpr]
  | printStmt line value =>
    simp only [importFree, text_printStmt, text_importFree value, (sameKind_importFree value).asExpr]
  | ifStmt line test consequent alternate =>
    simp only [importFree, text_ifStmt, text_importFree test, text_importFree consequent, text_importFree alternate,
      (sameKind_importFree test).asExpr, (sameKind_importFree consequent).asBlock,
      (sameKind_importFree alternate).asAlternate]
  | whileStmt line test body =>
    simp only [importFree, text_whileStmt, text_importFree test, text_importFree body,
      (sameKind_importFree test).asExpr, (sameKind_importFree body).asBlock]
  | forStmt line init test update body =>
    have hinit := text_importFree init
    have hkind := sameKind_importFree init
    cases hd : Place.declaration.holds init with
    | true =>
      cases init with
      | variableDecl line' name value kind =>
        have hvalue := sameKind_importFree value
        simp only [importFree, text_forStmt_declaration, declarationText, text_importFree value, text_importFree test,
          text_importFree update, text_importFree body, hvalue.isMissing, hvalue.asExpr,
          (sameKind_importFree test).asExpr, (sameKind_importFree update).asExpr, (sameKind_importFree body).asBlock]
      | _ => cases hd
    | false =>
      simp only [importFree, text_forStmt_of_not (hkind.isDeclaration.trans hd), text_forStmt_of_not hd, hinit,
        text_importFree test, text_importFree update, text_importFree body, hkind.asExpr,
        (sameKind_importFree test).asExpr, (sameKind_importFree update).asExpr, (sameKind_importFree body).asBlock]
  | returnStmt line value =>
    have hkind := sameKind_importFree value
    simp only [importFree, text_returnStmt, text_importFree value, hkind.isMissing, hkind.asExpr]
  | exprStmt line value =>
    simp only [importFree, text_exprStmt, text_importFree value, (sameKind_importFree value).asExpr]
  | functionDecl line name params body isAsync =>
    simp only [importFree, text_functionDecl, text_importFree body, (sameKind_importFree body).asBlock]
  | exportDecl line declaration names =>
    have hkind := sameKind_importFree declaration
    simp only [importFree, text_exportDecl, exportedNames, text_importFree declaration, hkind.isMissing,
      hkind.asStatement, hkind.name?]
  | binary line operator left right =>
    simp only [importFree, text_binary, text_importFree left, text_importFree right,
      (sameKind_importFree left).asOperand, (sameKind_importFree right).asOperand]
  | assign line target value =>
    simp only [importFree, text_assign, text_importFree target, text_importFree value,
      (sameKind_importFree target).asExpr, (sameKind_importFree value).asExpr]
  | await line value =>
    simp only [importFree, text_await, text_importFree value, (sameKind_importFree value).asOperand]
  | arrow line params body isAsync =>
    simp only [importFree, text_arrow, text_importFree body, (sameKind_importFree body).asArrowBody]
  | call line callee args =>
    have hcallee := text_importFree callee
    have hkind := sameKind_importFree callee
    cases args with
    | none => simp only [importFree, text_call_none, hcallee, hkind.calleeText]
    | some args => simp only [importFree, text_call, hcallee, hkind.calleeText, argTexts_importFreeArgs args]
  | member line object property =>
    simp only [importFree, text_member, text_importFree object, text_importFree property,
      (sameKind_importFree object).asExpr, (sameKind_importFree property).asExpr]
  | _ => rfl

/-- The statements that `importFreeBody` takes out have empty texts, which are left out anyway. -/
theorem filter_texts_importFreeBody (body : List Node) :
    (texts (importFreeBody body)).filter (· ≠ "") = (texts body).filter (· ≠ "") := by
  cases body with
  | nil => rfl
  | cons node rest =>
    have hrest := filter_texts_importFreeBody rest
    cases h : node.isImport with
    | true =>
      have hempty : node.text = "" := by
        cases node with
        | importDecl => rfl
        | _ => cases h
      simpa [importFreeBody, h, texts, hempty] using hrest
    | false =>
      simp only [importFreeBody, h, Bool.false_eq_true, if_false, texts, text_importFree node, List.filter_cons, hrest]

theorem argTexts_importFreeArgs (args : List Node) : argTexts (importFreeArgs args) = argTexts args := by
  cases args with
  | nil => rfl
  | cons arg rest =>
    simp only [importFreeArgs, argTexts, text_importFree arg, (sameKind_importFree arg).asExpr,
      argTexts_importFreeArgs rest]

end

theorem text_withoutImports (line : Option Int) (body : List Node) :
    (program line body).withoutImports.text = (program line body).text := by
  have htexts : texts (importFreeBody body) = texts (body.filter (!·.isImport)) := by
    simp only [importFreeBody_eq, texts_eq_map, List.map_map]
    exact List.map_congr_left fun node _ => text_importFree node
  have hfilter := filter_texts_importFreeBody body
  rw [htexts] at hfilter
  exact congrArg ("\n".intercalate ·) hfilter

/-! ## What is taken out -/

open children (present)

theorem present_map_importFree (nodes : List Node) :
    present (nodes.map importFree) = (present nodes).map importFree := by
  have hmissing : (fun e : Node => !e.isMissing) ∘ importFree = fun e => !e.isMissing := by
    funext e
    simp [(sameKind_importFree e).isMissing]
  rw [present, present, List.filter_map, hmissing]

theorem present_importFreeBody (body : List Node) :
    present (importFreeBody body) = ((present body).filter (!·.isImport)).map importFree := by
  rw [importFreeBody_eq, present_map_importFree, present, present, List.filter_comm]

/-- Parts that are no imports are all kept. -/
theorem present_importFree (nodes : List Node) (h : ∀ e ∈ nodes, e.isImport = false) :
    present (nodes.map importFree) = ((present nodes).filter (!·.isImport)).map importFree := by
  have hkept : (present nodes).filter (!·.isImport) = present nodes :=
    List.filter_eq_self.2 fun e he => by simp [h e (mem_of_mem_present he)]
  rw [present_map_importFree, hkept]

theorem descendants_of_isImport {e : Node} (h : e.isImport = true) : e.descendants = [] := by
  cases e with
  | importDecl => rw [descendants_eq]; rfl
  | _ => cases h

theorem flatMap_importFree {nodes : List Node}
    (h : ∀ e ∈ nodes, e.importFree.descendants = (e.descendants.filter (!·.isImport)).map importFree) :
    ((nodes.filter (!·.isImport)).map importFree).flatMap (fun e => e :: e.descendants) =
      ((nodes.flatMap fun e => e :: e.descendants).filter (!·.isImport)).map importFree := by
  induction nodes with
  | nil => rfl
  | cons e rest ih =>
    have hrest := ih fun e he => h e (List.mem_cons_of_mem _ he)
    cases hi : e.isImport with
    | true => simpa [hi, descendants_of_isImport hi] using hrest
    | false => simpa [hi, h e List.mem_cons_self] using hrest

end Node

variable {named : String → Prop} {place : Place} {e : Node}

/-- Imports stand among statements only. -/
theorem MayStand.isImport_eq (h : MayStand named place e) (hp : place ≠ .statement) : e.isImport = false := by
  cases e with
  | importDecl =>
    have hholds := (h rfl).holds
    cases place with
    | statement => exact absurd rfl hp
    | _ => cases hholds
  | _ => rfl

namespace Shaped

open Node MayStand

theorem children_importFree (h : Shaped named place e) :
    e.importFree.children = (e.children.filter (!·.isImport)).map importFree := by
  induction h with
  | ident | number | string | breakStmt | continueStmt | importDecl | exportName | exportNothing => rfl
  | ofChain _ ih | elseIf _ ih | elseBlock _ ih | ofDeclaration _ ih | ofFunction _ ih | ofCondition _ ih
  | ofBlock _ ih => exact ih
  | block hbody | program hbody => exact present_importFreeBody _
  | await hpart | declaration _ _ hpart | function _ _ hpart | printStmt hpart | returnStmt hpart =>
    exact present_importFree [_] (by simp [isImport_eq hpart])
  | exprStmt hpart => exact present_importFree [_] (by simp [isImport_eq hpart.mayStand])
  | arrow _ hplace hpart =>
    have hbody := isImport_eq hpart (by rintro rfl; simp at hplace)
    exact present_importFree [_] (by simp [hbody])
  | exportDecl hplace hpart =>
    have hdeclaration := isImport_eq hpart.mayStand (by rintro rfl; simp at hplace)
    exact present_importFree [_] (by simp [hdeclaration])
  | @call _ callee args hcallee hargs =>
    have hkept : ∀ c ∈ callee :: args, c.isImport = false := by
      intro c hc
      rcases List.mem_cons.1 hc with rfl | hc
      · exact isImport_eq hcallee.mayStand nofun
      · exact isImport_eq (hargs c hc).mayStand nofun
    have hchildren := present_importFree (callee :: args) hkept
    rwa [List.map_cons, ← importFreeArgs_eq_map] at hchildren
  | member hobject hname =>
    exact present_importFree [_, _] (by simp [isImport_eq hobject.mayStand, isImport_eq (Shaped.ident hname).mayStand])
  | binary _ hfirst hpart | assign hfirst hpart =>
    exact present_importFree [_, _] (by simp [isImport_eq hfirst.mayStand, isImport_eq hpart])
  | condition htest hconsequent halternate =>
    exact present_importFree [_, _, _]
      (by simp [isImport_eq htest, isImport_eq hconsequent, isImport_eq halternate])
  | whileStmt htest hbody => exact present_importFree [_, _] (by simp [isImport_eq htest, isImport_eq hbody])
  | forStmt hplace hinit htest hupdate hbody =>
    have hstart := isImport_eq hinit (by rintro rfl; simp at hplace)
    exact present_importFree [_, _, _, _]
      (by simp [hstart, isImport_eq htest, isImport_eq hupdate, isImport_eq hbody])

/-- The nodes below `importFree` are those that are no imports, each without the imports in it. -/
theorem descendants_importFree {place : Place} {e : Node} (h : Shaped named place e) :
    e.importFree.descendants = (e.descendants.filter (!·.isImport)).map importFree := by
  rw [descendants_eq, descendants_eq e, h.children_importFree]
  apply flatMap_importFree
  intro c hc
  obtain ⟨place', hchild, -⟩ := h.child hc
  exact hchild.descendants_importFree
termination_by sizeOf e
decreasing_by exact sizeOf_lt_of_mem_children hc

end Shaped

/-! ## Programs -/

open Node

/-- A program that was read has the same `text` without its imports, at every depth (`importFree`) or at the top level
only (`withoutImports`). What is left at every depth are the nodes that are no imports. -/
theorem text_eq_text_importFree {source : String} {program : Node} (h : parseText source = .ok program) :
    program.importFree.text = program.text ∧ program.withoutImports.text = program.text ∧
      program.importFree.descendants = (program.descendants.filter (!·.isImport)).map importFree := by
  have hshape := shaped_of_parseText h
  refine ⟨text_importFree program, ?_, hshape.descendants_importFree⟩
  cases hshape with
  | program => exact text_withoutImports _ _

/-- Imports at the top level, in a block, and alone in an arrow function that is an argument. -/
def importingSource : String := "aayaat 'a' \x7b aayaat 'b' bol x \x7d f(() => \x7b aayaat \x7b x \x7d se 'c' \x7d)"

/-- What is read from `importingSource`, with these statements where the imports stand. -/
def importingProgram (top inBlock inArrow : List Node) : Node :=
  .program none
    (top ++ [.block (some 1) (inBlock ++ [.printStmt (some 1) (.ident (some 1) "x")]),
      .exprStmt (some 1)
        (.call (some 1) (.ident (some 1) "f") (some [.arrow (some 1) (some []) (.block (some 1) inArrow) false]))])

theorem text_eq_text_importFree_nested :
    let program := importingProgram [.importDecl (some 1) (some "a") none] [.importDecl (some 1) (some "b") none]
      [.importDecl (some 1) (some "c") (some ["x"])]
    parseText importingSource = .ok program ∧ program.importFree = importingProgram [] [] [] ∧
      program.importFree.text = program.text ∧ program.withoutImports.text = program.text ∧
      program.importFree.descendants = (program.descendants.filter (!·.isImport)).map importFree := by
  intro program
  have hparse : parseText importingSource = .ok program := by
    have htokens : tokenize importingSource =
        .ok [⟨.keyword .aayaat, 1, 1⟩, ⟨.string "a", 1, 8⟩, ⟨.punct .braceOpen, 1, 12⟩, ⟨.keyword .aayaat, 1, 14⟩,
          ⟨.string "b", 1, 21⟩, ⟨.keyword .bol, 1, 25⟩, ⟨.ident "x", 1, 29⟩, ⟨.punct .braceClose, 1, 31⟩,
          ⟨.ident "f", 1, 33⟩, ⟨.punct .parenOpen, 1, 34⟩, ⟨.punct .parenOpen, 1, 35⟩, ⟨.punct .parenClose, 1, 36⟩,
          ⟨.op "=>", 1, 38⟩, ⟨.punct .braceOpen, 1, 41⟩, ⟨.keyword .aayaat, 1, 43⟩, ⟨.punct .braceOpen, 1, 50⟩,
          ⟨.ident "x", 1, 52⟩, ⟨.punct .braceClose, 1, 54⟩, ⟨.keyword .se, 1, 56⟩, ⟨.string "c", 1, 59⟩,
          ⟨.punct .braceClose, 1, 63⟩, ⟨.punct .parenClose, 1, 64⟩] := by
      decide +kernel
    rw [parseText, htokens]
    rfl
  exact ⟨hparse, rfl, text_eq_text_importFree hparse⟩

end HindiScript
