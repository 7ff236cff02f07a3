import HindiScript.Proofs.Bundle.Bindings
import HindiScript.Proofs.Script.Layout

/-!
# The exports that a text makes

A program fills the table of its exports with lines of one form, one for each name (`exportAssignment`). Exports below
the top level fill it too, but their lines are set in. No other statement has such a line: a statement of several lines
has only its first one at the margin (`Folds.head?_of_mem_tail`), and no statement but an export starts like one, though
an expression may start with any name (`Clear`). So the lines at the margin tell the exports of a program and of a
module (`emittedExports_text`).
-/

namespace HindiScript

open Text Cursor

/-! ## Lines that fill the table -/

/-- What stands before the name in a line that fills the table. -/
def tableStart : String :=
  "var " ++ exportsName ++ " = " ++ exportsName ++ " || \x7b\x7d; " ++ exportsName ++ "[\""

/-- What stands in `line` where one that fills the table has the name. The name stands there twice, and six other
characters stand behind the first one. -/
def namePart (line : List Char) : String :=
  String.ofList ((line.drop tableStart.length).take ((line.length - tableStart.length - 6) / 2))

/-- The name that `line` puts into the table of exports, if it does this and nothing else. -/
def assignedName? (line : List Char) : Option String :=
  if line = (exportAssignment (namePart line)).toList then some (namePart line) else none

/-- The names that the lines of `text` put into the table, in order. -/
def assignedNames (text : String) : List String := (pieces '\n' text.toList).filterMap assignedName?

/-- `assignedNames`, each once, in the order in which they first come. -/
def emittedExports (text : String) : List String := (assignedNames text).eraseDups

theorem toList_exportAssignment (name : String) :
    (exportAssignment name).toList =
      tableStart.toList ++ (name.toList ++ ("\"] = ".toList ++ (name.toList ++ ";".toList))) := by
  unfold exportAssignment tableStart
  rw [String.toList_append, String.toList_append, String.toList_append, String.toList_append]
  rw [List.append_assoc, List.append_assoc, List.append_assoc]

theorem namePart_exportAssignment (name : String) : namePart (exportAssignment name).toList = name := by
  have hrest : "\"] = ".length = 5 ∧ ";".length = 1 := by decide
  have hlength : ((exportAssignment name).toList.length - tableStart.length - 6) / 2 = name.toList.length := by
    rw [toList_exportAssignment]
    simp only [List.length_append, String.length_toList]
    omega
  unfold namePart
  rw [hlength, toList_exportAssignment, ← String.length_toList, List.drop_left, List.take_left, String.ofList_toList]

theorem assignedName?_eq_some_iff {line : List Char} {name : String} :
    assignedName? line = some name ↔ line = (exportAssignment name).toList := by
  unfold assignedName?
  constructor
  · intro h
    split at h
    next hline =>
      obtain rfl := Option.some.inj h
      exact hline
    next => cases h
  · rintro rfl
    rw [namePart_exportAssignment, if_pos rfl]

/-- How a line starts that fills the table. -/
def tableWord : List Char := "var _".toList

theorem tableWord_starts {line : List Char} {name : String} (h : assignedName? line = some name) :
    tableWord <+: line := by
  rw [assignedName?_eq_some_iff.1 h, toList_exportAssignment]
  have hstart : tableWord <+: tableStart.toList := by decide
  exact hstart.trans (List.prefix_append ..)

/-! ## Lines of a text -/

theorem assignedNames_empty : assignedNames "" = [] := by
  have hline : assignedName? [] = none := by
    rw [Option.eq_none_iff_forall_ne_some]
    intro name h
    exact absurd (tableWord_starts h) (by decide)
  have hpieces : pieces '\n' "".toList = [[]] := rfl
  rw [assignedNames, hpieces, List.filterMap_cons, hline]
  rfl

theorem assignedNames_intercalate (parts : List String) :
    assignedNames ("\n".intercalate parts) = parts.flatMap assignedNames := by
  cases parts with
  | nil => exact assignedNames_empty
  | cons part rest =>
    induction rest generalizing part with
    | nil => rw [String.intercalate_singleton, List.flatMap_singleton]
    | cons next rest ih =>
      have htext : ("\n".intercalate (part :: next :: rest)).toList =
          part.toList ++ '\n' :: ("\n".intercalate (next :: rest)).toList := by
        rw [String.intercalate_cons_cons]
        simp
      rw [List.flatMap_cons, ← ih next, assignedNames, htext, pieces_append, List.filterMap_append]
      rfl

theorem assignedNames_joinLines (parts : List String) :
    assignedNames (joinLines parts) = parts.flatMap assignedNames := by
  rw [joinLines, assignedNames_intercalate]
  induction parts with
  | nil => rfl
  | cons part rest ih =>
    rw [List.flatMap_cons, List.filter_cons]
    split
    next => rw [List.flatMap_cons, ih]
    next h =>
      have hempty : part = "" := by simpa using h
      rw [hempty, assignedNames_empty, List.nil_append, ih]

theorem assignedNames_exportAssignment {name : String} (h : isName name = true) :
    assignedNames (exportAssignment name) = [name] := by
  have hname := Layout.not_mem_name h
  have hstart : '\n' ∉ tableStart.toList := by decide
  have hflat : '\n' ∉ (exportAssignment name).toList := by
    rw [toList_exportAssignment]
    simp [hname, hstart]
  rw [assignedNames, pieces_of_not_mem hflat, List.filterMap_cons, assignedName?_eq_some_iff.2 rfl]
  rfl

theorem assignedNames_exportAssignments {names : List String} (h : ∀ n ∈ names, isName n = true) :
    (names.map exportAssignment).flatMap assignedNames = names := by
  induction names with
  | nil => rfl
  | cons name rest ih =>
    rw [List.forall_mem_cons] at h
    rw [List.map_cons, List.flatMap_cons, assignedNames_exportAssignment h.1, ih h.2, List.singleton_append]

/-- A text that `Folds` fills no table if it does not start like a line that does. -/
theorem assignedNames_of_folds {text : String} (h : Folds text.toList) (hstart : ¬ tableWord <+: text.toList) :
    assignedNames text = [] := by
  unfold assignedNames
  rw [List.filterMap_eq_nil_iff]
  intro line hline
  cases hname : assignedName? line with
  | none => rfl
  | some name =>
    exfalso
    have hword := tableWord_starts hname
    cases hp : pieces '\n' text.toList with
    | nil => exact pieces_ne_nil _ _ hp
    | cons first more =>
      rw [hp] at hline
      rcases List.mem_cons.1 hline with rfl | hmore
      · -- The first line is a start of the text.
        have hsplit := cons_eq_flatMap_pieces '\n' text.toList
        rw [hp, List.flatMap_cons, List.cons_append, List.cons_inj_right] at hsplit
        rw [hsplit] at hstart
        exact hstart (hword.trans (List.prefix_append ..))
      · have hhead : line.head? = some 'v' := by
          obtain ⟨rest, rfl⟩ := hword
          rfl
        have htail := @Folds.head?_of_mem_tail _ h [] line List.not_mem_nil
        rw [List.nil_append, hp, hhead] at htail
        rcases htail hmore with hc | hc <;> exact absurd (Option.some.inj hc) (by decide)

/-! ## How statements start -/

namespace Layout

/-- Whatever follows the text, it does not start like a line that fills the table. -/
def Unlike (t : String) : Prop := ∀ more, ¬ tableWord <+: t.toList ++ more

/-- As `Unlike`, if no character of a word follows, and no underscore behind a space. -/
def Clear (t : String) : Prop := ∀ more, Boundary more → ¬ [' ', '_'] <+: more → ¬ tableWord <+: t.toList ++ more

/-- The text starts with some other character than a line that fills the table. -/
def differs (t : String) : Bool := t.toList.head?.any (· ≠ 'v')

/-- The text separates what stands before it from what follows. -/
def separates (t : String) : Bool :=
  t.toList.head?.any (!isWordChar ·) && (t.toList.head? ≠ some ' ' || (t.toList.drop 1).head?.any (· ≠ '_'))

section

variable {s t : String}

theorem Unlike.append (h : Unlike s) (t : String) : Unlike (s ++ t) := by
  intro more
  rw [String.toList_append, List.append_assoc]
  exact h _

theorem Unlike.not_starts (h : Unlike t) : ¬ tableWord <+: t.toList := by
  have hnil := h []
  rwa [List.append_nil] at hnil

theorem Unlike.clear (h : Unlike t) : Clear t := fun more _ _ => h more

theorem unlike_of_differs (h : differs t = true) : Unlike t := by
  intro more hprefix
  unfold differs at h
  cases hc : t.toList with
  | nil =>
    rw [hc] at h
    cases h
  | cons c cs =>
    rw [hc] at h hprefix
    obtain ⟨rfl, -⟩ := List.cons_prefix_cons.1 (show 'v' :: "ar _".toList <+: c :: (cs ++ more) from hprefix)
    simp at h

theorem unlike_append_of_differs (h : differs s = true) (t : String) : Unlike (s ++ t) := (unlike_of_differs h).append t

/-- Behind a text that separates it from the rest, anything may follow. -/
theorem Clear.unlike_append (h : Clear s) (ht : separates t = true) : Unlike (s ++ t) := by
  intro more
  rw [String.toList_append, List.append_assoc]
  unfold separates at ht
  cases hc : t.toList with
  | nil =>
    rw [hc] at ht
    cases ht
  | cons c cs =>
    rw [hc] at ht
    obtain ⟨hword, hspace⟩ : isWordChar c = false ∧ (c ≠ ' ' ∨ cs.head?.any (· ≠ '_') = true) := by simpa using ht
    refine h _ (Boundary.cons hword _) fun hprefix => ?_
    obtain ⟨rfl, hrest⟩ := List.cons_prefix_cons.1 hprefix
    rcases hspace with hspace | hnext
    · exact hspace rfl
    · cases cs with
      | nil => cases hnext
      | cons d ds =>
        obtain ⟨rfl, -⟩ := List.cons_prefix_cons.1 hrest
        simp at hnext

/-- If a word and a space start with another word, what follows that one is the space. -/
theorem space_follows {word cs rest more : List Char} (hword : ∀ c ∈ word, isWordChar c = true)
    (hcs : ∀ c ∈ cs, isWordChar c = true) (hmore : Boundary more) (h : word ++ ' ' :: rest <+: cs ++ more) :
    ' ' :: rest <+: more := by
  induction word generalizing cs with
  | nil =>
    cases cs with
    | nil => exact h
    | cons c cs =>
      obtain ⟨rfl, -⟩ := List.cons_prefix_cons.1 h
      exact absurd (hcs ' ' List.mem_cons_self) (by decide)
  | cons a word ih =>
    rw [List.forall_mem_cons] at hword
    cases cs with
    | nil =>
      obtain ⟨rest', rfl⟩ := h
      exact absurd hword.1 (by simp [hmore a rfl])
    | cons c cs =>
      rw [List.forall_mem_cons] at hcs
      exact ih hword.2 hcs.2 (List.cons_prefix_cons.1 h).2

/-- A name may be the first word of a line that fills the table, but then an underscore must follow behind a space. -/
theorem clear_name (h : isName t = true) : Clear t := by
  intro more hmore hspace hprefix
  have hvar : "var".toList.all isWordChar = true := by decide
  exact hspace (space_follows (List.all_eq_true.1 hvar) (fun c hc => isWordChar_of_mem_name h hc) hmore hprefix)

end

/-! ## Trees -/

section

open Node

variable {named : String → Prop} {e : Node}

theorem unlike_number (value : Nat) : Unlike (toString value) := by
  apply unlike_of_differs
  unfold differs
  rw [Nat.toString_eq_ofList_toDigits, String.toList_ofList]
  cases hc : Nat.toDigits 10 value with
  | nil => exact absurd hc Nat.toDigits_ne_nil
  | cons c cs =>
    have hdigit : c.isDigit = true := Nat.isDigit_of_mem_toDigits (by decide) (by decide) (hc ▸ List.mem_cons_self)
    have hne : c ≠ 'v' := by
      rintro rfl
      exact absurd hdigit (by decide)
    simpa using hne

theorem unlike_quote (text : String) : Unlike (Json.quote text) := by
  apply unlike_of_differs
  unfold differs Json.quote
  rw [String.toList_ofList]
  rfl

theorem unlike_asyncText {t : String} (h : Unlike t) (isAsync : Bool) : Unlike (asyncText isAsync ++ t) := by
  cases isAsync with
  | true => exact unlike_append_of_differs (by decide) t
  | false =>
    rw [asyncText, if_neg (by decide), String.empty_append]
    exact h

theorem separates_operator {symbol : String} (h : 0 < precedence symbol) : separates (" " ++ symbol) = true := by
  have hall : (shortOperators ++ longOperators).all (fun s => separates (" " ++ s)) = true := by decide +kernel
  exact List.all_eq_true.1 hall symbol (mem_operators h)

theorem clear_asOperand (h : Shaped named .expr e) (ht : Clear e.text) (operator : Nat) (rightSide : Bool) :
    Clear (e.asOperand operator rightSide e.text) := by
  have hparenthesis : Unlike ("(" ++ e.text ++ ")") := (unlike_append_of_differs (by decide) _).append _
  unfold asOperand
  rw [h.asExpr_eq]
  split
  · split
    · exact hparenthesis.clear
    · exact ht
  · exact ht

theorem clear_calleeText (h : Shaped named .chain e) (ht : Clear e.text) : Clear (calleeText e e.text) := by
  cases h with
  | @ident line name =>
    change Clear (if name = fetchName then fetchHelper else name)
    split
    · exact clear_name fetchHelper_isName
    · exact ht
  | _ => exact ht

/-- An expression starts with a name that something follows, or unlike a line that fills the table. -/
theorem clear_of_shaped {place : Place} (h : Shaped (isName · = true) place e) (hp : place = .chain ∨ place = .expr) :
    Clear e.text := by
  induction h with
  | ident hname => exact clear_name hname
  | call hcallee _ ih _ =>
    have hcalled := clear_calleeText hcallee (ih (.inl rfl))
    have hstart := hcalled.unlike_append (show separates "(" = true by decide)
    rw [text_call]
    exact ((hstart.append _).append _).clear
  | member hobject _ ih =>
    have hstart := (ih (.inl rfl)).unlike_append (show separates "." = true by decide)
    rw [text_member, (Shaped.ofChain hobject).asExpr_eq]
    exact (hstart.append _).clear
  | ofChain _ ih => exact ih (.inl rfl)
  | number => exact (unlike_number _).clear
  | string => exact (unlike_quote _).clear
  | await _ _ => exact (unlike_append_of_differs (by decide) _).clear
  | @binary line symbol left right hlevel hleft _ ihl _ =>
    have hoperand := clear_asOperand hleft (ihl (.inr rfl)) (precedence symbol) false
    have hstart := hoperand.unlike_append (separates_operator hlevel)
    rw [← String.append_assoc] at hstart
    rw [text_binary]
    exact ((hstart.append _).append _).clear
  | assign htarget _ iht _ =>
    have hstart := (iht (.inr rfl)).unlike_append (show separates " = " = true by decide)
    rw [text_assign, htarget.asExpr_eq]
    exact (hstart.append _).clear
  | @arrow line params body isAsync _ _ _ _ _ =>
    have hparams : Unlike (paramsText (some params)) := (unlike_append_of_differs (by decide) _).append _
    rw [text_arrow]
    exact (((unlike_asyncText hparams isAsync).append _).append _).clear
  | _ => rcases hp with hp | hp <;> cases hp

theorem unlike_declaration (h : Shaped named .declaration e) : Unlike e.text := by
  cases h with
  | @declaration line name value kind _ _ _ =>
    have hkind : Unlike (if kind = "const" then "const" else "let") := by
      split <;> exact unlike_of_differs (by decide)
    exact (((hkind.append _).append _).append _).append _

theorem unlike_function (h : Shaped named .function e) : Unlike e.text := by
  cases h with
  | @function line name params body isAsync _ _ _ =>
    have hword : Unlike (asyncText isAsync ++ "function ") := unlike_asyncText (unlike_of_differs (by decide)) isAsync
    rw [text_functionDecl]
    exact (((hword.append _).append _).append _).append _

theorem unlike_condition (h : Shaped named .condition e) : Unlike e.text := by
  cases h with
  | condition =>
    rw [text_ifStmt]
    exact (((unlike_append_of_differs (by decide) _).append _).append _).append _

theorem unlike_block (h : Shaped named .block e) : Unlike e.text := by
  cases h with
  | @block line body _ =>
    change Unlike (braces (joinLines (texts body)))
    unfold braces
    split
    · exact unlike_of_differs (by decide)
    · exact (unlike_append_of_differs (by decide) _).append _

end

end Layout

/-! ## Programs -/

section

open Node Layout

variable {named : String → Prop} {e : Node}

/-- The lines of a statement fill the table with its `exportedNames`. -/
theorem assignedNames_statement (h : Shaped (isName · = true) .statement e) :
    assignedNames e.text = exportedNames e := by
  have hlaid : ∀ t ∈ paragraphs e, Whole t := laid_of_shaped h
  have hnothing {t : String} (ht : t ∈ paragraphs e) (hstart : Unlike t) : assignedNames t = [] :=
    assignedNames_of_folds (hlaid t ht).folds hstart.not_starts
  cases h with
  | ofDeclaration h =>
    have hstart := unlike_declaration h
    cases h
    exact hnothing List.mem_cons_self hstart
  | ofFunction h =>
    have hstart := unlike_function h
    cases h
    exact hnothing List.mem_cons_self hstart
  | ofCondition h =>
    have hstart := unlike_condition h
    cases h
    exact hnothing List.mem_cons_self hstart
  | ofBlock h =>
    have hstart := unlike_block h
    cases h
    exact hnothing List.mem_cons_self hstart
  | printStmt =>
    refine hnothing List.mem_cons_self ?_
    rw [text_printStmt]
    exact (unlike_append_of_differs (by decide) _).append _
  | whileStmt =>
    refine hnothing List.mem_cons_self ?_
    rw [text_whileStmt]
    exact ((unlike_append_of_differs (by decide) _).append _).append _
  | @forStmt line init test update body =>
    obtain ⟨start, htext⟩ := text_forStmt line init test update body
    have hstart : Unlike (forStmt line init test update body).text := by
      rw [htext, forText]
      exact ((((((unlike_append_of_differs (by decide) _).append _).append _).append _).append _).append _).append _
    exact hnothing List.mem_cons_self hstart
  | returnStmt =>
    refine hnothing List.mem_cons_self ?_
    rw [text_returnStmt]
    split
    · exact unlike_of_differs (by decide)
    · exact (unlike_append_of_differs (by decide) _).append _
  | breakStmt => exact hnothing List.mem_cons_self (unlike_of_differs (show differs "break;" = true by decide))
  | continueStmt => exact hnothing List.mem_cons_self (unlike_of_differs (show differs "continue;" = true by decide))
  | exprStmt hpart =>
    refine hnothing List.mem_cons_self ?_
    rw [text_exprStmt, hpart.asExpr_eq]
    exact (clear_of_shaped hpart (.inr rfl)).unlike_append (by decide)
  | importDecl | exportNothing => exact assignedNames_empty
  | exportName hname =>
    exact (assignedNames_intercalate _).trans (assignedNames_exportAssignments (List.forall_mem_singleton.2 hname))
  | @exportDecl line declaration place hplace hpart =>
    have hstart : Unlike declaration.text := by
      rcases hplace with rfl | rfl
      · exact unlike_declaration hpart
      · exact unlike_function hpart
    have hparagraphs : paragraphs (exportDecl line declaration none) =
        declaration.text :: (exportedNames (exportDecl line declaration none)).map exportAssignment := by
      rw [paragraphs, hpart.isMissing_eq, if_neg (by decide), hpart.asStatement_eq hplace]
      rfl
    rw [hparagraphs] at hnothing
    rw [text_eq_paragraphs, assignedNames_intercalate, hparagraphs, List.flatMap_cons,
      hnothing List.mem_cons_self hstart, List.nil_append]
    exact assignedNames_exportAssignments fun n hn => isName_of_mem_exportedNames hplace hpart hn

theorem assignedNames_program (h : Shaped (isName · = true) .program e) :
    assignedNames e.text = e.body.flatMap exportedNames := by
  cases h with
  | @program line body hbody =>
    change assignedNames (joinLines (texts body)) = body.flatMap exportedNames
    rw [assignedNames_joinLines, texts_eq_map, List.flatMap_map]
    exact List.flatMap_congr fun s hs => assignedNames_statement (hbody s hs)

theorem exports_eq_eraseDups (program : Node) : program.exports = (program.body.flatMap exportedNames).eraseDups := by
  rw [exports, Bundle.foldl_add_eq, List.nil_append]
  simp [List.removeAll]

theorem emittedExports_program (h : Shaped (isName · = true) .program e) : emittedExports e.text = e.exports := by
  rw [emittedExports, assignedNames_program h, exports_eq_eraseDups]

theorem shaped_withoutImports (h : Shaped named .program e) : Shaped named .program e.withoutImports := by
  cases h with
  | program hbody => exact .program fun s hs => hbody s (List.mem_filter.1 hs).1

theorem isName_of_mem_listedNames (h : Shaped (isName · = true) .program e) {s : Node} (hs : s ∈ e.body)
    {name : String} (hname : name ∈ Bundle.listedNames s) : isName name = true := by
  cases h with
  | program hbody =>
    have hstatement := hbody s hs
    cases hstatement with
    | @importDecl line source names hnames =>
      cases names with
      | none => cases hname
      | some names => exact hnames names rfl name hname
    | ofDeclaration h | ofFunction h | ofCondition h | ofBlock h =>
      cases h
      cases hname
    | _ => cases hname

end

/-! ## Modules -/

namespace Bundle

open Layout

/-- A binding is one line and fills no table. -/
theorem assignedNames_binding {b : Binding} {number : Nat} (hname : isName b.name = true)
    (hvar : b.varName = varStem ++ toString number) : assignedNames b.text = [] := by
  have hname : Folds b.name.toList := .flat (not_mem_name hname)
  have hvar : Folds b.varName.toList := by
    rw [hvar]
    exact folds_append (.flat (by decide)) (tidy_number number).folds
  have hfolds : Folds b.text.toList := by
    have hleft : Folds ("const " ++ b.name ++ " = ").toList :=
      folds_append (folds_append (.flat (by decide)) hname) (.flat (by decide))
    have hright : Folds ("const " ++ b.name ++ " = " ++ b.varName ++ "[\"").toList :=
      folds_append (folds_append hleft hvar) (.flat (by decide))
    exact folds_append (folds_append hright hname) (.flat (by decide))
  have hstart : Unlike b.text :=
    (((((unlike_append_of_differs (by decide) _).append _).append _).append _).append _).append _
  exact assignedNames_of_folds hfolds hstart.not_starts

theorem shaped_of_program {ws : Workspace} {path : String} {program : Node} (h : ws.program? path = some program) :
    Shaped (isName · = true) .program program := by
  unfold Workspace.program? at h
  split at h
  next source hread =>
    cases hparse : parseText source with
    | ok program' =>
      rw [hparse] at h
      obtain rfl : program' = program := Option.some.inj h
      exact shaped_of_parseText hparse
    | error =>
      rw [hparse] at h
      cases h
  next => cases h

theorem emittedExports_of_build {ws : Workspace} {source : String} {root : Option String} {spec : Option Typing.Spec}
    {s s' : State} {r : Result} (h : build ws source root spec s = .ok r s') {m : Module} (hm : m ∈ r.modules) :
    emittedExports m.output = m.exports := by
  obtain ⟨i, hi⟩ := List.mem_iff_getElem?.1 hm
  obtain ⟨program, hp, hmodule⟩ := (linked_of_build h).1 i m hi
  generalize hbindings : ws.bindings (some m.path) (r.modules.take i) [] program.body = bindings at hmodule
  have hprogram : m.program = program.withoutImports := congrArg Module.program hmodule
  have houtput : m.output = joinLines (bindings.map Binding.text ++ [program.withoutImports.text]) :=
    congrArg Module.output hmodule
  have hshape := shaped_of_program hp
  have hsilent : ∀ b ∈ bindings, assignedNames b.text = [] := by
    intro b hb
    rw [← hbindings] at hb
    obtain ⟨j, -, _, node, -, hvar, hnode, hname, -⟩ := refers_of_mem_bindings (wellLinked_of_build h).numbered hb
    exact assignedNames_binding (isName_of_mem_listedNames hshape hnode hname) hvar
  have hlines : assignedNames m.output = assignedNames program.withoutImports.text := by
    rw [houtput, assignedNames_joinLines, List.flatMap_append, List.flatMap_map, List.flatMap_singleton,
      List.flatMap_eq_nil_iff.2 hsilent, List.nil_append]
  rw [emittedExports, hlines, Module.exports, hprogram]
  exact emittedExports_program (shaped_withoutImports hshape)

end Bundle

/-- The names that the lines of `program.text` put into the table of exports are `program.exports`, in the order in
which they first come. The same holds of every module of a build and its `output`. -/
theorem emittedExports_text :
    (∀ source program, parseText source = .ok program → emittedExports program.text = program.exports) ∧
    (∀ ws path checkTypes s r s', Bundle.compileFile ws path checkTypes s = .ok r s' →
      ∀ m ∈ r.modules, emittedExports m.output = m.exports) ∧
    ∀ ws source spec s r s', Bundle.compileSource ws source spec s = .ok r s' →
      ∀ m ∈ r.modules, emittedExports m.output = m.exports := by
  refine ⟨fun source program h => emittedExports_program (shaped_of_parseText h), ?_, ?_⟩
  · intro ws path checkTypes s r s' h m hm
    obtain ⟨_, _, _, -, -, hbuild⟩ := Bundle.compileFile_eq_ok h
    exact Bundle.emittedExports_of_build hbuild hm
  · intro ws source spec s r s' h m hm
    obtain ⟨_, _, -, hbuild⟩ := Bundle.bind_eq_ok h
    exact Bundle.emittedExports_of_build hbuild hm

/-- A program that exports a name twice, a declaration without a name and a function with an export inside, and has
statements and a literal that look like exports. -/
def exportingSource : String :=
  "var niryaat ye x = 1 niryaat x niryaat ye = 2 niryaat karya f() \x7b niryaat y \x7d bol '\nvar __shar_exports'"

/-- A program that imports `exportingSource`. -/
def exporting : Bundle.Workspace :=
  { files := { contents := .ofList [("/work/m", .text "aayaat \x7bx\x7d se 'a'"),
      ("/work/a", .text exportingSource)] } }

theorem emittedExports_text_exporting :
    (∃ program, parseText exportingSource = .ok program ∧ program.exports = ["x", "f"] ∧
      emittedExports program.text = ["x", "f"]) ∧
    ∃ r s', Bundle.compileFile exporting "m" false {} = .ok r s' ∧
      r.modules.map Bundle.Module.exports = [["x", "f"]] ∧
      r.modules.map (emittedExports ·.output) = [["x", "f"]] := by
  have hparse : (parseText exportingSource).toOption.map Node.exports = some ["x", "f"] := by decide +kernel
  have hcompile : ((Bundle.compileFile exporting "m" false).run' {}).map
      (fun r => r.modules.map Bundle.Module.exports) = some [["x", "f"]] := by
    decide +kernel
  obtain ⟨htext, hfile, -⟩ := emittedExports_text
  constructor
  · cases hresult : parseText exportingSource with
    | error e =>
      rw [hresult] at hparse
      cases hparse
    | ok program =>
      rw [hresult] at hparse
      have hexports : program.exports = ["x", "f"] := Option.some.inj hparse
      exact ⟨program, rfl, hexports, (htext _ program hresult).trans hexports⟩
  · obtain ⟨r, s', hr, hexports⟩ := Bundle.exists_ok_of_run' hcompile
    refine ⟨r, s', hr, hexports, ?_⟩
    rw [← hexports]
    exact List.map_congr_left fun m hm => hfile _ _ _ _ _ _ hr m hm

end HindiScript
