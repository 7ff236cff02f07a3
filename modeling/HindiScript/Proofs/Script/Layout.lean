import HindiScript.Proofs.Script.Grouping
import HindiScript.Proofs.Script.Literals
import HindiScript.Proofs.Text.Alignment
import HindiScript.Proofs.Tree.WellFormed

/-!
# The layout of a program's text

Blocks stand not only behind conditions and loops but also in expressions, behind arrows. Wherever they stand, the
lines of the text of a program that was read are set in by four spaces for each block around them
(`scanLines_text`). It is shown for each kind of tree that its text folds, and so may stand in the middle of a line.
-/

namespace HindiScript

open Text Cursor

namespace Layout

/-! ## Texts that stand in a line -/

/-- The text starts with a character that is not blank and closes no block. -/
def begins (t : String) : Bool := t.toList.head?.any fun c => !isBlank c && c ≠ '\x7d'

/-- The text does not end with a character that opens a block. -/
def ends (t : String) : Bool := t.toList.getLast? ≠ some '\x7b'

/-- A text that may stand at the start of a line. -/
structure Tidy (t : String) : Prop where
  folds : Folds t.toList
  begins : begins t = true

/-- A text that may stand as lines of its own. -/
structure Whole (t : String) : Prop extends Tidy t where
  ends : ends t = true

section

variable {s t : String}

theorem folds_append (hs : Folds s.toList) (ht : Folds t.toList) : Folds (s ++ t).toList := by
  rw [String.toList_append]
  exact hs.append ht

theorem begins_append (h : begins s = true) (t : String) : begins (s ++ t) = true := by
  unfold begins at h ⊢
  rw [String.toList_append, List.head?_append]
  cases hs : s.toList.head? with
  | none =>
    rw [hs] at h
    cases h
  | some c =>
    rw [hs] at h
    exact h

theorem ends_append (hs : ends s = true) (ht : ends t = true) : ends (s ++ t) = true := by
  unfold ends at hs ht ⊢
  rw [String.toList_append, List.getLast?_append]
  cases hl : t.toList.getLast? with
  | none => exact hs
  | some c => rwa [hl] at ht

/-- A text that is not empty decides itself how a longer one ends. -/
theorem ends_append_of_ne (s : String) (hne : t ≠ "") (ht : ends t = true) : ends (s ++ t) = true := by
  have hne' : t.toList ≠ [] := by simpa using hne
  unfold ends at ht ⊢
  rwa [String.toList_append, List.getLast?_append_of_ne_nil _ hne']

theorem Tidy.append (h : Tidy s) (ht : Folds t.toList) : Tidy (s ++ t) :=
  ⟨folds_append h.folds ht, begins_append h.begins t⟩

theorem tidy_word (h : '\n' ∉ t.toList ∧ begins t = true) : Tidy t := ⟨.flat h.1, h.2⟩

/-- A text that begins with a tidy one is as whole as its end. -/
theorem Tidy.whole_append (h : Tidy s) (ht : Whole t) : Whole (s ++ t) := by
  have hne : t ≠ "" := by
    rintro rfl
    exact absurd ht.begins (by decide)
  exact ⟨h.append ht.folds, ends_append_of_ne s hne ht.ends⟩

theorem Tidy.semicolon (h : Tidy t) : Whole (t ++ ";") :=
  ⟨h.append (.flat (by decide)), ends_append_of_ne t (by decide) (by decide)⟩

/-- The lines of a `Whole` text stand outside of all blocks, or in blocks of it. -/
theorem Whole.aligned (h : Whole t) : Aligned 0 (pieces '\n' t.toList) 0 := by
  have hbegins := h.begins
  unfold Layout.begins at hbegins
  cases hc : t.toList.head? with
  | none =>
    rw [hc] at hbegins
    cases hbegins
  | some c =>
    simp only [hc, Option.any_some, Bool.and_eq_true, Bool.not_eq_true', decide_eq_true_eq] at hbegins
    have hlines := @Folds.aligned _ h.folds c hbegins.1 [] List.not_mem_nil hc (of_decide_eq_true h.ends)
    rwa [if_neg hbegins.2] at hlines

end

/-! ## Lines -/

/-- No line, or lines that start and end outside of all blocks. -/
def Lined (t : String) : Prop := t = "" ∨ Aligned 0 (pieces '\n' t.toList) 0

theorem lined_intercalate {parts : List String} (h : ∀ t ∈ parts, Aligned 0 (pieces '\n' t.toList) 0) :
    Lined ("\n".intercalate parts) := by
  cases parts with
  | nil => exact .inl rfl
  | cons part rest =>
    refine .inr ?_
    induction rest generalizing part with
    | nil =>
      rw [String.intercalate_singleton]
      exact h part List.mem_cons_self
    | cons next rest ih =>
      rw [List.forall_mem_cons] at h
      have htext : ("\n".intercalate (part :: next :: rest)).toList =
          part.toList ++ '\n' :: ("\n".intercalate (next :: rest)).toList := by
        rw [String.intercalate_cons_cons]
        simp
      rw [htext, pieces_append]
      exact h.1.append (ih next h.2)

theorem lined_joinLines {parts : List String} (h : ∀ t ∈ parts, Lined t) : Lined (joinLines parts) := by
  refine lined_intercalate fun t ht => ?_
  obtain ⟨ht, hne⟩ := List.mem_filter.1 ht
  exact (h t ht).resolve_left (by simpa using hne)

theorem toList_braces {inner : String} (h : inner ≠ "") : (braces inner).toList =
    "\x7b\n".toList ++ (lines inner.toList).flatMap (setIn blockMargin.toList) ++ "\n\x7d".toList := by
  rw [braces, if_neg h, String.toList_append, String.toList_append, toList_indent]

/-- `Lined` text in `braces` is a block. -/
theorem Lined.whole_braces {inner : String} (h : Lined inner) : Whole (braces inner) := by
  unfold braces
  split
  · refine ⟨⟨?_, by decide⟩, by decide⟩
    exact @Folds.fold [] [] [] List.not_mem_nil nofun nofun (.nil 1) (.flat List.not_mem_nil)
  · next hne =>
    have hinner := h.resolve_left hne
    have hset : ∀ l ∈ (pieces '\n' inner.toList).map (setInLines blockMargin.toList), l.head? = some ' ' := by
      refine List.forall_mem_map.2 fun l hl => head?_setInLines (by decide) (hinner.visible l hl)
    have hlines := @Aligned.setIn _ _ _ blockMargin (by decide) hinner
    rw [← pieces_setInLines (by decide)] at hset hlines
    have htext : ("\x7b\n" ++ indent blockMargin inner ++ "\n\x7d").toList =
        [] ++ '\x7b' :: ((pieces '\n' (setInLines blockMargin.toList inner.toList)).flatMap ('\n' :: ·) ++
          '\n' :: '\x7d' :: []) := by
      rw [← cons_eq_flatMap_pieces, String.toList_append, String.toList_append, toList_indent]
      rfl
    refine ⟨⟨?_, begins_append (begins_append (by decide) _) _⟩, ends_append_of_ne _ (by decide) (by decide)⟩
    rw [htext]
    exact .fold List.not_mem_nil (fun l hl => not_mem_of_mem_pieces hl) hset hlines (.flat List.not_mem_nil)

/-! ## Parts of lines -/

theorem not_mem_name {name : String} (h : isName name = true) : '\n' ∉ name.toList := by
  intro hmem
  have hword := isWordChar_of_mem_name h hmem
  exact absurd hword (by decide)

theorem tidy_name {name : String} (h : isName name = true) : Tidy name := by
  refine ⟨.flat (not_mem_name h), ?_⟩
  obtain ⟨ch, cs, htext, hstart, -⟩ := exists_cons_of_isName h
  simp only [begins, htext, List.head?_cons, Option.any_some]
  rcases Bool.or_eq_true_iff.1 hstart with hletter | hline
  · have hbrace : ch ≠ '\x7d' := by
      rintro rfl
      exact absurd hletter (by decide)
    simp [isBlank_of_isLetter hletter, hbrace]
  · rw [of_decide_eq_true hline]
    decide

theorem tidy_number (value : Nat) : Tidy (toString value) := by
  rw [Nat.toString_eq_ofList_toDigits]
  have hdigit {c : Char} (hc : c ∈ Nat.toDigits 10 value) : c.isDigit = true :=
    Nat.isDigit_of_mem_toDigits (by decide) (by decide) hc
  refine ⟨.flat ?_, ?_⟩
  · rw [String.toList_ofList]
    exact fun hmem => absurd (hdigit hmem) (by decide)
  · cases hc : Nat.toDigits 10 value with
    | nil => exact absurd hc Nat.toDigits_ne_nil
    | cons c cs =>
      have hfirst : c.isDigit = true := hdigit (hc ▸ List.mem_cons_self)
      have hbrace : c ≠ '\x7d' := by
        rintro rfl
        exact absurd hfirst (by decide)
      simp [begins, isBlank_of_isDigit hfirst, hbrace]

theorem not_mem_escapeChar (c : Char) : '\n' ∉ Json.escapeChar c := by
  intro hmem
  by_cases hc : c ∈ Json.bareBreaks
  · simp only [Json.bareBreaks, List.mem_cons, List.not_mem_nil, or_false] at hc
    rcases hc with rfl | rfl | rfl <;> revert hmem <;> decide
  · have hbreak := (Json.escapeChar_unbroken_iff c).2 hc _ hmem
    exact absurd hbreak (by decide)

theorem tidy_quote (text : String) : Tidy (Json.quote text) := by
  unfold Json.quote
  refine ⟨.flat ?_, ?_⟩
  · rw [String.toList_ofList]
    simp [not_mem_escapeChar]
  · simp only [begins, String.toList_ofList, List.cons_append, List.head?_cons, Option.any_some]
    decide

theorem not_mem_operator {symbol : String} (h : 0 < precedence symbol) : '\n' ∉ symbol.toList := by
  have hall : (shortOperators ++ longOperators).all (fun s => '\n' ∉ s.toList) = true := by decide
  exact of_decide_eq_true (List.all_eq_true.1 hall symbol (mem_operators h))

theorem folds_intercalate {parts : List String} (h : ∀ t ∈ parts, Folds t.toList) :
    Folds (", ".intercalate parts).toList := by
  cases parts with
  | nil => exact .flat (by decide)
  | cons part rest =>
    induction rest generalizing part with
    | nil =>
      rw [String.intercalate_singleton]
      exact h part List.mem_cons_self
    | cons next rest ih =>
      rw [List.forall_mem_cons] at h
      rw [String.intercalate_cons_cons]
      exact folds_append (folds_append h.1 (.flat (by decide))) (ih next h.2)

theorem tidy_paramsText {params : List String} (h : ∀ n ∈ params, isName n = true) :
    Tidy (Node.paramsText (some params)) := by
  have hparams : Folds (", ".intercalate params).toList :=
    folds_intercalate fun n hn => .flat (not_mem_name (h n hn))
  exact (Tidy.append (tidy_word (by decide)) hparams).append (.flat (by decide))

/-! ## Places of a tree -/

section

open Node

variable {named : String → Prop} {e : Node}

theorem folds_asExpr (ht : e.isMissing = false → Tidy e.text) : Folds (e.asExpr e.text).toList := by
  unfold asExpr
  split
  · next he =>
    refine (ht ?_).folds
    cases e with
    | missing => cases he
    | _ => rfl
  · exact .flat (by decide)

theorem folds_asOperand (ht : e.isMissing = false → Tidy e.text) (operator : Nat) (rightSide : Bool) :
    Folds (e.asOperand operator rightSide e.text).toList := by
  have hexpr := folds_asExpr ht
  unfold asOperand
  split
  · split
    · exact folds_append (folds_append (.flat (by decide)) hexpr) (.flat (by decide))
    · exact hexpr
  · exact hexpr

theorem tidy_asOperand (h : Shaped named .expr e) (ht : Tidy e.text) (operator : Nat) (rightSide : Bool) :
    Tidy (e.asOperand operator rightSide e.text) := by
  refine ⟨folds_asOperand (fun _ => ht) operator rightSide, ?_⟩
  unfold asOperand
  rw [h.asExpr_eq]
  split
  · split
    · exact begins_append (begins_append (by decide) _) _
    · exact ht.begins
  · exact ht.begins

theorem whole_asBlock (h : MayStand named .block e) (ht : e.isMissing = false → Whole e.text) :
    Whole (e.asBlock e.text) := by
  cases hm : e.isMissing with
  | true =>
    cases e with
    | missing => exact Lined.whole_braces (.inl rfl)
    | _ => cases hm
  | false =>
    rw [(h hm).asBlock_eq]
    exact ht hm

/-- What follows a condition's block, as it stands behind it in a line. -/
theorem asAlternate_folds_ends (h : MayStand named .alternate e) (ht : e.isMissing = false → Whole e.text) :
    Folds (e.asAlternate e.text).toList ∧ ends (e.asAlternate e.text) = true := by
  cases hm : e.isMissing with
  | true =>
    cases e with
    | missing => exact ⟨.flat (by decide), by decide⟩
    | _ => cases hm
  | false =>
    have htext : e.asAlternate e.text = " else " ++ e.text := by
      cases h hm with
      | elseIf h =>
        cases h
        rfl
      | elseBlock h =>
        cases h
        rfl
    rw [htext]
    exact ⟨folds_append (.flat (by decide)) (ht hm).folds, ends_append (by decide) (ht hm).ends⟩

theorem folds_asArrowBody {place : Place} (hp : place = .expr ∨ place = .block) (h : MayStand named place e)
    (ht : e.isMissing = false → Tidy e.text) : Folds (e.asArrowBody e.text).toList := by
  cases hm : e.isMissing with
  | true =>
    cases e with
    | missing => exact .flat (by decide)
    | _ => cases hm
  | false =>
    have htext : e.asArrowBody e.text = e.text := by
      rcases hp with rfl | rfl
      · have hexpr := (h hm).isExpression
        unfold asArrowBody
        split
        · rfl
        · exact (h hm).asExpr_eq _
      · cases h hm
        rfl
    rw [htext]
    exact (ht hm).folds

theorem tidy_calleeText (h : Shaped named .chain e) (ht : Tidy e.text) : Tidy (calleeText e e.text) := by
  cases h with
  | @ident line name =>
    change Tidy (if name = fetchName then fetchHelper else name)
    split
    · exact tidy_name fetchHelper_isName
    · exact ht
  | _ => exact ht

theorem folds_getD {name : Option String} (h : ∀ n ∈ name, isName n = true) : Folds (name.getD "").toList := by
  cases name with
  | none => exact .flat (by decide)
  | some n => exact .flat (not_mem_name (h n rfl))

theorem tidy_declarationText {name : Option String} (hn : ∀ n ∈ name, isName n = true)
    (ht : e.isMissing = false → Tidy e.text) (kind : String) : Tidy (declarationText name e e.text kind) := by
  unfold declarationText
  have hkind : Tidy (if kind = "const" then "const" else "let") := by
    split <;> exact tidy_word (by decide)
  refine ((hkind.append (.flat (by decide))).append (folds_getD hn)).append ?_
  split
  · exact .flat (by decide)
  · exact folds_append (.flat (by decide)) (folds_asExpr ht)

theorem whole_exportAssignment {name : String} (h : isName name = true) : Whole (exportAssignment name) := by
  have hname : Folds name.toList := .flat (not_mem_name h)
  have htable : Tidy ("var " ++ exportsName ++ " = " ++ exportsName ++ " || \x7b\x7d; " ++ exportsName ++ "[\"") :=
    tidy_word (by decide)
  exact (((htable.append hname).append (.flat (by decide))).append hname).semicolon

theorem whole_forText {init test update body : String} (hi : Folds init.toList) (ht : Folds test.toList)
    (hu : Folds update.toList) (hb : Whole body) : Whole (forText init test update body) := by
  have hfor : Tidy ("for (" ++ init ++ "; ") :=
    (Tidy.append (tidy_word (by decide)) hi).append (.flat (by decide))
  have htest : Tidy ("for (" ++ init ++ "; " ++ test ++ "; ") := (hfor.append ht).append (.flat (by decide))
  exact ((htest.append hu).append (.flat (by decide))).whole_append hb

theorem isName_of_mem_exportedNames {place : Place} (hp : place = .declaration ∨ place = .function)
    (h : Shaped (isName · = true) place e) {line : Option Int} {name : String}
    (hn : name ∈ exportedNames (.exportDecl line e none)) : isName name = true := by
  have hname : name ∈ e.name? := by
    simp only [exportedNames, h.isMissing_eq, Bool.false_eq_true, if_false] at hn
    simpa using (List.mem_filter.1 hn).1
  rcases hp with rfl | rfl
  · cases h with
    | declaration _ hnames _ => exact hnames name hname
  · cases h with
    | function hnames _ _ => exact hnames name hname

/-! ## Trees -/

/-- The texts of a statement that stand on lines of their own. An export may have several, and an import has none. -/
def paragraphs : Node → List String
  | importDecl .. => []
  | exportDecl l declaration names =>
    (if declaration.isMissing then [] else [declaration.asStatement declaration.text])
      ++ (exportedNames (exportDecl l declaration names)).map exportAssignment
  | e => [e.text]

theorem text_eq_paragraphs (e : Node) : e.text = "\n".intercalate (paragraphs e) := by
  cases e with
  | importDecl | exportDecl => rfl
  | _ => exact String.intercalate_singleton.symm

/-- What the text of a tree is like that stands in the place. -/
def Laid : Place → Node → Prop
  | .chain, e | .expr, e => Tidy e.text
  | .block, e | .function, e | .condition, e | .alternate, e => Whole e.text
  | .declaration, e => ∃ line name value kind, e = .variableDecl line name value kind ∧
    Tidy (declarationText name value value.text kind)
  | .statement, e => ∀ t ∈ paragraphs e, Whole t
  | .program, e => Lined e.text

theorem folds_argTexts {args : List Node} (h : ∀ a ∈ args, Tidy a.text) :
    Folds (", ".intercalate (argTexts args)).toList := by
  refine folds_intercalate fun t ht => ?_
  rw [argTexts_eq_map] at ht
  obtain ⟨a, ha, rfl⟩ := List.mem_map.1 ht
  exact folds_asExpr fun _ => h a ha

theorem lined_texts {body : List Node} (h : ∀ s ∈ body, ∀ t ∈ paragraphs s, Whole t) :
    Lined (joinLines (texts body)) := by
  refine lined_joinLines fun t ht => ?_
  rw [texts_eq_map] at ht
  obtain ⟨s, hs, rfl⟩ := List.mem_map.1 ht
  rw [text_eq_paragraphs]
  exact lined_intercalate fun t ht => (h s hs t ht).aligned

theorem tidy_asyncText {t : String} (h : Tidy t) (isAsync : Bool) : Tidy (asyncText isAsync ++ t) := by
  cases isAsync with
  | true => exact Tidy.append (tidy_word (by decide)) h.folds
  | false =>
    rw [asyncText, if_neg (by decide), String.empty_append]
    exact h

/-- One case for each kind of tree: its text is put together from parts that `Folds` holds of. -/
theorem laid_of_shaped {place : Place} (h : Shaped (isName · = true) place e) : Laid place e := by
  induction h with
  | ident hname => exact tidy_name hname
  | call hcallee _ ihcallee ihargs =>
    rw [Laid, text_call]
    refine Tidy.append (Tidy.append ?_ (folds_argTexts ihargs)) (.flat (by decide))
    exact (tidy_calleeText hcallee ihcallee).append (.flat (by decide))
  | member hobject hname ih =>
    rw [Laid, text_member, (Shaped.ofChain hobject).asExpr_eq]
    exact (Tidy.append ih (.flat (by decide))).append (.flat (not_mem_name hname))
  | ofChain _ ih | elseIf _ ih | elseBlock _ ih => exact ih
  | number => exact tidy_number _
  | string => exact tidy_quote _
  | await _ ih => exact Tidy.append (tidy_word (by decide)) (folds_asOperand ih _ _)
  | binary hlevel hleft _ ihl ihr =>
    rw [Laid, text_binary]
    refine Tidy.append (Tidy.append (Tidy.append ?_ (.flat (not_mem_operator hlevel))) (.flat (by decide)))
      (folds_asOperand ihr _ _)
    exact (tidy_asOperand hleft ihl _ _).append (.flat (by decide))
  | assign htarget _ iht ihv =>
    rw [Laid, text_assign, htarget.asExpr_eq]
    exact (Tidy.append iht (.flat (by decide))).append (folds_asExpr ihv)
  | @arrow line params body isAsync place hparams hplace hbody ih =>
    have hfolds : Folds (body.asArrowBody body.text).toList := by
      refine folds_asArrowBody hplace hbody fun hm => ?_
      rcases hplace with rfl | rfl
      · exact ih hm
      · exact (ih hm).toTidy
    rw [Laid, text_arrow]
    exact ((tidy_asyncText (tidy_paramsText hparams) isAsync).append (.flat (by decide))).append hfolds
  | block _ ih => exact Lined.whole_braces (lined_texts ih)
  | declaration _ hname _ ih => exact ⟨_, _, _, _, rfl, tidy_declarationText hname ih _⟩
  | @function line name params body isAsync hname hparams hbody ih =>
    have hfunction : Tidy (asyncText isAsync ++ "function ") := tidy_asyncText (tidy_word (by decide)) isAsync
    have hhead := (hfunction.append (folds_getD hname)).append (tidy_paramsText hparams).folds
    rw [Laid, text_functionDecl]
    exact (hhead.append (.flat (by decide))).whole_append (whole_asBlock hbody ih)
  | @condition line test consequent alternate _ hconsequent halternate iht ihc iha =>
    obtain ⟨hfolds, hends⟩ := asAlternate_folds_ends halternate iha
    have htest : Tidy ("if (" ++ test.asExpr test.text) := Tidy.append (tidy_word (by decide)) (folds_asExpr iht)
    have hblock := (htest.append (.flat (by decide) : Folds ") ".toList)).whole_append (whole_asBlock hconsequent ihc)
    rw [Laid, text_ifStmt]
    exact ⟨hblock.toTidy.append hfolds, ends_append hblock.ends hends⟩
  | ofDeclaration _ ih =>
    obtain ⟨line, name, value, kind, rfl, ht⟩ := ih
    exact List.forall_mem_singleton.2 ht.semicolon
  | ofFunction h ih | ofCondition h ih | ofBlock h ih =>
    cases h
    exact List.forall_mem_singleton.2 ih
  | @printStmt line value _ ih =>
    have hprint : Tidy ("console.log(" ++ value.asExpr value.text) :=
      Tidy.append (tidy_word (by decide)) (folds_asExpr ih)
    refine List.forall_mem_singleton.2 ?_
    rw [text_printStmt]
    exact ⟨hprint.append (.flat (by decide)), ends_append_of_ne _ (by decide) (by decide)⟩
  | @whileStmt line test body _ hbody iht ihb =>
    have htest : Tidy ("while (" ++ test.asExpr test.text) := Tidy.append (tidy_word (by decide)) (folds_asExpr iht)
    refine List.forall_mem_singleton.2 ?_
    rw [text_whileStmt]
    exact (htest.append (.flat (by decide))).whole_append (whole_asBlock hbody ihb)
  | @forStmt line init test update body place hplace hinit _ _ hbody ihi iht ihu ihb =>
    have hloop {start : String} (hs : Folds start.toList) :
        Whole (forText start (test.asExpr test.text) (update.asExpr update.text) (body.asBlock body.text)) :=
      whole_forText hs (folds_asExpr iht) (folds_asExpr ihu) (whole_asBlock hbody ihb)
    refine List.forall_mem_singleton.2 ?_
    cases hm : init.isMissing with
    | true =>
      cases init with
      | missing => exact @hloop "" (.flat (by decide))
      | _ => cases hm
    | false =>
      rcases hplace with rfl | rfl
      · obtain ⟨line', name, value, kind, rfl, ht⟩ := ihi hm
        exact hloop ht.folds
      · rw [text_forStmt_expr _ _ _ _ _ (hinit hm).isExpression]
        exact hloop (folds_asExpr ihi)
  | @returnStmt line value _ ih =>
    refine List.forall_mem_singleton.2 ?_
    rw [text_returnStmt]
    split
    · exact ⟨tidy_word (by decide), by decide⟩
    · exact (Tidy.append (tidy_word (by decide)) (folds_asExpr ih)).semicolon
  | breakStmt => exact List.forall_mem_singleton.2 (⟨tidy_word (by decide), by decide⟩ : Whole "break;")
  | continueStmt => exact List.forall_mem_singleton.2 (⟨tidy_word (by decide), by decide⟩ : Whole "continue;")
  | importDecl => exact fun t ht => absurd ht List.not_mem_nil
  | @exportDecl line e place hplace hpart ih =>
    have hself : Whole e.text := by
      rcases hplace with rfl | rfl
      · obtain ⟨line, name, value, kind, rfl, ht⟩ := ih
        exact ht.semicolon
      · exact ih
    rw [Laid, paragraphs, hpart.isMissing_eq, if_neg (by decide), hpart.asStatement_eq hplace]
    refine List.forall_mem_cons.2 ⟨hself, fun t ht => ?_⟩
    obtain ⟨name, hname, rfl⟩ := List.mem_map.1 ht
    exact whole_exportAssignment (isName_of_mem_exportedNames hplace hpart hname)
  | exportName hname => exact List.forall_mem_singleton.2 (whole_exportAssignment hname)
  | exportNothing => exact fun t ht => absurd ht List.not_mem_nil
  | exprStmt hpart ih =>
    refine List.forall_mem_singleton.2 ?_
    rw [text_exprStmt, hpart.asExpr_eq]
    exact Tidy.semicolon ih
  | program _ ih => exact lined_texts ih

end

end Layout

/-- In `program.text` every line has four spaces for each block around it, counted by the braces at the ends and
starts of lines: `scanLines` goes through. No line closes a block that is not open, and in the end none is open. -/
theorem scanLines_text {source : String} {program : Node} (h : parseText source = .ok program) :
    scanLines 0 (pieces '\n' program.text.toList) = some 0 := by
  rcases Layout.laid_of_shaped (shaped_of_parseText h) with hempty | hlines
  · rw [hempty]
    rfl
  · exact hlines.scan

/-- A condition with a block of its own in it. -/
def nestedSource : String := "agar f((x) => \x7b wapas x \x7d) \x7b niryaat ye y = '\x7d' \x7d"

/-- The block in the condition of `nestedSource`. -/
def innerBlock : Node := .block (some 1) [.returnStmt (some 1) (.ident (some 1) "x")]

/-- The block behind the condition of `nestedSource`. -/
def outerBlock : Node :=
  .block (some 1)
    [.exportDecl (some 1) (.variableDecl (some 1) (some "y") (.literal (some 1) (.string "\x7d")) "let") none]

/-- What is read from `nestedSource`. -/
def nestedProgram : Node :=
  .program none
    [.ifStmt (some 1)
      (.call (some 1) (.ident (some 1) "f") (some [.arrow (some 1) (some ["x"]) innerBlock false])) outerBlock
      .missing]

theorem text_nestedProgram : nestedProgram.text =
    "if (f((x) => \x7b\n    return x;\n\x7d)) \x7b\n    let y = \"\x7d\";\n" ++
      "    var __shar_exports = __shar_exports || \x7b\x7d; __shar_exports[\"y\"] = y;\n\x7d" := by
  -- `indent` goes through `String.foldl`, which does not reduce; its lines do.
  have hinner : innerBlock.text = "\x7b\n    return x;\n\x7d" := by
    rw [← String.toList_inj, innerBlock, Node.text, Layout.toList_braces (by decide)]
    decide
  have houter : outerBlock.text = "\x7b\n    let y = \"\x7d\";\n" ++
      "    var __shar_exports = __shar_exports || \x7b\x7d; __shar_exports[\"y\"] = y;\n\x7d" := by
    rw [← String.toList_inj, outerBlock, Node.text, Layout.toList_braces (by decide)]
    decide +kernel
  have hcall : (Node.call (some 1) (.ident (some 1) "f") (some [.arrow (some 1) (some ["x"]) innerBlock false])).text =
      "f((x) => \x7b\n    return x;\n\x7d)" := by
    rw [Node.text, Node.argTexts, Node.text, innerBlock, Node.asArrowBody, ← innerBlock, hinner]
    decide +kernel
  rw [nestedProgram, Node.text, Node.texts, Node.text_ifStmt, hcall, outerBlock, Node.asBlock, ← outerBlock, houter]
  decide +kernel

theorem scanLines_text_nested : parseText nestedSource = .ok nestedProgram ∧
    nestedProgram.text =
      "if (f((x) => \x7b\n    return x;\n\x7d)) \x7b\n    let y = \"\x7d\";\n" ++
        "    var __shar_exports = __shar_exports || \x7b\x7d; __shar_exports[\"y\"] = y;\n\x7d" ∧
    scanLines 0 (pieces '\n' nestedProgram.text.toList) = some 0 := by
  have hparse : parseText nestedSource = .ok nestedProgram := by
    have htokens : tokenize nestedSource =
        .ok [⟨.keyword .agar, 1, 1⟩, ⟨.ident "f", 1, 6⟩, ⟨.punct .parenOpen, 1, 7⟩, ⟨.punct .parenOpen, 1, 8⟩,
          ⟨.ident "x", 1, 9⟩, ⟨.punct .parenClose, 1, 10⟩, ⟨.op "=>", 1, 12⟩, ⟨.punct .braceOpen, 1, 15⟩,
          ⟨.keyword .wapas, 1, 17⟩, ⟨.ident "x", 1, 23⟩, ⟨.punct .braceClose, 1, 25⟩, ⟨.punct .parenClose, 1, 26⟩,
          ⟨.punct .braceOpen, 1, 28⟩, ⟨.keyword .niryaat, 1, 30⟩, ⟨.keyword .ye, 1, 38⟩, ⟨.ident "y", 1, 41⟩,
          ⟨.op "=", 1, 43⟩, ⟨.string "\x7d", 1, 45⟩, ⟨.punct .braceClose, 1, 49⟩] := by
      decide +kernel
    rw [parseText, htokens]
    rfl
  exact ⟨hparse, text_nestedProgram, scanLines_text hparse⟩

end HindiScript
