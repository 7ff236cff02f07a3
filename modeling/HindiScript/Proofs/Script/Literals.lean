import HindiScript.Proofs.Text.Hanging
import HindiScript.Proofs.Tree.Shape
import HindiScript.Script.Text

/-!
# Strings in the text of a program

Every string of a program that was read stands in the text of the program as a JSON string. The blocks around it set
in the lines of the text, and so also the lines of the string, if it has any: it stands there hanging, by one margin
for each block (`quote_infix_text`). A JSON string is without line breaks but for three characters
(`quote_unbroken_iff`), so a string that holds none of them is there as it is.
-/

namespace HindiScript

/-! ## JSON strings and line breaks -/

namespace Json

open Text

/-- The line breaks that `quote` writes as they are. -/
def bareBreaks : List Char := ['\u0085', '\u2028', '\u2029']

theorem isLineBreak_of_bare {c : Char} (h : 0x20 ≤ c.toNat) : isLineBreak c = true ↔ c ∈ bareBreaks := by
  simp only [isLineBreak, Ranges.holds_iff, lineBreakRanges, bareBreaks, List.mem_cons, List.not_mem_nil, or_false,
    exists_eq_or_imp, exists_eq_left, ← Char.toNat_inj, Char.reduceToNat]
  omega

theorem escapeUnit_unbroken {n : Nat} (h : n < 0x20) : ∀ d ∈ escapeUnit n, isLineBreak d = false := by
  have hall : (List.range 0x20).all (fun n => (escapeUnit n).all fun d => !isLineBreak d) = true := by decide
  simpa using List.all_eq_true.1 hall n (List.mem_range.2 h)

theorem shortEscape_unbroken {c e : Char} (h : shortEscape? c = some e) : isLineBreak e = false ∧ c ∉ bareBreaks := by
  unfold shortEscape? at h
  split at h <;> cases h <;> decide

theorem escapeChar_unbroken_iff (c : Char) : (∀ d ∈ escapeChar c, isLineBreak d = false) ↔ c ∉ bareBreaks := by
  unfold escapeChar
  split
  · next e he =>
    obtain ⟨hbreak, hbare⟩ := shortEscape_unbroken he
    refine iff_of_true (fun d hd => ?_) hbare
    simp only [List.mem_cons, List.not_mem_nil, or_false] at hd
    rcases hd with rfl | rfl
    · decide
    · exact hbreak
  · split
    · next hlow =>
      refine iff_of_true (escapeUnit_unbroken hlow) fun hbare => ?_
      simp only [bareBreaks, List.mem_cons, List.not_mem_nil, or_false] at hbare
      rcases hbare with rfl | rfl | rfl <;> revert hlow <;> decide
    · next hlow =>
      have := isLineBreak_of_bare (Nat.le_of_not_lt hlow)
      simp [← this]

/-- A JSON string has no line break, if the text holds none of `bareBreaks`. -/
theorem quote_unbroken_iff (text : String) :
    (∀ d ∈ (quote text).toList, isLineBreak d = false) ↔ ∀ c ∈ text.toList, c ∉ bareBreaks := by
  have hmark : isLineBreak '\x22' = false := by decide
  simp only [quote, String.toList_ofList, List.cons_append, List.mem_cons, List.mem_append, List.mem_flatMap,
    List.not_mem_nil, or_false, ← escapeChar_unbroken_iff]
  constructor
  · exact fun h c hc d hd => h d (.inr (.inl ⟨c, hc, hd⟩))
  · rintro h d (rfl | ⟨c, hc, hd⟩ | rfl)
    · exact hmark
    · exact h c hc d hd
    · exact hmark

theorem capped_quote (text : String) : Capped (quote text).toList :=
  ⟨'\x22', text.toList.flatMap escapeChar, '\x22', by simp [quote], by decide, by decide⟩

end Json

/-! ## Texts in texts -/

/-- `s` stands in `t`. -/
def Occurs (s t : String) : Prop := s.toList <:+: t.toList

namespace Occurs

variable {s t u : String}

theorem refl (s : String) : Occurs s s := List.infix_rfl

theorem trans (h : Occurs s t) (h' : Occurs t u) : Occurs s u := List.IsInfix.trans h h'

theorem before (h : Occurs s t) (u : String) : Occurs s (t ++ u) := by
  rw [Occurs, String.toList_append]
  exact List.IsInfix.trans h (List.prefix_append ..).isInfix

theorem behind (h : Occurs s t) (u : String) : Occurs s (u ++ t) := by
  rw [Occurs, String.toList_append]
  exact List.IsInfix.trans h (List.suffix_append ..).isInfix

theorem intercalate {parts : List String} (h : s ∈ parts) (sep : String) : Occurs s (sep.intercalate parts) := by
  induction parts with
  | nil => cases h
  | cons part rest ih =>
    cases rest with
    | nil =>
      obtain rfl := List.mem_singleton.1 h
      rw [String.intercalate_singleton]
      exact refl s
    | cons next rest =>
      rw [String.intercalate_cons_cons]
      rcases List.mem_cons.1 h with rfl | h
      · exact ((refl s).before sep).before _
      · exact (ih h).behind _

theorem joinLines {parts : List String} (h : s ∈ parts) : Occurs s (Text.joinLines parts) := by
  by_cases hs : s = ""
  · subst hs
    exact List.nil_infix
  · exact intercalate (List.mem_filter.2 ⟨h, by simpa using hs⟩) _

end Occurs

/-! ## Parts of a tree in its text -/

/-- The text in which the texts of the parts stand: for a block, what its `braces` are put around. -/
def Node.innerText : Node → String
  | block _ body => Text.joinLines (texts body)
  | e => e.text

namespace Shaped

open Node

variable {named : String → Prop} {place : Place} {e : Node}

theorem isExpression (h : Shaped named .expr e) : e.isExpression = true := by
  cases h with
  | ofChain h => cases h <;> rfl
  | _ => rfl

theorem asExpr_eq (h : Shaped named .expr e) (text : String) : e.asExpr text = text := if_pos h.isExpression

theorem asBlock_eq (h : Shaped named .block e) (text : String) : e.asBlock text = text := by
  cases h
  rfl

theorem occurs_asOperand (h : Shaped named .expr e) (operator : Nat) (rightSide : Bool) :
    Occurs e.text (e.asOperand operator rightSide e.text) := by
  unfold asOperand
  rw [h.asExpr_eq]
  split
  · split
    · exact ((Occurs.refl _).behind _).before _
    · exact Occurs.refl _
  · exact Occurs.refl _

theorem occurs_asAlternate (h : Shaped named .alternate e) : Occurs e.text (e.asAlternate e.text) := by
  cases h with
  | elseIf h =>
    cases h
    exact (Occurs.refl _).behind _
  | elseBlock h =>
    cases h
    exact (Occurs.refl _).behind _

theorem occurs_asArrowBody (hp : place = .expr ∨ place = .block) (h : Shaped named place e) :
    Occurs e.text (e.asArrowBody e.text) := by
  rcases hp with rfl | rfl
  · have : e.asArrowBody e.text = e.text := by
      cases h with
      | ofChain h => cases h <;> rfl
      | _ => rfl
    rw [this]
    exact Occurs.refl _
  · cases h
    exact Occurs.refl _

theorem occurs_declarationText (h : Shaped named .expr e) (name : Option String) (kind : String) :
    Occurs e.text (declarationText name e e.text kind) := by
  simp only [declarationText, h.isMissing_eq, Bool.false_eq_true, if_false, h.asExpr_eq]
  exact ((Occurs.refl _).behind _).behind _

theorem occurs_calleeText (h : Shaped named .chain e) : Occurs e.text (calleeText e e.text) := by
  cases h with
  | @ident line name hn =>
    change Occurs name (if name = fetchName then fetchHelper else name)
    split
    · next hf =>
      subst hf
      unfold Occurs
      decide
    · exact Occurs.refl _
  | _ => exact Occurs.refl _

theorem asStatement_eq (h : Shaped named place e) (hp : place = .declaration ∨ place = .function) (text : String) :
    e.asStatement text = text := by
  rcases hp with rfl | rfl <;> cases h <;> rfl

/-- The parts of a loop stand in `forText`, the first one with the semicolon behind it. -/
theorem occurs_forText (init test update body : String) :
    Occurs (init ++ ";") (forText init test update body) ∧ Occurs test (forText init test update body) ∧
      Occurs update (forText init test update body) ∧ Occurs body (forText init test update body) := by
  have hsplit : "for (" ++ init ++ "; " = "for (" ++ (init ++ ";") ++ " " := by
    simp only [String.append_assoc]
    rfl
  have hinit : Occurs (init ++ ";") ("for (" ++ init ++ "; ") := by
    rw [hsplit]
    exact ((Occurs.refl _).behind _).before _
  have htest : Occurs test ("for (" ++ init ++ "; " ++ test) := (Occurs.refl _).behind _
  have hupdate : Occurs update ("for (" ++ init ++ "; " ++ test ++ "; " ++ update) := (Occurs.refl _).behind _
  unfold forText
  refine ⟨?_, ?_, (hupdate.before _).before _, (Occurs.refl _).behind _⟩
  · exact ((((hinit.before _).before _).before _).before _).before _
  · exact (((htest.before _).before _).before _).before _

theorem occurs_loopStart (hp : place = .declaration ∨ place = .expr) (h : Shaped named place e) (line : Option Int)
    (test update body : Node) : Occurs e.text (Node.forStmt line e test update body).text := by
  rcases hp with rfl | rfl
  · cases h
    rw [text_forStmt_declaration]
    exact (occurs_forText ..).1
  · rw [text_forStmt_expr _ _ _ _ _ h.isExpression, h.asExpr_eq]
    exact ((Occurs.refl _).before _).trans (occurs_forText ..).1

/-- The text of what stands in a program or a block is a part of the text of its statements. -/
theorem occurs_texts {body : List Node} {c : Node} (hc : c ∈ children.present body) :
    Occurs c.text (Text.joinLines (texts body)) := by
  refine Occurs.joinLines ?_
  rw [texts_eq_map]
  exact List.mem_map_of_mem (mem_present.1 hc).1

/-- The text of a part stands in the text of the whole, but for the parts of a block. -/
theorem occurs_child {c : Node} (h : Shaped named place e) (hc : c ∈ e.children)
    (hb : ∀ line body, e ≠ .block line body) : Occurs c.text e.text := by
  induction h with
  | ident | number | string | breakStmt | continueStmt | importDecl | exportName | exportNothing => cases hc
  | ofChain _ ih | elseIf _ ih | elseBlock _ ih | ofDeclaration _ ih | ofFunction _ ih | ofCondition _ ih
  | ofBlock _ ih => exact ih hc hb
  | block => exact absurd rfl (hb _ _)
  | program => exact occurs_texts hc
  | await hpart =>
    obtain ⟨rfl, hm⟩ := mem_present_singleton.1 hc
    exact ((hpart hm).occurs_asOperand _ _).behind _
  | arrow _ hp hpart =>
    obtain ⟨rfl, hm⟩ := mem_present_singleton.1 hc
    exact (occurs_asArrowBody hp (hpart hm)).behind _
  | declaration _ _ hpart =>
    obtain ⟨rfl, hm⟩ := mem_present_singleton.1 hc
    exact ((hpart hm).occurs_declarationText _ _).before _
  | function _ _ hpart =>
    obtain ⟨rfl, hm⟩ := mem_present_singleton.1 hc
    rw [text_functionDecl, (hpart hm).asBlock_eq]
    exact (Occurs.refl _).behind _
  | printStmt hpart =>
    obtain ⟨rfl, hm⟩ := mem_present_singleton.1 hc
    rw [text_printStmt, (hpart hm).asExpr_eq]
    exact ((Occurs.refl _).behind _).before _
  | returnStmt hpart =>
    obtain ⟨rfl, hm⟩ := mem_present_singleton.1 hc
    simp only [text_returnStmt, hm, (hpart hm).asExpr_eq, Bool.false_eq_true, if_false]
    exact ((Occurs.refl _).behind _).before _
  | exprStmt hpart =>
    obtain ⟨rfl, -⟩ := mem_present_singleton.1 hc
    rw [text_exprStmt, hpart.asExpr_eq]
    exact (Occurs.refl _).before _
  | exportDecl hp hpart =>
    obtain ⟨rfl, -⟩ := mem_present_singleton.1 hc
    have hs := hpart.asStatement_eq hp c.text
    simp only [text_exportDecl, hpart.isMissing_eq, hs, Bool.false_eq_true, if_false]
    exact Occurs.intercalate List.mem_cons_self _
  | @call line callee args hcallee hargs =>
    rcases List.mem_cons.1 (mem_present.1 hc).1 with rfl | ha
    · exact ((hcallee.occurs_calleeText.before _).before _).before _
    · have hmem : c.text ∈ argTexts args := by
        rw [argTexts_eq_map, ← (hargs c ha).asExpr_eq c.text]
        exact List.mem_map_of_mem ha
      exact ((Occurs.intercalate hmem _).behind _).before _
  | member hobject hname =>
    obtain ⟨hc, -⟩ := mem_present.1 hc
    simp only [List.mem_cons, List.not_mem_nil, or_false] at hc
    rcases hc with rfl | rfl
    · rw [text_member, (Shaped.ofChain hobject).asExpr_eq]
      exact ((Occurs.refl _).before _).before _
    · exact (Occurs.refl _).behind _
  | binary _ hleft hright =>
    obtain ⟨hc, hm⟩ := mem_present.1 hc
    simp only [List.mem_cons, List.not_mem_nil, or_false] at hc
    rcases hc with rfl | rfl
    · exact ((((hleft.occurs_asOperand _ _).before _).before _).before _).before _
    · exact ((hright hm).occurs_asOperand _ _).behind _
  | assign htarget hvalue =>
    obtain ⟨hc, hm⟩ := mem_present.1 hc
    simp only [List.mem_cons, List.not_mem_nil, or_false] at hc
    rcases hc with rfl | rfl
    · rw [text_assign, htarget.asExpr_eq]
      exact ((Occurs.refl _).before _).before _
    · rw [text_assign, (hvalue hm).asExpr_eq]
      exact (Occurs.refl _).behind _
  | condition htest hconsequent halternate =>
    obtain ⟨hc, hm⟩ := mem_present.1 hc
    simp only [List.mem_cons, List.not_mem_nil, or_false] at hc
    rcases hc with rfl | rfl | rfl
    · rw [text_ifStmt, (htest hm).asExpr_eq]
      exact ((((Occurs.refl _).behind _).before _).before _).before _
    · rw [text_ifStmt, (hconsequent hm).asBlock_eq]
      exact ((Occurs.refl _).behind _).before _
    · exact (halternate hm).occurs_asAlternate.behind _
  | whileStmt htest hbody =>
    obtain ⟨hc, hm⟩ := mem_present.1 hc
    simp only [List.mem_cons, List.not_mem_nil, or_false] at hc
    rcases hc with rfl | rfl
    · rw [text_whileStmt, (htest hm).asExpr_eq]
      exact (((Occurs.refl _).behind _).before _).before _
    · rw [text_whileStmt, (hbody hm).asBlock_eq]
      exact (Occurs.refl _).behind _
  | @forStmt line init test update body _ hp hinit htest hupdate hbody =>
    obtain ⟨hc, hm⟩ := mem_present.1 hc
    obtain ⟨start, hstart⟩ := text_forStmt line init test update body
    simp only [List.mem_cons, List.not_mem_nil, or_false] at hc
    rcases hc with rfl | rfl | rfl | rfl
    · exact occurs_loopStart hp (hinit hm) line test update body
    · rw [hstart, (htest hm).asExpr_eq]
      exact (occurs_forText ..).2.1
    · rw [hstart, (hupdate hm).asExpr_eq]
      exact (occurs_forText ..).2.2.1
    · rw [hstart, (hbody hm).asBlock_eq]
      exact (occurs_forText ..).2.2.2

/-- The text of every part is in the `innerText` of the whole: nothing that was read is left out. -/
theorem occurs_innerText {c : Node} (h : Shaped named place e) (hc : c ∈ e.children) : Occurs c.text e.innerText := by
  cases e with
  | block line body => exact occurs_texts hc
  | _ => exact h.occurs_child hc nofun

end Shaped

/-! ## Strings -/

namespace Node

def string? : Node → Option String
  | literal _ (.string text) => some text
  | _ => none

/-- How many blocks a node puts around its parts. -/
def blocks : Node → Nat
  | block .. => 1
  | _ => 0

/-- `e` stands in the node, with so many blocks around it. -/
inductive Nested (e : Node) : Node → Nat → Prop where
  | self : Nested e e 0
  | part {n c d} : c ∈ n.children → Nested e c d → Nested e n (d + n.blocks)

theorem nested_of_mem_descendants {e n : Node} (h : e ∈ n.descendants) : ∃ d, e.Nested n d := by
  rw [descendants_eq] at h
  obtain ⟨c, hc, h⟩ := List.mem_flatMap.1 h
  rcases List.mem_cons.1 h with rfl | h
  · exact ⟨_, .part hc .self⟩
  · obtain ⟨d, hd⟩ := nested_of_mem_descendants h
    exact ⟨_, .part hc hd⟩
termination_by sizeOf n
decreasing_by exact sizeOf_lt_of_mem_children hc

theorem Nested.mem_descendants {e n : Node} {d : Nat} (h : e.Nested n d) : e = n ∨ e ∈ n.descendants := by
  induction h with
  | self => exact .inl rfl
  | @part n c d hc _ ih =>
    rw [descendants_eq n]
    exact .inr (List.mem_flatMap.2 ⟨c, hc, List.mem_cons.2 ih⟩)

end Node

/-- `braces` make a capped part of `inner` hang. -/
theorem hang_infix_braces {q : List Char} {inner : String} (h : Text.Capped q) (hq : q <:+: inner.toList) :
    Text.hang blockMargin.toList q <:+: (braces inner).toList := by
  unfold braces
  split
  · next he =>
    obtain ⟨first, middle, last, rfl, -⟩ := h
    rw [he] at hq
    cases List.infix_nil.1 hq
  · rw [String.toList_append, String.toList_append]
    exact (Text.hang_infix_indent h hq).trans ((List.suffix_append ..).isInfix.trans (List.prefix_append ..).isInfix)

/-- A string stands in the text of the tree around it, hanging by `blockMargin` for each block. -/
theorem Shaped.hung_infix_text {named : String → Prop} {place : Place} {e n : Node} {value : String} {d : Nat}
    (h : Shaped named place n) (hn : e.Nested n d) (hv : e.string? = some value) :
    Text.hung blockMargin.toList d (Json.quote value).toList <:+: n.text.toList := by
  induction hn generalizing place with
  | self =>
    unfold Node.string? at hv
    split at hv
    · cases hv
      exact List.infix_rfl
    · cases hv
  | @part n c d hc _ ih =>
    obtain ⟨place', hchild, -⟩ := h.child hc
    have hinner := (ih hchild).trans (h.occurs_innerText hc)
    cases n with
    | block line body =>
      -- Only the braces of a block put a margin around what stands in them.
      rw [Node.blocks, Text.hung_succ]
      exact hang_infix_braces ((Json.capped_quote value).hung _ d) hinner
    | _ => exact hinner

/-- Each string of a program that was read stands in `program.text` as a JSON string that hangs by a margin for each
of the `d` blocks around it (`Text.hung`). It is not changed by that if and only if no block is around it or it holds
none of `Json.bareBreaks`. -/
theorem quote_infix_text {source : String} {program e : Node} {value : String} (h : parseText source = .ok program)
    (he : e ∈ program.descendants) (hv : e.string? = some value) :
    (∃ d, e.Nested program d) ∧
    (∀ d, e.Nested program d →
      Text.hung blockMargin.toList d (Json.quote value).toList <:+: program.text.toList ∧
      (Text.hung blockMargin.toList d (Json.quote value).toList = (Json.quote value).toList ↔
        d = 0 ∨ ∀ c ∈ value.toList, c ∉ Json.bareBreaks)) ∧
    ((∀ c ∈ value.toList, c ∉ Json.bareBreaks) → (Json.quote value).toList <:+: program.text.toList) := by
  have hshape : Shaped (fun _ => True) .program program := by
    cases ht : tokenize source with
    | error failure =>
      rw [parseText, ht] at h
      cases h
    | ok tokens =>
      rw [parseText, ht] at h
      cases h
      exact shaped_parse trivial fun _ _ _ _ => trivial
  have hmargin : blockMargin ≠ "" := by decide
  have hstays (d : Nat) := (Json.capped_quote value).hung_eq_iff hmargin d
  simp only [Json.quote_unbroken_iff] at hstays
  obtain ⟨d, hd⟩ := Node.nested_of_mem_descendants he
  refine ⟨⟨d, hd⟩, fun d hd => ⟨hshape.hung_infix_text hd hv, hstays d⟩, fun hbare => ?_⟩
  rw [← (hstays d).2 (.inr hbare)]
  exact hshape.hung_infix_text hd hv

/-- A block with a string that has two lines. -/
def brokenSource : String := "\x7b bol 'a\u2028b' \x7d"

/-- The string in `brokenSource`. -/
def brokenString : Node := .literal (some 1) (.string "a\u2028b")

/-- What is read from `brokenSource`. -/
def brokenProgram : Node := .program none [.block (some 1) [.printStmt (some 1) brokenString]]

theorem parseText_brokenSource : parseText brokenSource = .ok brokenProgram := by
  have htokens : tokenize brokenSource =
      .ok [⟨.punct .braceOpen, 1, 1⟩, ⟨.keyword .bol, 1, 3⟩, ⟨.string "a\u2028b", 1, 7⟩,
        ⟨.punct .braceClose, 1, 13⟩] := by
    decide +kernel
  rw [parseText, htokens]
  rfl

theorem nested_brokenString : brokenString.Nested brokenProgram 1 := by
  have hprint : brokenString.Nested (.printStmt (some 1) brokenString) 0 := .part List.mem_cons_self .self
  have hblock : brokenString.Nested (.block (some 1) [.printStmt (some 1) brokenString]) 1 :=
    .part List.mem_cons_self hprint
  exact .part List.mem_cons_self hblock

theorem mem_brokenProgram : brokenString ∈ brokenProgram.descendants :=
  nested_brokenString.mem_descendants.resolve_left nofun

theorem text_brokenProgram :
    brokenProgram.text.toList = "\x7b\n    console.log(\"a\u2028    b\");\n\x7d".toList := by
  have hinner : Text.joinLines ["console.log(" ++ Json.quote "a\u2028b" ++ ");"] = "console.log(\"a\u2028b\");" := by
    decide
  have hindent : (Text.indent blockMargin "console.log(\"a\u2028b\");").toList =
      "    console.log(\"a\u2028    b\");".toList := by
    rw [Text.toList_indent]
    decide
  change (Text.joinLines [braces (Text.joinLines ["console.log(" ++ Json.quote "a\u2028b" ++ ");"])]).toList = _
  rw [hinner, braces, if_neg (by decide)]
  simp [Text.joinLines, hindent]

theorem quote_infix_text_broken : parseText brokenSource = .ok brokenProgram ∧
    brokenString ∈ brokenProgram.descendants ∧ brokenString.string? = some "a\u2028b" ∧
    brokenString.Nested brokenProgram 1 ∧
    "\"a\u2028    b\"".toList <:+: brokenProgram.text.toList := by
  have hhung : Text.hung blockMargin.toList 1 (Json.quote "a\u2028b").toList = "\"a\u2028    b\"".toList := by
    decide +kernel
  have h := (quote_infix_text parseText_brokenSource mem_brokenProgram rfl).2.1 1 nested_brokenString
  rw [hhung] at h
  exact ⟨parseText_brokenSource, mem_brokenProgram, rfl, nested_brokenString, h.1⟩

/-- As it is, `brokenString` does not stand in the text. -/
theorem quote_not_infix_broken : parseText brokenSource = .ok brokenProgram ∧ brokenString ∈ brokenProgram.descendants ∧
    brokenString.string? = some "a\u2028b" ∧ ¬ (Json.quote "a\u2028b").toList <:+: brokenProgram.text.toList := by
  refine ⟨parseText_brokenSource, mem_brokenProgram, rfl, ?_⟩
  rw [text_brokenProgram]
  decide +kernel

end HindiScript
