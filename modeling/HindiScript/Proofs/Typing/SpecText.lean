import HindiScript.Proofs.Text.Alignment
import HindiScript.Proofs.Text.Trimming
import HindiScript.Proofs.Token.Spelling
import HindiScript.Typing.Spec

/-!
# Specs that are written out

A spec is written with one line for each variable and one for each function (`Spec.display`). Whatever the text was that
a spec was read from, all that stands in the spec is legible (`Spec.Legible`): types and parameters have no blanks at
their ends, no line breaks, and none of the characters that end them. A legible spec is read from its lines again, so
nothing is lost when a spec is written out and read (`parse_display`).
-/

namespace HindiScript

/-! ## Registries -/

namespace Registry

variable {α : Type} {P : String → α → Prop} {r : Registry α}

/-- `P` holds of every entry of `r`. -/
def All (P : String → α → Prop) (r : Registry α) : Prop := ∀ entry ∈ r.entries, P entry.1 entry.2

theorem all_empty : All P {} := List.forall_mem_nil _

theorem mem_putEntry {name : String} {value : α} {entries : List (String × α)} {entry : String × α}
    (h : entry ∈ putEntry name value entries) : entry = (name, value) ∨ entry ∈ entries := by
  induction entries with
  | nil => exact .inl (List.mem_singleton.1 h)
  | cons first rest ih =>
    unfold putEntry at h
    split at h
    · rcases List.mem_cons.1 h with rfl | h
      · exact .inl rfl
      · exact .inr (List.mem_cons_of_mem _ h)
    · rcases List.mem_cons.1 h with rfl | h
      · exact .inr List.mem_cons_self
      · exact (ih h).imp_right (List.mem_cons_of_mem _)

theorem All.insert (h : r.All P) {name : String} {value : α} (hp : P name value) : (r.insert name value).All P := by
  intro entry hentry
  rcases mem_putEntry hentry with rfl | hentry
  · exact hp
  · exact h entry hentry

end Registry

namespace Typing

open Text

/-! ## Texts of specs -/

def entryText (entry : String × String) : String := entry.1 ++ ": " ++ entry.2

def functionText (entry : String × Signature) : String := entry.1 ++ entry.2.display

/-- The lines that a spec is written in: first the variables, then the functions. -/
def Spec.lineTexts (spec : Spec) : List String :=
  spec.vars.entries.map entryText ++ spec.funcs.entries.map functionText

/-- How a spec is written: its `lineTexts`, with line feeds between them. -/
def Spec.display (spec : Spec) : String := "\n".intercalate spec.lineTexts

theorem Signature.display_eq (s : Signature) :
    s.display = "(" ++ ", ".intercalate (s.params.entries.map entryText) ++ "): " ++ s.returns := rfl

/-! ## Legible parts -/

/-- `cs` can stand in a line: they are some, with no blanks at their ends, no line breaks, and none of `stops`, which
would end them. -/
structure InLine (stops cs : List Char) : Prop where
  ne_nil : cs ≠ []
  trimmed : Trimmed cs
  clean : ∀ c ∈ cs, isLineBreak c = false ∧ c ∉ stops

/-- The name is one that a declaration can start with. -/
def isDeclaredName (name : String) : Bool :=
  name.toList.head?.any Spec.isNameStart && name.toList.all Spec.isNameChar

/-- A parameter and its type are legible. -/
def LegibleParam (name type : String) : Prop := InLine [',', ':', ')'] name.toList ∧ InLine [',', ')'] type.toList

/-- All parts of the signature are legible. -/
structure Signature.Legible (s : Signature) : Prop where
  params : s.params.All LegibleParam
  returns : InLine [] s.returns.toList

/-- All parts of the spec are legible. -/
structure Spec.Legible (spec : Spec) : Prop where
  vars : spec.vars.All fun name type => isDeclaredName name = true ∧ InLine [] type.toList
  funcs : spec.funcs.All fun name signature => isDeclaredName name = true ∧ signature.Legible

section

variable {stops cs : List Char}

theorem inLine_trim (hne : trim cs ≠ []) (h : ∀ c ∈ cs, isLineBreak c = false ∧ c ∉ stops) :
    InLine stops (trim cs) :=
  ⟨hne, trimmed_trim cs, fun c hc => h c (mem_of_mem_trim hc)⟩

theorem InLine.unbroken (h : InLine stops cs) : Unbroken cs := fun c hc => (h.clean c hc).1

theorem InLine.not_mem (h : InLine stops cs) {c : Char} (hc : c ∈ stops) : c ∉ cs := fun hmem => (h.clean c hmem).2 hc

end

/-! ## Names -/

namespace Spec

theorem toNat_of_isNameStart {c : Char} (h : isNameStart c = true) :
    0x41 ≤ c.toNat ∧ c.toNat ≤ 0x5A ∨ 0x61 ≤ c.toNat ∧ c.toNat ≤ 0x7A ∨ c.toNat = 0x5F := by
  rcases Bool.or_eq_true_iff.1 h with h | h
  · rcases Bool.or_eq_true_iff.1 (h : (c.isUpper || c.isLower) = true) with h | h
    · exact .inl (of_decide_eq_true h)
    · obtain ⟨hfirst, hlast⟩ := Bool.and_eq_true_iff.1 h
      exact .inr (.inl ⟨of_decide_eq_true hfirst, of_decide_eq_true hlast⟩)
  · obtain rfl := of_decide_eq_true h
    exact .inr (.inr rfl)

theorem isNameChar_of_isNameStart {c : Char} (h : isNameStart c = true) : isNameChar c = true := by
  have hletter (p : Nat × Nat) (hp : p ∈ letterRanges.pairs) (hc : p.1 ≤ c.toNat ∧ c.toNat ≤ p.2) :
      isNameChar c = true := by
    have : isLetter c = true := (letterRanges.holds_iff c).2 ⟨p, hp, hc⟩
    simp [isNameChar, this]
  rcases toNat_of_isNameStart h with hc | hc | hc
  · exact hletter (0x41, 0x5A) List.mem_cons_self hc
  · exact hletter (0x61, 0x7A) (List.mem_cons_of_mem _ List.mem_cons_self) hc
  · obtain rfl : c = '_' := Char.toNat_inj.1 hc
    rfl

theorem isBlank_of_isNameChar {c : Char} (h : isNameChar c = true) : isBlank c = false := by
  simp only [isNameChar, Bool.or_eq_true, decide_eq_true_eq] at h
  rcases h with (h | h) | rfl
  · exact isBlank_of_isLetter h
  · exact Ranges.holds_eq_false (by decide +kernel) h
  · decide

theorem exists_of_isDeclaredName {name : String} (h : isDeclaredName name = true) :
    (∃ first rest, name.toList = first :: rest ∧ isNameStart first = true) ∧
      ∀ c ∈ name.toList, isNameChar c = true := by
  rw [isDeclaredName, Bool.and_eq_true, List.all_eq_true] at h
  obtain ⟨hstart, hall⟩ := h
  refine ⟨?_, hall⟩
  cases hname : name.toList with
  | nil => simp [hname] at hstart
  | cons first rest => exact ⟨first, rest, rfl, by simpa [hname] using hstart⟩

theorem unbroken_of_isDeclaredName {name : String} (h : isDeclaredName name = true) : Unbroken name.toList :=
  fun c hc => isLineBreak_of_not_blank (isBlank_of_isNameChar ((exists_of_isDeclaredName h).2 c hc))

/-! ## Reading what is written -/

/-- `nameAtFront?` reads a name in front of a character that neither carries it on nor is blank. -/
theorem nameAtFront?_append {name : String} (h : isDeclaredName name = true) {c : Char} (hc : isNameChar c = false)
    (hb : isBlank c = false) (rest : List Char) : nameAtFront? (name.toList ++ c :: rest) = some (name, c :: rest) := by
  obtain ⟨⟨first, more, hname, hstart⟩, hall⟩ := exists_of_isDeclaredName h
  have hfront : (name.toList ++ c :: rest).head?.any isNameStart = true := by simp [hname, hstart]
  rw [nameAtFront?, if_pos hfront, List.takeWhile_append_of_pos hall, List.takeWhile_cons_of_neg (by simp [hc]),
    List.dropWhile_append_of_pos hall, List.dropWhile_cons_of_neg (by simp [hc]), skipBlanks,
    List.dropWhile_cons_of_neg (by simp [hb]), List.append_nil, String.ofList_toList]

theorem typeAfterColon?_colon {stops : List Char} {type : String} (h : InLine stops type.toList) :
    typeAfterColon? (':' :: ' ' :: type.toList) = some type := by
  have hskip : skipBlanks (' ' :: type.toList) = type.toList :=
    dropWhile_blanks blanks_space h.trimmed.first
  have hcolon : skipBlanks (':' :: ' ' :: type.toList) = ':' :: ' ' :: type.toList := rfl
  have hne : type.toList.isEmpty = false := by simpa using h.ne_nil
  rw [typeAfterColon?, hcolon]
  change (if (skipBlanks (' ' :: type.toList)).isEmpty then none
    else some (String.ofList (trim (skipBlanks (' ' :: type.toList))))) = some type
  rw [hskip, hne, trim_eq_self h.trimmed, String.ofList_toList]
  rfl

/-- `params` with one more, if it has a name. -/
def addParam (params : Registry String) (part : List Char) : Registry String :=
  let name := trim (part.takeWhile (· ≠ ':'))
  let type := trim ((part.dropWhile (· ≠ ':')).drop 1)
  if name.isEmpty then params
  else params.insert (String.ofList name) (if type.isEmpty then any else String.ofList type)

theorem paramsOf_eq (cs : List Char) : paramsOf cs = (pieces ',' cs).foldl addParam {} := rfl

theorem toList_entryText (entry : String × String) :
    (entryText entry).toList = entry.1.toList ++ ':' :: ' ' :: entry.2.toList := by
  simp [entryText]

theorem addParam_entryText {entry : String × String} (h : LegibleParam entry.1 entry.2) {front : List Char}
    (hf : Blanks front) (params : Registry String) :
    addParam params (front ++ (entryText entry).toList) = params.insert entry.1 entry.2 := by
  obtain ⟨hname, htype⟩ := h
  have hcolon : ∀ c ∈ front ++ entry.1.toList, decide (c ≠ ':') = true := by
    intro c hc
    rw [decide_eq_true_eq]
    rintro rfl
    rcases List.mem_append.1 hc with hc | hc
    · exact absurd (hf _ hc) (by decide)
    · exact hname.not_mem (by simp) hc
  have htrimName : trim (front ++ entry.1.toList) = entry.1.toList := by
    simpa using trim_eq_of_blanks hf blanks_nil hname.trimmed
  have htrimType : trim (' ' :: entry.2.toList) = entry.2.toList := by
    simpa using trim_eq_of_blanks blanks_space blanks_nil htype.trimmed
  have hname' : entry.1.toList.isEmpty = false := by simpa using hname.ne_nil
  have htype' : entry.2.toList.isEmpty = false := by simpa using htype.ne_nil
  rw [toList_entryText, ← List.append_assoc, addParam, List.takeWhile_append_of_pos hcolon,
    List.dropWhile_append_of_pos hcolon, List.takeWhile_cons_of_neg (by simp), List.dropWhile_cons_of_neg (by simp),
    List.append_nil, htrimName, List.drop_one, List.tail_cons, htrimType, hname', htype']
  simp

theorem addParam_blanks {front : List Char} (hf : Blanks front) (params : Registry String) :
    addParam params front = params := by
  have hcolon : ∀ c ∈ front, decide (c ≠ ':') = true := by
    intro c hc
    rw [decide_eq_true_eq]
    rintro rfl
    exact absurd (hf _ hc) (by decide)
  have hname : trim (front.takeWhile (· ≠ ':')) = [] := by
    rw [List.takeWhile_eq_self_iff.2 hcolon]
    simpa using trim_eq_of_blanks hf blanks_nil trimmed_nil
  rw [addParam, hname]
  rfl

theorem clean_entryText {entry : String × String} (h : LegibleParam entry.1 entry.2) {c : Char}
    (hc : c ∈ (entryText entry).toList) : isLineBreak c = false ∧ c ∉ [',', ')'] := by
  rw [toList_entryText, List.mem_append, List.mem_cons, List.mem_cons] at hc
  rcases hc with hc | rfl | rfl | hc
  · exact (h.1.clean c hc).imp_right fun hn hmem => hn (by grind)
  · decide
  · decide
  · exact h.2.clean c hc

/-- The parameters are cut apart and each is put in, in their order. Behind a comma a blank is passed over. -/
theorem foldl_addParam_pieces {entries : List (String × String)}
    (h : ∀ entry ∈ entries, LegibleParam entry.1 entry.2) {front : List Char} (hf : Blanks front)
    (params : Registry String) :
    (pieces ',' (front ++ (", ".intercalate (entries.map entryText)).toList)).foldl addParam params =
      entries.foldl (fun r entry => r.insert entry.1 entry.2) params := by
  have hcomma : ',' ∉ front := fun hmem => absurd (hf _ hmem) (by decide)
  induction entries generalizing front params with
  | nil =>
    have htext : front ++ (", ".intercalate (([] : List (String × String)).map entryText)).toList = front := by simp
    rw [htext, pieces_of_not_mem hcomma, List.foldl_cons, addParam_blanks hf]
    rfl
  | cons entry rest ih =>
    obtain ⟨hentry, hrest⟩ := List.forall_mem_cons.1 h
    have hpiece : ',' ∉ front ++ (entryText entry).toList := by
      rw [List.mem_append, not_or]
      exact ⟨hcomma, fun hmem => (clean_entryText hentry hmem).2 List.mem_cons_self⟩
    cases rest with
    | nil =>
      rw [List.map_cons, List.map_nil, String.intercalate_singleton, pieces_of_not_mem hpiece, List.foldl_cons,
        addParam_entryText hentry hf]
      rfl
    | cons next more =>
      have htext : front ++ (", ".intercalate ((entry :: next :: more).map entryText)).toList =
          (front ++ (entryText entry).toList) ++
            ',' :: ([' '] ++ (", ".intercalate ((next :: more).map entryText)).toList) := by
        simp [String.intercalate_cons_cons]
      rw [htext, pieces_append, pieces_of_not_mem hpiece, List.foldl_append, List.foldl_cons,
        addParam_entryText hentry hf, List.foldl_nil, ih hrest blanks_space _ (by decide)]
      rfl

theorem paramsOf_intercalate {params : Registry String} (h : params.All LegibleParam) :
    paramsOf (", ".intercalate (params.entries.map entryText)).toList = params := by
  rw [paramsOf_eq]
  exact (foldl_addParam_pieces h blanks_nil {}).trans params.foldl_insert_entries

theorem forall_mem_intercalate {P : Char → Prop} {sep : String} (hsep : ∀ c ∈ sep.toList, P c) {parts : List String}
    (h : ∀ part ∈ parts, ∀ c ∈ part.toList, P c) : ∀ c ∈ (sep.intercalate parts).toList, P c := by
  induction parts with
  | nil => simp
  | cons part rest ih =>
    obtain ⟨hpart, hrest⟩ := List.forall_mem_cons.1 h
    cases rest with
    | nil =>
      rw [String.intercalate_singleton]
      exact hpart
    | cons next more =>
      rw [String.intercalate_cons_cons, String.toList_append, String.toList_append, List.forall_mem_append,
        List.forall_mem_append]
      exact ⟨⟨hpart, hsep⟩, ih hrest⟩

/-- The parameters between the parentheses stay on their line and do not close the parentheses. -/
theorem clean_params {params : Registry String} (h : params.All LegibleParam) :
    ∀ c ∈ (", ".intercalate (params.entries.map entryText)).toList, isLineBreak c = false ∧ c ≠ ')' := by
  apply forall_mem_intercalate
  · exact List.forall_mem_cons.2 ⟨by decide, List.forall_mem_singleton.2 (by decide)⟩
  · intro part hpart c hc
    obtain ⟨entry, hentry, rfl⟩ := List.mem_map.1 hpart
    obtain ⟨hbreak, hstop⟩ := clean_entryText (h entry hentry) hc
    refine ⟨hbreak, ?_⟩
    rintro rfl
    exact hstop (by decide)

/-! ### Lines -/

/-- `spec` with what a trimmed line declares. -/
def declare (spec : Spec) (line : List Char) : Spec :=
  match functionLine? line with
  | some (name, signature) => { spec with funcs := spec.funcs.insert name signature }
  | none =>
    match variableLine? line with
    | some (name, type) => { spec with vars := spec.vars.insert name type }
    | none => spec

theorem addLine_eq (spec : Spec) (line : List Char) :
    addLine spec line =
      if (trim line).isEmpty || (trim line).head? = some '#' then spec else spec.declare (trim line) := rfl

theorem addLine_append_blanks {behind : List Char} (h : Blanks behind) (spec : Spec) (line : List Char) :
    addLine spec (line ++ behind) = addLine spec line := by
  rw [addLine_eq, addLine_eq, trim_append_blanks h]

/-- A line from a name to a type is a declaration as it stands. -/
theorem addLine_of_declaredName {name type : String} (hname : isDeclaredName name = true) {stops : List Char}
    (htype : InLine stops type.toList) (spec : Spec) (middle : List Char) :
    addLine spec (name.toList ++ (middle ++ type.toList)) = spec.declare (name.toList ++ (middle ++ type.toList)) := by
  obtain ⟨⟨first, rest, hfirst, hstart⟩, -⟩ := exists_of_isDeclaredName hname
  have hhead : (name.toList ++ (middle ++ type.toList)).head? = some first := by simp [hfirst]
  have htrimmed : Trimmed (name.toList ++ (middle ++ type.toList)) := by
    constructor
    · intro c hc
      obtain rfl : first = c := Option.some.inj (hhead.symm.trans hc)
      exact isBlank_of_isNameChar (isNameChar_of_isNameStart hstart)
    · rw [← List.append_assoc, List.getLast?_append_of_ne_nil _ htype.ne_nil]
      exact htype.trimmed.last
  have hhash : first ≠ '#' := by
    rintro rfl
    exact absurd hstart (by decide)
  rw [addLine_eq, trim_eq_self htrimmed, hhead, if_neg]
  simp [hfirst, hhash]

theorem functionLine?_of_front {line rest after : List Char} {name : String}
    (hfront : nameAtFront? line = some (name, '(' :: rest)) (hdrop : rest.dropWhile (· ≠ ')') = ')' :: after) :
    functionLine? line =
      (typeAfterColon? after).map fun returns => (name, ⟨paramsOf (rest.takeWhile (· ≠ ')')), returns⟩) := by
  unfold functionLine?
  simp only [hfront, hdrop]

theorem toList_functionText (entry : String × Signature) :
    (functionText entry).toList = entry.1.toList ++
      '(' :: ((", ".intercalate (entry.2.params.entries.map entryText)).toList ++
        ')' :: ':' :: ' ' :: entry.2.returns.toList) := by
  simp [functionText, Signature.display_eq]

theorem addLine_entryText {entry : String × String} (hname : isDeclaredName entry.1 = true)
    (htype : InLine [] entry.2.toList) (spec : Spec) :
    addLine spec (entryText entry).toList = { spec with vars := spec.vars.insert entry.1 entry.2 } := by
  have hfront := nameAtFront?_append hname (c := ':') (by decide) (by decide) (' ' :: entry.2.toList)
  -- Where a function has its parenthesis stands the colon.
  have hfunction : functionLine? (entry.1.toList ++ ':' :: ' ' :: entry.2.toList) = none := by
    rw [functionLine?, hfront]
    rfl
  have hvariable : variableLine? (entry.1.toList ++ ':' :: ' ' :: entry.2.toList) = some entry := by
    rw [variableLine?, hfront]
    change (typeAfterColon? (':' :: ' ' :: entry.2.toList)).map (entry.1, ·) = some entry
    rw [typeAfterColon?_colon htype]
    rfl
  have hline := addLine_of_declaredName hname htype spec [':', ' ']
  simp only [List.cons_append, List.nil_append] at hline
  rw [toList_entryText, hline, declare, hfunction, hvariable]

theorem addLine_functionText {entry : String × Signature} (hname : isDeclaredName entry.1 = true)
    (h : entry.2.Legible) (spec : Spec) :
    addLine spec (functionText entry).toList = { spec with funcs := spec.funcs.insert entry.1 entry.2 } := by
  let params := (", ".intercalate (entry.2.params.entries.map entryText)).toList
  let after := ')' :: ':' :: ' ' :: entry.2.returns.toList
  have hclose : ∀ c ∈ params, decide (c ≠ ')') = true := fun c hc => decide_eq_true (clean_params h.params c hc).2
  have htake : (params ++ after).takeWhile (· ≠ ')') = params := by
    rw [List.takeWhile_append_of_pos hclose, List.takeWhile_cons_of_neg (by simp), List.append_nil]
  have hdrop : (params ++ after).dropWhile (· ≠ ')') = after := by
    rw [List.dropWhile_append_of_pos hclose, List.dropWhile_cons_of_neg (by simp)]
  have hfunction : functionLine? (entry.1.toList ++ '(' :: (params ++ after)) = some entry := by
    rw [functionLine?_of_front (nameAtFront?_append hname (by decide) (by decide) _) hdrop, htake,
      typeAfterColon?_colon h.returns, paramsOf_intercalate h.params]
    rfl
  have hline := addLine_of_declaredName hname h.returns spec ('(' :: (params ++ [')', ':', ' ']))
  simp only [List.cons_append, List.append_assoc, List.nil_append] at hline
  rw [toList_functionText, hline, declare, hfunction]

/-! ### Texts -/

theorem foldl_addLine_unbroken {cs : List Char} (h : Unbroken cs) {ending : List Char}
    (hend : ending = [] ∨ ending = ['\n']) (spec : Spec) :
    (lines (cs ++ ending)).foldl addLine spec = addLine spec cs := by
  rcases hend with rfl | rfl
  · rw [List.append_nil]
    by_cases hne : cs = []
    · subst hne
      rfl
    · rw [lines_of_unbroken h hne]
      rfl
  · rw [lines_append_newline h]
    exact addLine_append_blanks blanks_newline spec cs

/-- Lines that are joined by line feeds are added one after the other, whether or not the last one ends in one. -/
theorem foldl_addLine_intercalate {parts : List String} (h : ∀ part ∈ parts, Unbroken part.toList) {ending : List Char}
    (hend : ending = [] ∨ ending = ['\n']) (spec : Spec) :
    (lines (("\n".intercalate parts).toList ++ ending)).foldl addLine spec =
      parts.foldl (fun spec part => addLine spec part.toList) spec := by
  induction parts generalizing spec with
  | nil =>
    rw [String.intercalate_nil]
    exact foldl_addLine_unbroken unbroken_nil hend spec
  | cons part rest ih =>
    obtain ⟨hpart, hrest⟩ := List.forall_mem_cons.1 h
    cases rest with
    | nil =>
      rw [String.intercalate_singleton]
      exact foldl_addLine_unbroken hpart hend spec
    | cons next more =>
      have htext : ("\n".intercalate (part :: next :: more)).toList ++ ending =
          part.toList ++ '\n' :: (("\n".intercalate (next :: more)).toList ++ ending) := by
        simp [String.intercalate_cons_cons]
      rw [htext, lines_append_newline hpart, List.foldl_cons, addLine_append_blanks blanks_newline, ih hrest]
      rfl

/-- Lines that each put one entry into a registry of the spec put in all `entries`, in their order. -/
theorem foldl_addLine_map {α : Type} (specOf : Registry α → Spec) {lineText : String × α → String}
    {entries : List (String × α)}
    (h : ∀ entry ∈ entries, ∀ r, addLine (specOf r) (lineText entry).toList = specOf (r.insert entry.1 entry.2))
    (r : Registry α) :
    (entries.map lineText).foldl (fun spec part => addLine spec part.toList) (specOf r) =
      specOf (entries.foldl (fun r entry => r.insert entry.1 entry.2) r) := by
  induction entries generalizing r with
  | nil => rfl
  | cons entry rest ih =>
    obtain ⟨hentry, hrest⟩ := List.forall_mem_cons.1 h
    rw [List.map_cons, List.foldl_cons, hentry, ih hrest]
    rfl

theorem unbroken_entryText {entry : String × String} (hname : isDeclaredName entry.1 = true)
    (htype : InLine [] entry.2.toList) : Unbroken (entryText entry).toList := by
  rw [toList_entryText, Unbroken, List.forall_mem_append, List.forall_mem_cons, List.forall_mem_cons]
  exact ⟨unbroken_of_isDeclaredName hname, by decide, by decide, htype.unbroken⟩

theorem unbroken_functionText {entry : String × Signature} (hname : isDeclaredName entry.1 = true)
    (h : entry.2.Legible) : Unbroken (functionText entry).toList := by
  have hparams := fun c hc => (clean_params h.params c hc).1
  rw [toList_functionText, Unbroken, List.forall_mem_append, List.forall_mem_cons, List.forall_mem_append,
    List.forall_mem_cons, List.forall_mem_cons, List.forall_mem_cons]
  exact ⟨unbroken_of_isDeclaredName hname, by decide, hparams, by decide, by decide, by decide, h.returns.unbroken⟩

/-- A `Legible` spec is read from its lines. -/
theorem Legible.foldl_addLine {spec : Spec} (h : spec.Legible) {ending : List Char}
    (hend : ending = [] ∨ ending = ['\n']) : (lines (spec.display.toList ++ ending)).foldl addLine {} = spec := by
  have hlines : ∀ part ∈ spec.lineTexts, Unbroken part.toList := by
    intro part hpart
    rcases List.mem_append.1 hpart with hpart | hpart
    · obtain ⟨entry, hentry, rfl⟩ := List.mem_map.1 hpart
      exact unbroken_entryText (h.vars entry hentry).1 (h.vars entry hentry).2
    · obtain ⟨entry, hentry, rfl⟩ := List.mem_map.1 hpart
      exact unbroken_functionText (h.funcs entry hentry).1 (h.funcs entry hentry).2
  have hvars := foldl_addLine_map (fun vars => ⟨vars, {}⟩)
    (fun entry hentry _ => addLine_entryText (h.vars entry hentry).1 (h.vars entry hentry).2 _) {}
  have hfuncs := foldl_addLine_map (fun funcs => ⟨spec.vars, funcs⟩)
    (fun entry hentry _ => addLine_functionText (h.funcs entry hentry).1 (h.funcs entry hentry).2 _) {}
  rw [spec.vars.foldl_insert_entries] at hvars
  rw [spec.funcs.foldl_insert_entries] at hfuncs
  rw [display, foldl_addLine_intercalate hlines hend, lineTexts, List.foldl_append, hvars, hfuncs]

/-! ## What is read is legible -/

theorem inLine_typeAfterColon? {cs : List Char} {type : String} (hcs : Unbroken cs)
    (h : typeAfterColon? cs = some type) : InLine [] type.toList := by
  unfold typeAfterColon? at h
  split at h
  · next rest hrest =>
    have hsub : ∀ c ∈ skipBlanks rest, c ∈ cs := by
      intro c hc
      apply (List.dropWhile_suffix isBlank).mem
      change c ∈ skipBlanks cs
      rw [hrest]
      exact List.mem_cons_of_mem _ ((List.dropWhile_suffix isBlank).mem hc)
    cases htype : skipBlanks rest with
    | nil => simp [htype] at h
    | cons first more =>
      have hfirst : isBlank first = false :=
        not_isBlank_dropWhile rest first (congrArg List.head? htype)
      rw [htype] at h hsub
      obtain rfl : String.ofList (trim (first :: more)) = type := by simpa using h
      rw [String.toList_ofList]
      exact inLine_trim (trim_ne_nil hfirst) fun c hc => ⟨hcs c (hsub c hc), List.not_mem_nil⟩
  · cases h

theorem isDeclaredName_of_nameAtFront? {line rest : List Char} {name : String}
    (h : nameAtFront? line = some (name, rest)) : isDeclaredName name = true ∧ ∀ c ∈ rest, c ∈ line := by
  unfold nameAtFront? at h
  split at h
  · next hstart =>
    obtain ⟨rfl, rfl⟩ := Prod.mk.inj (Option.some.inj h)
    constructor
    · cases line with
      | nil => simp at hstart
      | cons first more =>
        have hfirst : isNameStart first = true := by simpa using hstart
        rw [isDeclaredName, String.toList_ofList, List.takeWhile_cons_of_pos (isNameChar_of_isNameStart hfirst),
          List.head?_cons, Option.any_some, hfirst, Bool.true_and, List.all_cons, isNameChar_of_isNameStart hfirst,
          Bool.true_and]
        exact List.all_takeWhile
    · intro c hc
      exact (List.dropWhile_suffix isNameChar).mem ((List.dropWhile_suffix isBlank).mem hc)
  · cases h

theorem inLine_of_isDeclaredName {name : String} (h : isDeclaredName name = true) {stops : List Char}
    (hstops : ∀ c ∈ stops, isNameChar c = false) : InLine stops name.toList := by
  obtain ⟨⟨first, rest, hname, -⟩, hall⟩ := exists_of_isDeclaredName h
  have hblank : ∀ c ∈ name.toList, isBlank c = false := fun c hc => isBlank_of_isNameChar (hall c hc)
  refine ⟨by simp [hname], ⟨?_, ?_⟩, ?_⟩
  · intro c hc
    exact hblank c (List.mem_of_mem_head? hc)
  · intro c hc
    exact hblank c (List.mem_of_mem_getLast? hc)
  · intro c hc
    refine ⟨unbroken_of_isDeclaredName h c hc, fun hstop => ?_⟩
    exact absurd ((hstops c hstop).symm.trans (hall c hc)) (by decide)

theorem inLine_any : InLine [',', ')'] any.toList :=
  inLine_of_isDeclaredName (by decide) (List.forall_mem_cons.2 ⟨by decide, List.forall_mem_singleton.2 (by decide)⟩)

theorem all_addParam {params : Registry String} (hparams : params.All LegibleParam) {part : List Char}
    (h : ∀ c ∈ part, isLineBreak c = false ∧ c ∉ [',', ')']) : (addParam params part).All LegibleParam := by
  have hname : ∀ c ∈ part.takeWhile (· ≠ ':'), isLineBreak c = false ∧ c ∉ [',', ':', ')'] := by
    intro c hc
    obtain ⟨hbreak, hstop⟩ := h c ((List.takeWhile_prefix _).mem hc)
    have hcolon : c ≠ ':' := by simpa using List.mem_takeWhile_imp hc
    exact ⟨hbreak, by grind⟩
  have htype : ∀ c ∈ (part.dropWhile (· ≠ ':')).drop 1, isLineBreak c = false ∧ c ∉ [',', ')'] :=
    fun c hc => h c ((List.dropWhile_suffix _).mem (List.mem_of_mem_drop hc))
  unfold addParam
  dsimp only
  split
  · exact hparams
  · next hne =>
    apply hparams.insert
    constructor
    · rw [String.toList_ofList]
      exact inLine_trim (by simpa using hne) hname
    · split
      · exact inLine_any
      · next hne' =>
        rw [String.toList_ofList]
        exact inLine_trim (by simpa using hne') htype

theorem all_paramsOf {cs : List Char} (h : ∀ c ∈ cs, isLineBreak c = false ∧ c ≠ ')') :
    (paramsOf cs).All LegibleParam := by
  have hparts : ∀ part ∈ pieces ',' cs, ∀ c ∈ part, isLineBreak c = false ∧ c ∉ [',', ')'] := by
    intro part hpart c hc
    obtain ⟨hbreak, hclose⟩ := h c (mem_of_mem_pieces hpart hc)
    have hcomma : c ≠ ',' := by
      rintro rfl
      exact not_mem_of_mem_pieces hpart hc
    exact ⟨hbreak, by grind⟩
  rw [paramsOf_eq]
  exact List.foldlRecOn _ _ Registry.all_empty fun params hparams part hpart =>
    all_addParam hparams (hparts part hpart)

theorem legible_functionLine? {line : List Char} (hline : Unbroken line) {name : String} {signature : Signature}
    (h : functionLine? line = some (name, signature)) : isDeclaredName name = true ∧ signature.Legible := by
  unfold functionLine? at h
  split at h
  · next name' rest hfront =>
    obtain ⟨hname, hrest⟩ := isDeclaredName_of_nameAtFront? hfront
    have hunbroken : Unbroken rest := fun c hc => hline c (hrest c (List.mem_cons_of_mem _ hc))
    split at h
    · next after hdrop =>
      obtain ⟨returns, hreturns, heq⟩ := Option.map_eq_some_iff.1 h
      obtain ⟨rfl, rfl⟩ := Prod.mk.inj heq
      have hafter : Unbroken after := by
        intro c hc
        apply hunbroken c
        apply (List.dropWhile_suffix (· ≠ ')')).mem
        rw [hdrop]
        exact List.mem_cons_of_mem _ hc
      refine ⟨hname, all_paramsOf ?_, inLine_typeAfterColon? hafter hreturns⟩
      intro c hc
      exact ⟨hunbroken c ((List.takeWhile_prefix _).mem hc), by simpa using List.mem_takeWhile_imp hc⟩
    · cases h
  · cases h

theorem legible_variableLine? {line : List Char} (hline : Unbroken line) {name type : String}
    (h : variableLine? line = some (name, type)) : isDeclaredName name = true ∧ InLine [] type.toList := by
  unfold variableLine? at h
  split at h
  · next name' rest hfront =>
    obtain ⟨hname, hrest⟩ := isDeclaredName_of_nameAtFront? hfront
    obtain ⟨type', htype, heq⟩ := Option.map_eq_some_iff.1 h
    obtain ⟨rfl, rfl⟩ := Prod.mk.inj heq
    exact ⟨hname, inLine_typeAfterColon? (fun c hc => hline c (hrest c hc)) htype⟩
  · cases h

/-- What a line declares is legible. -/
theorem Legible.addLine {spec : Spec} (h : spec.Legible) {line : List Char} (hline : Unbroken (trim line)) :
    (spec.addLine line).Legible := by
  rw [addLine_eq, declare]
  split
  · exact h
  · split
    · next name signature hfunction => exact ⟨h.vars, h.funcs.insert (legible_functionLine? hline hfunction)⟩
    · split
      · next name type hvariable => exact ⟨h.vars.insert (legible_variableLine? hline hvariable), h.funcs⟩
      · exact h

theorem legible_parse (text : String) : (parse text).Legible :=
  List.foldlRecOn _ _ ⟨Registry.all_empty, Registry.all_empty⟩ fun _ h _ hline => h.addLine (unbroken_trim hline)

/-- The spec of any `text` is read from its own text (`Spec.display`), with or without a line feed at the end; and the
specs that are read from their own texts are those with `Legible` parts. -/
theorem parse_display (text : String) :
    parse (parse text).display = parse text ∧ parse ((parse text).display ++ "\n") = parse text ∧
      ∀ spec : Spec, parse spec.display = spec ↔ spec.Legible := by
  have hread {spec : Spec} (h : spec.Legible) : parse spec.display = spec := by
    simpa [parse] using h.foldl_addLine (.inl rfl)
  refine ⟨hread (legible_parse text), ?_, fun spec => ⟨fun h => h ▸ legible_parse _, hread⟩⟩
  rw [parse, String.toList_append]
  exact (legible_parse text).foldl_addLine (.inr rfl)

end Spec

end Typing

end HindiScript
