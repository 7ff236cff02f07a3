import HindiScript.Proofs.Json.Quoting
import HindiScript.Proofs.Script.Grouping
import HindiScript.Proofs.Text.Alignment

/-!
# Texts of expressions in simple characters

The text of an expression can hold what the language itself could not read back: escapes in a string, a number of any
length, any number of parameters with any names. `recode` goes through such a text and replaces strings, numbers and
parameters by codes in digits and underscores. It finds them without knowing the expression, and what it makes is the
text of the expression with the codes in it (`Plain.recoded_text`), which can be read back. Main statement: expressions
that assign to no assignment and to no arrow function are told apart by their texts
(`Plain.unlined_eq_of_exprText_eq`).
-/

namespace HindiScript

open Cursor

namespace Recoding

/-! ## Codes -/

def codeChars (cs : List Char) : List Char := cs.flatMap fun c => Nat.toDigits 10 c.toNat ++ ['_']

theorem mem_codeChars {cs : List Char} {c : Char} (h : c ∈ codeChars cs) : c.isDigit = true ∨ c = '_' := by
  obtain ⟨d, -, hc⟩ := List.mem_flatMap.1 h
  rcases List.mem_append.1 hc with hc | hc
  · exact .inl (Nat.isDigit_of_mem_toDigits (by decide) (by decide) hc)
  · exact .inr (List.mem_singleton.1 hc)

/-- Digits and underscores need no escape. -/
theorem bare_of_isDigit_or {c : Char} (h : c.isDigit = true ∨ c = '_') :
    c ≠ '\x22' ∧ c ≠ '\\' ∧ 0x20 ≤ c.toNat := by
  rcases h with hdigit | rfl
  · have : 0x30 ≤ c.toNat := (Char.isDigit_iff_toNat.1 hdigit).1
    refine ⟨?_, ?_, by omega⟩
    · rintro rfl
      exact absurd hdigit (by decide)
    · rintro rfl
      exact absurd hdigit (by decide)
  · decide

theorem toDigits_injective : Function.Injective (Nat.toDigits 10) :=
  Function.LeftInverse.injective fun _ => Nat.ofDigitChars_toDigits (by decide) (by decide)

theorem pieces_codeChars (cs : List Char) :
    Text.pieces '_' (codeChars cs) = cs.map (fun c => Nat.toDigits 10 c.toNat) ++ [[]] := by
  induction cs with
  | nil => rfl
  | cons c cs ih =>
    have hfree : '_' ∉ Nat.toDigits 10 c.toNat := by
      intro hmem
      exact absurd (Nat.isDigit_of_mem_toDigits (by decide) (by decide) hmem) (by decide)
    have hcode : codeChars (c :: cs) = Nat.toDigits 10 c.toNat ++ '_' :: codeChars cs := by simp [codeChars]
    rw [hcode, Text.pieces_append, Text.pieces_of_not_mem hfree, ih]
    rfl

theorem codeChars_injective : Function.Injective codeChars := by
  intro cs ds h
  have hpieces := congrArg (Text.pieces '_') h
  rw [pieces_codeChars, pieces_codeChars, List.append_cancel_right_eq] at hpieces
  exact List.map_injective_iff.2 (toDigits_injective.comp fun _ _ => Char.toNat_inj.1) hpieces

/-- The code of a string. -/
def stringCode (text : String) : String := String.ofList (codeChars text.toList)

/-- The code of a number. -/
def numberCode (n : Nat) : String := String.ofList ('n' :: Nat.toDigits 10 n)

/-- The code of parameters, which is a name. -/
def paramsCode (params : List String) : String := String.ofList ('x' :: codeChars (", ".intercalate params).toList)

theorem stringCode_injective : Function.Injective stringCode := by
  intro s t h
  have := codeChars_injective (String.ofList_injective h)
  exact String.toList_inj.1 this

theorem numberCode_injective : Function.Injective numberCode := by
  intro m n h
  exact toDigits_injective (List.cons_inj_right _ |>.1 (String.ofList_injective h))

theorem stringCode_ne_numberCode (text : String) (n : Nat) : stringCode text ≠ numberCode n := by
  intro h
  have hmem : 'n' ∈ codeChars text.toList := by
    rw [String.ofList_injective h]
    exact List.mem_cons_self
  rcases mem_codeChars hmem with hdigit | hline
  · exact absurd hdigit (by decide)
  · exact absurd hline (by decide)

/-- Names cannot be mistaken for each other when they stand behind commas. -/
theorem pieces_intercalate {name : String} {names : List String} (h : ∀ n ∈ name :: names, isName n = true) :
    Text.pieces ',' (", ".intercalate (name :: names)).toList = name.toList :: names.map fun n => ' ' :: n.toList := by
  have hfree {n : String} (hn : isName n = true) : ',' ∉ n.toList := fun hmem =>
    absurd (isWordChar_of_mem_name hn hmem) (by decide)
  induction names generalizing name with
  | nil =>
    rw [String.intercalate_singleton, Text.pieces_of_not_mem (hfree (h name List.mem_cons_self))]
    rfl
  | cons next rest ih =>
    rw [List.forall_mem_cons] at h
    have htext : (", ".intercalate (name :: next :: rest)).toList =
        name.toList ++ ',' :: ' ' :: (", ".intercalate (next :: rest)).toList := by
      rw [String.intercalate_cons_cons]
      simp
    rw [htext, Text.pieces_append, Text.pieces_of_not_mem (hfree h.1), Text.pieces, if_neg (by decide), ih h.2]
    rfl

theorem paramsCode_injective {ps qs : List String} (hp : ∀ p ∈ ps, isName p = true) (hq : ∀ q ∈ qs, isName q = true)
    (h : paramsCode ps = paramsCode qs) : ps = qs := by
  have htext : (", ".intercalate ps).toList = (", ".intercalate qs).toList :=
    codeChars_injective (List.cons_inj_right _ |>.1 (String.ofList_injective h))
  have hpieces := congrArg (Text.pieces ',') htext
  have hempty {q : String} {qs : List String} (hq : ∀ n ∈ q :: qs, isName n = true)
      (h : [[]] = Text.pieces ',' (", ".intercalate (q :: qs)).toList) : False := by
    rw [pieces_intercalate hq] at h
    obtain ⟨ch, cs, hname, -⟩ := exists_cons_of_isName (hq q List.mem_cons_self)
    rw [hname] at h
    cases h
  cases ps with
  | nil =>
    cases qs with
    | nil => rfl
    | cons q qs => exact (hempty hq hpieces).elim
  | cons p ps =>
    cases qs with
    | nil => exact (hempty hp hpieces.symm).elim
    | cons q qs =>
      rw [pieces_intercalate hp, pieces_intercalate hq, List.cons.injEq] at hpieces
      have hspace : Function.Injective fun n : String => ' ' :: n.toList := fun m n h =>
        String.toList_inj.1 (List.cons_inj_right _ |>.1 h)
      rw [String.toList_inj.1 hpieces.1, List.map_injective_iff.2 hspace hpieces.2]

/-! ## Recoding -/

/-- A character that may stand between the parentheses of parameters. -/
def isParamChar (c : Char) : Bool := isWordChar c || c = ',' || c = ' '

/-- Behind an opening parenthesis, parameters and an arrow follow. -/
def paramsAhead (cs : List Char) : Bool := [')', ' ', '=', '>'].isPrefixOf (cs.dropWhile isParamChar)

/-- A run of word characters; a number is replaced by a string that holds its `numberCode`. -/
def wordCode (word : List Char) : List Char :=
  if word.head?.any Char.isDigit then '\x22' :: 'n' :: word ++ ['\x22'] else word

/-- The text with strings, numbers and parameters replaced by their codes. -/
def recode (cs : List Char) : List Char :=
  match cs with
  | [] => []
  | c :: rest =>
    if c = '\x22' then
      match _h : Json.stringTail rest with
      | some (text, more) => '\x22' :: codeChars text ++ '\x22' :: recode more
      | none => c :: recode rest
    else if c = '(' && paramsAhead rest then
      '(' :: 'x' :: codeChars (rest.takeWhile isParamChar) ++ recode (rest.dropWhile isParamChar)
    else if isWordChar c then wordCode (c :: rest.takeWhile isWordChar) ++ recode (rest.dropWhile isWordChar)
    else c :: recode rest
termination_by cs.length
decreasing_by
  · have := Json.length_lt_of_stringTail _h
    simp only [List.length_cons]
    omega
  · exact Nat.lt_succ_self _
  · exact Nat.lt_succ_of_le (List.length_dropWhile_le ..)
  · exact Nat.lt_succ_of_le (List.length_dropWhile_le ..)
  · exact Nat.lt_succ_self _

/-! ### One step -/

section

variable {c : Char} {cs word rest : List Char}

theorem recode_nil : recode [] = [] := by rw [recode]

theorem recode_of_ne (h : c ≠ '\x22') (rest : List Char) :
    recode (c :: rest) =
      if c = '(' && paramsAhead rest then
        '(' :: 'x' :: codeChars (rest.takeWhile isParamChar) ++ recode (rest.dropWhile isParamChar)
      else if isWordChar c then wordCode (c :: rest.takeWhile isWordChar) ++ recode (rest.dropWhile isWordChar)
      else c :: recode rest := by
  rw [recode, if_neg h]

/-- A character that is copied as it is. -/
def isCopied (c : Char) : Bool := !isWordChar c && c ≠ '\x22' && c ≠ '('

theorem recode_copied (h : cs.all isCopied = true) (rest : List Char) :
    recode (cs ++ rest) = cs ++ recode rest := by
  induction cs with
  | nil => rfl
  | cons c cs ih =>
    obtain ⟨hc, hcs⟩ := Bool.and_eq_true_iff.1 h
    simp only [isCopied, Bool.and_eq_true, Bool.not_eq_true', decide_eq_true_eq] at hc
    obtain ⟨⟨hword, hquote⟩, hparen⟩ := hc
    rw [List.cons_append, recode_of_ne hquote, if_neg (by simp [hparen]), if_neg (by simp [hword]), ih hcs]
    rfl

theorem recode_open (h : paramsAhead rest = false) : recode ('(' :: rest) = '(' :: recode rest := by
  rw [recode_of_ne (by decide), if_neg (by simp [h]), if_neg (by decide)]

theorem recode_params (h : paramsAhead rest = true) : recode ('(' :: rest) =
    '(' :: 'x' :: codeChars (rest.takeWhile isParamChar) ++ recode (rest.dropWhile isParamChar) := by
  rw [recode_of_ne (by decide), if_pos (by simp [h])]

theorem recode_word (hne : word ≠ []) (h : ∀ c ∈ word, isWordChar c = true) (hb : Boundary rest) :
    recode (word ++ rest) = wordCode word ++ recode rest := by
  cases word with
  | nil => exact absurd rfl hne
  | cons c cs =>
    rw [List.forall_mem_cons] at h
    have hquote : c ≠ '\x22' := by
      rintro rfl
      exact absurd h.1 (by decide)
    have hparen : c ≠ '(' := by
      rintro rfl
      exact absurd h.1 (by decide)
    have hrun : rest.takeWhile isWordChar = [] ∧ rest.dropWhile isWordChar = rest := by
      cases rest with
      | nil => exact ⟨rfl, rfl⟩
      | cons d rest =>
        have hd : isWordChar d = false := hb d rfl
        simp [hd]
    rw [List.cons_append, recode_of_ne hquote, if_neg (by simp [hparen]), if_pos h.1,
      List.takeWhile_append_of_pos h.2, List.dropWhile_append_of_pos h.2, hrun.1, hrun.2, List.append_nil]

theorem recode_quote (text : String) (rest : List Char) :
    recode ((Json.quote text).toList ++ rest) = (Json.quote (stringCode text)).toList ++ recode rest := by
  have hcode : (Json.quote (stringCode text)).toList = '\x22' :: codeChars text.toList ++ ['\x22'] := by
    rw [toList_quote, stringCode, String.toList_ofList]
    rw [stringCode, String.toList_ofList]
    exact fun c hc => bare_of_isDigit_or (mem_codeChars hc)
  have htext : (Json.quote text).toList ++ rest =
      '\x22' :: (text.toList.flatMap Json.escapeChar ++ '\x22' :: rest) := by
    simp [Json.quote]
  have hread := Json.stringTail_flatMap_escapeChar text.toList rest
  rw [htext, hcode, recode, if_pos rfl]
  split
  · next text' more h =>
    rw [hread] at h
    obtain ⟨rfl, rfl⟩ := Prod.mk.inj (Option.some.inj h)
    simp
  · next h =>
    rw [hread] at h
    cases h

end

/-! ### Pieces of text -/

/-- What may stand behind an expression: it carries on no word and is no arrow. -/
def Stop (rest : List Char) : Prop := Boundary rest ∧ ¬ [' ', '=', '>'] <+: rest

/-- The first character of `cs` that cannot belong to parameters, if there is one, closes no parenthesis. -/
def Unclosed (cs : List Char) : Prop := (cs.dropWhile isParamChar).head? ≠ some ')'

instance (cs : List Char) : Decidable (Unclosed cs) := inferInstanceAs (Decidable (_ ≠ _))

/-- In front of what may stand behind an expression, `s` is recoded as `t`. Behind a parenthesis, `s` cannot be
mistaken for parameters. -/
structure Recoded (s t : String) : Prop where
  codes (rest : List Char) (h : Stop rest) : recode (s.toList ++ rest) = t.toList ++ recode rest
  unclosed : Unclosed s.toList

section

variable {c : Char} {cs ds rest : List Char} {s t s' t' : String}

theorem stop_cons (hw : isWordChar c = false) (hs : c ≠ ' ') (rest : List Char) : Stop (c :: rest) := by
  refine ⟨.cons hw rest, fun hp => ?_⟩
  obtain ⟨_, h⟩ := hp
  exact absurd (List.cons.inj h).1 (Ne.symm hs)

theorem unclosed_append (h : Unclosed cs) (h' : Unclosed ds) : Unclosed (cs ++ ds) := by
  unfold Unclosed at h h' ⊢
  rw [List.dropWhile_append]
  split
  · exact h'
  · next hne =>
    rw [List.head?_append_of_ne_nil _ (by simpa using hne)]
    exact h

theorem unclosed_cons (hp : isParamChar c = false) (hc : c ≠ ')') (cs : List Char) : Unclosed (c :: cs) := by
  unfold Unclosed
  rw [List.dropWhile_cons_of_neg (by simp [hp])]
  simpa using hc

theorem unclosed_word (h : ∀ c ∈ cs, isWordChar c = true) : Unclosed cs := by
  have hall : ∀ c ∈ cs, isParamChar c = true := fun c hc => by simp [isParamChar, h c hc]
  unfold Unclosed
  rw [List.dropWhile_eq_nil_iff.2 hall]
  nofun

/-- No arrow follows the parentheses around an expression. -/
theorem paramsAhead_of_unclosed (h : Unclosed cs) (hr : Stop rest) : paramsAhead (cs ++ ')' :: rest) = false := by
  have hclose : isParamChar ')' = false := by decide
  unfold paramsAhead
  unfold Unclosed at h
  rw [List.dropWhile_append]
  split
  · rw [List.dropWhile_cons_of_neg (by simp [hclose]), List.isPrefixOf_cons_cons_self, Bool.eq_false_iff]
    exact fun hp => hr.2 (List.isPrefixOf_iff_prefix.1 hp)
  · next hne =>
    cases hd : cs.dropWhile isParamChar with
    | nil => simp [hd] at hne
    | cons d ds =>
      rw [hd] at h
      have : ')' ≠ d := fun he => h (by rw [he]; rfl)
      simp [List.isPrefixOf, this]

theorem Recoded.append (h : Recoded s t) (h' : Recoded s' t') (hstop : ∀ rest, Stop (s'.toList ++ rest)) :
    Recoded (s ++ s') (t ++ t') := by
  refine ⟨fun rest hr => ?_, ?_⟩
  · rw [String.toList_append, String.toList_append, List.append_assoc, List.append_assoc, h.codes _ (hstop rest),
      h'.codes rest hr]
  · rw [String.toList_append]
    exact unclosed_append h.unclosed h'.unclosed

/-- `marks` and blanks in front are copied. -/
theorem Recoded.behind (h : Recoded s t) (marks : String) (hm : marks.toList.all isCopied = true)
    (hc : Unclosed marks.toList) : Recoded (marks ++ s) (marks ++ t) := by
  refine ⟨fun rest hr => ?_, ?_⟩
  · rw [String.toList_append, String.toList_append, List.append_assoc, List.append_assoc, recode_copied hm,
      h.codes rest hr]
  · rw [String.toList_append]
    exact unclosed_append hc h.unclosed

theorem wordCode_name {name : String} (h : isName name = true) : wordCode name.toList = name.toList := by
  obtain ⟨ch, cs, htext, hstart, -⟩ := exists_cons_of_isName h
  have hdigit : ch.isDigit = false := by
    rw [Bool.eq_false_iff]
    intro hd
    rw [Text.isLetter_of_isDigit hd, Bool.false_or, decide_eq_true_eq] at hstart
    rw [hstart] at hd
    exact absurd hd (by decide)
  rw [htext]
  simp [wordCode, hdigit]

theorem recode_name {name : String} (h : isName name = true) (hb : Boundary rest) :
    recode (name.toList ++ rest) = name.toList ++ recode rest := by
  obtain ⟨ch, cs, htext, -⟩ := exists_cons_of_isName h
  have hne : name.toList ≠ [] := by
    rw [htext]
    exact List.cons_ne_nil ch cs
  rw [recode_word hne (fun c hc => isWordChar_of_mem_name h hc) hb, wordCode_name h]

theorem recoded_name {name : String} (h : isName name = true) : Recoded name name :=
  ⟨fun _ hr => recode_name h hr.1, unclosed_word fun _ hc => isWordChar_of_mem_name h hc⟩

/-- A word and a blank in front are copied. -/
theorem Recoded.behind_word (h : Recoded s t) {word : String} (hw : isName word = true) :
    Recoded (word ++ (" " ++ s)) (word ++ (" " ++ t)) := by
  have hblank := h.behind " " (by decide) (by decide)
  refine ⟨fun rest hr => ?_, ?_⟩
  · have hb : Boundary ((" " ++ s).toList ++ rest) := by
      rw [String.toList_append]
      exact .cons (by decide) _
    rw [String.toList_append, List.append_assoc, recode_name hw hb, hblank.codes rest hr]
    simp
  · rw [String.toList_append]
    exact unclosed_append (recoded_name hw).unclosed hblank.unclosed

theorem Recoded.parentheses (h : Recoded s t) : Recoded ("(" ++ s ++ ")") ("(" ++ t ++ ")") := by
  refine ⟨fun rest hr => ?_, ?_⟩
  · have hclose : Stop (')' :: rest) := stop_cons (by decide) (by decide) rest
    have hrest : recode (')' :: rest) = ')' :: recode rest := @recode_copied [')'] (by decide) rest
    have hopen := recode_open (paramsAhead_of_unclosed h.unclosed hr)
    rw [h.codes _ hclose, hrest] at hopen
    simpa using hopen
  · rw [String.toList_append, String.toList_append]
    exact unclosed_cons (by decide) (by decide) _

theorem recoded_quote (text : String) : Recoded (Json.quote text) (Json.quote (stringCode text)) := by
  refine ⟨fun rest _ => recode_quote text rest, ?_⟩
  rw [Json.quote, String.toList_ofList]
  exact unclosed_cons (by decide) (by decide) _

theorem recoded_number (n : Nat) : Recoded (toString n) (Json.quote (numberCode n)) := by
  have hdigits {c : Char} (hc : c ∈ Nat.toDigits 10 n) : c.isDigit = true :=
    Nat.isDigit_of_mem_toDigits (by decide) (by decide) hc
  have hword : ∀ c ∈ Nat.toDigits 10 n, isWordChar c = true := fun c hc => by
    simp [isWordChar, Text.isNumeric_of_isDigit (hdigits hc)]
  have hcode : (Json.quote (numberCode n)).toList = wordCode (Nat.toDigits 10 n) := by
    have hfirst : (Nat.toDigits 10 n).head?.any Char.isDigit = true := by
      cases hd : Nat.toDigits 10 n with
      | nil => exact absurd hd Nat.toDigits_ne_nil
      | cons c cs => exact hdigits (hd ▸ List.mem_cons_self)
    rw [wordCode, if_pos hfirst, toList_quote, numberCode, String.toList_ofList]
    rw [numberCode, String.toList_ofList, List.forall_mem_cons]
    exact ⟨by decide, fun c hc => bare_of_isDigit_or (.inl (hdigits hc))⟩
  rw [Nat.toString_eq_ofList_toDigits]
  refine ⟨fun rest hr => ?_, ?_⟩
  · rw [String.toList_ofList, recode_word Nat.toDigits_ne_nil hword hr.1, hcode]
  · rw [String.toList_ofList]
    exact unclosed_word hword

theorem isParamChar_of_mem {params : List String} (hp : ∀ p ∈ params, isName p = true) :
    ∀ c ∈ (", ".intercalate params).toList, isParamChar c = true := by
  have hname {p : String} (hp : isName p = true) : ∀ c ∈ p.toList, isParamChar c = true := fun c hc => by
    simp [isParamChar, isWordChar_of_mem_name hp hc]
  cases params with
  | nil => nofun
  | cons p rest =>
    induction rest generalizing p with
    | nil =>
      rw [String.intercalate_singleton]
      exact hname (hp p List.mem_cons_self)
    | cons q rest ih =>
      rw [List.forall_mem_cons] at hp
      rw [String.intercalate_cons_cons, String.toList_append, String.toList_append]
      have hcomma : ", ".toList.all isParamChar = true := by decide
      exact List.forall_mem_append.2 ⟨List.forall_mem_append.2 ⟨hname hp.1, List.all_eq_true.1 hcomma⟩, ih q hp.2⟩

theorem Recoded.behind_params (h : Recoded s t) {params : List String} (hp : ∀ p ∈ params, isName p = true) :
    Recoded (Node.paramsText (some params) ++ (" => " ++ s))
      (Node.paramsText (some [paramsCode params]) ++ (" => " ++ t)) := by
  have hchars := isParamChar_of_mem hp
  refine ⟨fun rest hr => ?_, ?_⟩
  · have htext : (Node.paramsText (some params) ++ (" => " ++ s)).toList ++ rest =
        '(' :: ((", ".intercalate params).toList ++ ([')', ' ', '=', '>', ' '] ++ (s.toList ++ rest))) := by
      simp [Node.paramsText]
    have hcode : (Node.paramsText (some [paramsCode params]) ++ (" => " ++ t)).toList =
        '(' :: 'x' :: codeChars (", ".intercalate params).toList ++ ([')', ' ', '=', '>', ' '] ++ t.toList) := by
      simp [Node.paramsText, paramsCode]
    have hclose : ¬ isParamChar ')' = true := by decide
    have hmarks := @recode_copied [')', ' ', '=', '>', ' '] (by decide) (s.toList ++ rest)
    generalize hmore : [')', ' ', '=', '>', ' '] ++ (s.toList ++ rest) = more at htext hmarks
    have htake : more.takeWhile isParamChar = [] := hmore ▸ List.takeWhile_cons_of_neg hclose
    have hdrop : more.dropWhile isParamChar = more := hmore ▸ List.dropWhile_cons_of_neg hclose
    have hahead : paramsAhead ((", ".intercalate params).toList ++ more) = true := by
      rw [paramsAhead, List.dropWhile_append_of_pos hchars, hdrop, ← hmore]
      rfl
    rw [htext, hcode, recode_params hahead, List.takeWhile_append_of_pos hchars, List.dropWhile_append_of_pos hchars,
      htake, hdrop, hmarks, h.codes rest hr]
    simp
  · rw [String.toList_append, Node.paramsText, String.toList_append, String.toList_append]
    exact unclosed_cons (by decide) (by decide) _

end

end Recoding

/-! ## Trees -/

/-- The expressions without missing parts and blocks, whose names mean themselves in the generated script. Unless they
may be `loose`, what an assignment assigns to is neither an assignment nor an arrow function. -/
inductive Plain (loose : Bool) : Node → Prop where
  | number {line} {value : Nat} : Plain loose (.literal line (.number value))
  | string {line text} : Plain loose (.literal line (.string text))
  | ident {line name} : isPlainName name = true → Plain loose (.ident line name)
  | binary {line symbol left right} :
    0 < precedence symbol → Plain loose left → Plain loose right → Plain loose (.binary line symbol left right)
  | await {line e} : Plain loose e → Plain loose (.await line e)
  | call {line callee args} :
    callee.isChain = true → Plain loose callee → (∀ a ∈ args, Plain loose a) →
    Plain loose (.call line callee (some args))
  | member {line line' object name} :
    object.isChain = true → Plain loose object → isPlainName name = true →
    Plain loose (.member line object (.ident line' name))
  | arrow {line params body isAsync} :
    (∀ p ∈ params, isName p = true) → Plain loose body → Plain loose (.arrow line (some params) body isAsync)
  | assign {line target value} :
    (loose = false → target.isOpen = false) → Plain loose target → Plain loose value →
    Plain loose (.assign line target value)

namespace Node

open Recoding

mutual

/-- The expression with codes for its strings, numbers and parameters. -/
def coded : Node → Node
  | literal line (.number value) => literal line (.string (numberCode value.toNat))
  | literal line (.string text) => literal line (.string (stringCode text))
  | binary line symbol left right => binary line symbol left.coded right.coded
  | assign line target value => assign line target.coded value.coded
  | await line value => await line value.coded
  | arrow line params body isAsync => arrow line (params.map fun names => [paramsCode names]) body.coded isAsync
  | call line callee (some args) => call line callee.coded (some (codedAll args))
  | member line object property => member line object.coded property
  | e => e

def codedAll : List Node → List Node
  | [] => []
  | node :: rest => node.coded :: codedAll rest

end

section

variable (line : Option Int) (left right : Node)

theorem coded_binary (symbol : String) :
    (binary line symbol left right).coded = binary line symbol left.coded right.coded := rfl

theorem coded_assign : (assign line left right).coded = assign line left.coded right.coded := rfl

theorem coded_arrow (params : Option (List String)) (isAsync : Bool) : (arrow line params right isAsync).coded =
    arrow line (params.map fun names => [paramsCode names]) right.coded isAsync := rfl

theorem coded_call (args : List Node) :
    (call line left (some args)).coded = call line left.coded (some (codedAll args)) := rfl

theorem coded_member : (member line left right).coded = member line left.coded right := rfl

end

theorem codedAll_eq_map (nodes : List Node) : codedAll nodes = nodes.map coded := by
  induction nodes with
  | nil => rfl
  | cons node rest ih => simp [codedAll, ih]

end Node

namespace Plain

open Recoding Node

variable {loose : Bool} {e : Node}

theorem isExpression (h : Plain loose e) : e.isExpression = true := by cases h <;> rfl

theorem asExpr (h : Plain loose e) (text : String) : e.asExpr text = text := if_pos h.isExpression

theorem asArrowBody (h : Plain loose e) (text : String) : e.asArrowBody text = text := by cases h <;> rfl

theorem isExpression_coded (h : Plain loose e) : e.coded.isExpression = true := by cases h <;> rfl

theorem asExpr_coded (h : Plain loose e) (text : String) : e.coded.asExpr text = text := if_pos h.isExpression_coded

theorem asArrowBody_coded (h : Plain loose e) (text : String) : e.coded.asArrowBody text = text := by cases h <;> rfl

theorem cohesion?_coded (h : Plain loose e) : e.coded.cohesion? = e.cohesion? := by cases h <;> rfl

theorem isChain_coded (h : Plain loose e) : e.coded.isChain = e.isChain := by cases h <;> rfl

theorem isOpen_coded (h : Plain loose e) : e.coded.isOpen = e.isOpen := by cases h <;> rfl

/-! ### Recoding -/

theorem recoded_operand (h : Plain loose e) (ht : Recoded e.text e.coded.text) (operator : Nat) (rightSide : Bool) :
    Recoded (e.asOperand operator rightSide e.text) (e.coded.asOperand operator rightSide e.coded.text) := by
  unfold asOperand
  rw [h.cohesion?_coded, h.asExpr, h.asExpr_coded]
  split
  · split
    · exact ht.parentheses
    · exact ht
  · exact ht

theorem recoded_callee (h : Plain loose e) (ht : Recoded e.text e.coded.text) :
    Recoded (calleeText e e.text) (calleeText e.coded e.coded.text) := by
  cases h with
  | @ident line name hname =>
    change Recoded (if name = fetchName then fetchHelper else name) (if name = fetchName then fetchHelper else name)
    split
    · exact recoded_name fetchHelper_isName
    · exact ht
  | _ => exact ht

theorem recoded_arguments {args : List Node} (h : ∀ a ∈ args, Recoded a.exprText a.coded.exprText) :
    Recoded (", ".intercalate (args.map exprText)) (", ".intercalate ((args.map coded).map exprText)) := by
  cases args with
  | nil => exact ⟨fun _ _ => rfl, by decide⟩
  | cons a rest =>
    induction rest generalizing a with
    | nil =>
      simp only [List.map_singleton, String.intercalate_singleton]
      exact h a List.mem_cons_self
    | cons b rest ih =>
      rw [List.forall_mem_cons] at h
      have hmore := (ih b h.2).behind ", " (by decide) (by decide)
      have hstop (more : List Char) : Stop (", ".toList ++ more) := stop_cons (by decide) (by decide) _
      simp only [List.map_cons, String.intercalate_cons_cons, String.append_assoc] at hmore ⊢
      refine h.1.append hmore fun more => ?_
      rw [String.toList_append, List.append_assoc]
      exact hstop _

/-- An operator is copied with the blanks around it, and it is no arrow. -/
theorem operator_marks {symbol : String} (h : 0 < precedence symbol) :
    (" " ++ symbol ++ " ").toList.all isCopied = true ∧ Unclosed (" " ++ symbol ++ " ").toList ∧
      ∀ rest, Stop ((" " ++ symbol ++ " ").toList ++ rest) := by
  have hall : ∀ symbol ∈ shortOperators ++ longOperators, 0 < precedence symbol →
      (" " ++ symbol ++ " ").toList.all isCopied = true ∧ Unclosed (" " ++ symbol ++ " ").toList ∧
        (" " ++ symbol ++ " ").toList.take 3 ≠ [' ', '=', '>'] ∧ 3 ≤ (" " ++ symbol ++ " ").toList.length := by
    decide
  obtain ⟨hcopied, hcovers, harrow, hlength⟩ := hall symbol (mem_operators h) h
  refine ⟨hcopied, hcovers, fun rest => ⟨?_, fun hp => harrow ?_⟩⟩
  · rw [String.toList_append, String.toList_append]
    exact .cons (by decide) _
  · rw [← List.take_append_of_le_length hlength]
    exact (List.prefix_iff_eq_take.1 hp).symm

theorem recoded_binary {line : Option Int} {symbol : String} {left right : Node} (hs : 0 < precedence symbol)
    (hl : Plain loose left) (hr : Plain loose right) (ihl : Recoded left.text left.coded.text)
    (ihr : Recoded right.text right.coded.text) :
    Recoded (Node.binary line symbol left right).text (Node.binary line symbol left right).coded.text := by
  obtain ⟨hcopied, hcovers, hstop⟩ := operator_marks hs
  have hright := (hr.recoded_operand ihr (precedence symbol) true).behind _ hcopied hcovers
  have hboth := (hl.recoded_operand ihl (precedence symbol) false).append hright fun rest => by
    rw [String.toList_append, List.append_assoc]
    exact hstop _
  rw [coded_binary, text_binary, text_binary]
  simpa only [String.append_assoc] using hboth

theorem recoded_call {line : Option Int} {callee : Node} {args : List Node}
    (hc : Recoded (calleeText callee callee.text) (calleeText callee.coded callee.coded.text))
    (ha : ∀ a ∈ args, Recoded a.exprText a.coded.exprText) :
    Recoded (Node.call line callee (some args)).text (Node.call line callee (some args)).coded.text := by
  have hcall := hc.append (recoded_arguments ha).parentheses fun rest => by
    simp only [String.toList_append, List.append_assoc]
    exact stop_cons (by decide) (by decide) _
  rw [coded_call, codedAll_eq_map, text_call, text_call, argTexts_eq_map, argTexts_eq_map]
  simpa only [String.append_assoc] using hcall

theorem recoded_member {line line' : Option Int} {object : Node} {name : String} (h : Plain loose object)
    (hn : isPlainName name = true) (ih : Recoded object.text object.coded.text) :
    Recoded (Node.member line object (.ident line' name)).text
      (Node.member line object (.ident line' name)).coded.text := by
  have hproperty := (recoded_name (isName_of_isPlainName hn)).behind "." (by decide) (by decide)
  have hmember := ih.append hproperty fun rest => by
    simp only [String.toList_append, List.append_assoc]
    exact stop_cons (by decide) (by decide) _
  rw [coded_member, text_member, text_member, h.asExpr, h.asExpr_coded, String.append_assoc, String.append_assoc]
  exact hmember

theorem recoded_arrow {line : Option Int} {params : List String} {body : Node} {isAsync : Bool}
    (hp : ∀ p ∈ params, isName p = true) (h : Plain loose body) (ih : Recoded body.text body.coded.text) :
    Recoded (Node.arrow line (some params) body isAsync).text
      (Node.arrow line (some params) body isAsync).coded.text := by
  have harrow := ih.behind_params hp
  rw [coded_arrow, Option.map_some, text_arrow, text_arrow, h.asArrowBody, h.asArrowBody_coded]
  cases isAsync with
  | true =>
    have hword : asyncText true = asyncName ++ " " := by decide
    rw [hword]
    simpa only [String.append_assoc] using harrow.behind_word asyncName_isName
  | false =>
    have hword : asyncText false = "" := rfl
    rw [hword]
    simpa only [String.append_assoc, String.empty_append] using harrow

theorem recoded_assign {line : Option Int} {target value : Node} (ht : Plain loose target) (hv : Plain loose value)
    (iht : Recoded target.text target.coded.text) (ihv : Recoded value.text value.coded.text) :
    Recoded (Node.assign line target value).text (Node.assign line target value).coded.text := by
  have hvalue := ihv.behind " = " (by decide) (by decide)
  have hassign := iht.append hvalue fun rest => by
    rw [String.toList_append, List.append_assoc]
    exact ⟨.cons (by decide) _, by simp⟩
  rw [coded_assign, text_assign, text_assign, ht.asExpr, ht.asExpr_coded, hv.asExpr, hv.asExpr_coded,
    String.append_assoc, String.append_assoc]
  exact hassign

/-- `recode` makes of the text of an expression the text of `coded`. -/
theorem recoded_text (h : Plain loose e) : Recoded e.text e.coded.text := by
  induction h with
  | number => exact recoded_number _
  | string => exact recoded_quote _
  | ident hname => exact recoded_name (isName_of_isPlainName hname)
  | binary hsymbol hl hr ihl ihr => exact recoded_binary hsymbol hl hr ihl ihr
  | await h ih => exact (h.recoded_operand ih (maxPrecedence + 1) true).behind_word awaitName_isName
  | call _ hcallee hargs ihcallee ihargs =>
    refine recoded_call (hcallee.recoded_callee ihcallee) fun a ha => ?_
    rw [exprText, exprText, (hargs a ha).asExpr, (hargs a ha).asExpr_coded]
    exact ihargs a ha
  | member _ hobject hname ih => exact recoded_member hobject hname ih
  | arrow hparams hbody ih => exact recoded_arrow hparams hbody ih
  | assign _ ht hv iht ihv => exact recoded_assign ht hv iht ihv

/-! ### Reading back -/

/-- No word of the language and no word of the generated script starts as the codes of parameters do. -/
theorem isPlainName_paramsCode (params : List String) : isPlainName (paramsCode params) = true := by
  have hne {word : String} (hw : word.toList.head? ≠ some 'x') : paramsCode params ≠ word := by
    rintro rfl
    exact hw (by rw [paramsCode, String.toList_ofList]; rfl)
  have husual : usualSpelling (paramsCode params) = paramsCode params := by
    unfold usualSpelling
    rw [if_neg (hne (by decide)), if_neg (hne (by decide)), if_neg (hne (by decide))]
  have hkeyword : ∀ k : Keyword, k.spelling ≠ usualSpelling (paramsCode params) := by
    intro k
    rw [husual]
    exact (hne (by cases k <;> decide)).symm
  have hlexeme := wordLexeme_eq_ident hkeyword
  rw [husual] at hlexeme
  have hword : (codeChars (", ".intercalate params).toList).all isWordChar = true := by
    refine List.all_eq_true.2 fun c hc => ?_
    rcases mem_codeChars hc with hdigit | rfl
    · simp [isWordChar, Text.isNumeric_of_isDigit hdigit]
    · decide
  have hname : isName (paramsCode params) = true := by
    have hletter : Text.isLetter 'x' = true := by decide
    have htext : (paramsCode params).toList = 'x' :: codeChars (", ".intercalate params).toList := by
      rw [paramsCode, String.toList_ofList]
    simp only [isName, htext, hletter, hword, hlexeme, Bool.true_or, Bool.and_self, decide_true]
  have hscript : paramsCode params ≠ awaitName ∧ paramsCode params ≠ asyncName ∧ paramsCode params ≠ fetchHelper :=
    ⟨hne (by decide), hne (by decide), hne (by decide)⟩
  simp [isPlainName, hname, hscript]

/-- `coded`, an expression can be read back. -/
theorem printable_coded (h : Plain false e) : Printable e.coded := by
  induction h with
  | @number line value =>
    refine .string fun c hc => ?_
    rw [numberCode, String.toList_ofList] at hc
    rcases List.mem_cons.1 hc with rfl | hc
    · decide
    · exact bare_of_isDigit_or (.inl (Nat.isDigit_of_mem_toDigits (by decide) (by decide) hc))
  | @string line text =>
    refine .string fun c hc => ?_
    rw [stringCode, String.toList_ofList] at hc
    exact bare_of_isDigit_or (mem_codeChars hc)
  | ident hname => exact .ident hname
  | binary hsymbol _ _ ihl ihr => exact .binary hsymbol ihl ihr
  | await _ ih => exact .await ih
  | call hchain hcallee _ ihcallee ihargs =>
    refine .call (hcallee.isChain_coded.trans hchain) ihcallee fun a ha => ?_
    rw [codedAll_eq_map] at ha
    obtain ⟨b, hb, rfl⟩ := List.mem_map.1 ha
    exact ihargs b hb
  | member hchain hobject hname ih => exact .member (hobject.isChain_coded.trans hchain) ih hname
  | arrow _ _ ih =>
    refine .arrow (List.forall_mem_singleton.2 (isPlainName_paramsCode _)) (fun _ => ?_) ih
    exact (by decide : 1 ≤ maxArrowParams)
  | assign hopen ht _ iht ihv => exact .assign (ht.isOpen_coded.trans (hopen rfl)) iht ihv

end Plain

/-- Expressions that can be read back are told apart by their texts. -/
theorem Printable.unlined_eq_of_exprText_eq {a b : Node} (ha : Printable a) (hb : Printable b)
    (h : a.exprText = b.exprText) : a.unlined = b.unlined := by
  obtain ⟨ls, hc, hw⟩ := ha.writes_expr ha.writes
  obtain ⟨ms, hc', hw'⟩ := hb.writes_expr hb.writes
  have hlex := (hc.lexes (start a.exprText) rfl).2
  have hlex' := (hc'.lexes (start b.exprText) rfl).2
  rw [← h] at hlex'
  obtain rfl : ls = ms := hlex.symm.trans hlex'
  -- The same tokens are read as both.
  have hread {e : Node} (hw : Written (.expr e) (ls.map Lexeme.toSource)) :
      (Parse.expr (atFront (ls.map Lexeme.toSource))).1.unlined = e.unlined := by
    have hfront : (atFront (ls.map Lexeme.toSource)).map (·.lexeme) = ls.map Lexeme.toSource := by
      rw [atFront, List.map_map]
      exact List.map_id _
    rw [← hfront] at hw
    exact (Parse.expr_of_written hw).1
  exact (hread hw).symm.trans (hread hw')

namespace Plain

open Recoding Node

variable {loose : Bool} {a b : Node}

theorem map_unlined_eq {as bs : List Node}
    (h : ∀ a ∈ as, ∀ b ∈ bs, a.coded.unlined = b.coded.unlined → a.unlined = b.unlined)
    (hm : as.map (fun a => a.coded.unlined) = bs.map fun b => b.coded.unlined) :
    as.map unlined = bs.map unlined := by
  induction as generalizing bs with
  | nil =>
    obtain rfl := List.map_eq_nil_iff.1 hm.symm
    rfl
  | cons a as ih =>
    cases bs with
    | nil => cases hm
    | cons b bs =>
      obtain ⟨hhead, htail⟩ := List.cons.inj hm
      have hrest := ih (fun a ha b hb => h a (List.mem_cons_of_mem _ ha) b (List.mem_cons_of_mem _ hb)) htail
      rw [List.map_cons, List.map_cons, h a List.mem_cons_self b List.mem_cons_self hhead, hrest]

theorem unlined_eq_of_coded (ha : Plain loose a) (hb : Plain loose b) (h : a.coded.unlined = b.coded.unlined) :
    a.unlined = b.unlined := by
  induction ha generalizing b with
  | @number line m =>
    cases hb with
    | @number line' n =>
      have hcode : numberCode m = numberCode n := Literal.string.inj (Node.literal.inj h).2
      rw [numberCode_injective hcode]
      rfl
    | @string line' text =>
      have hcode : numberCode m = stringCode text := Literal.string.inj (Node.literal.inj h).2
      exact absurd hcode.symm (stringCode_ne_numberCode text m)
    | _ => cases h
  | @string line text =>
    cases hb with
    | @number line' n =>
      have hcode : stringCode text = numberCode n := Literal.string.inj (Node.literal.inj h).2
      exact absurd hcode (stringCode_ne_numberCode text n)
    | @string line' text' =>
      have hcode : stringCode text = stringCode text' := Literal.string.inj (Node.literal.inj h).2
      rw [stringCode_injective hcode]
      rfl
    | _ => cases h
  | ident hname =>
    cases hb with
    | ident => exact h
    | _ => cases h
  | binary _ _ _ ihl ihr =>
    cases hb with
    | binary _ hl hr =>
      obtain ⟨-, rfl, hleft, hright⟩ := Node.binary.inj h
      exact congrArg₂ (Node.binary none _) (ihl hl hleft) (ihr hr hright)
    | _ => cases h
  | await _ ih =>
    cases hb with
    | await hb => exact congrArg (Node.await none) (ih hb (Node.await.inj h).2)
    | _ => cases h
  | @call line callee args _ _ _ ihcallee ihargs =>
    cases hb with
    | @call line' callee' args' _ hcallee hargs =>
      obtain ⟨-, hhead, hlists⟩ := Node.call.inj h
      have hmap := Option.some.inj hlists
      simp only [codedAll_eq_map, relinedAll_eq_map, List.map_map] at hmap
      have hsame : relinedAll (fun _ => none) args = relinedAll (fun _ => none) args' := by
        rw [relinedAll_eq_map, relinedAll_eq_map]
        exact map_unlined_eq (fun a ha b hb => ihargs a ha (hargs b hb)) hmap
      exact congrArg₂ (fun c as => Node.call none c (some as)) (ihcallee hcallee hhead) hsame
    | _ => cases h
  | member _ _ _ ih =>
    cases hb with
    | member _ hobject _ =>
      obtain ⟨-, hhead, hproperty⟩ := Node.member.inj h
      exact congrArg₂ (Node.member none) (ih hobject hhead) hproperty
    | _ => cases h
  | arrow hparams _ ih =>
    cases hb with
    | arrow hparams' hbody =>
      obtain ⟨-, hcodes, hinner, rfl⟩ := Node.arrow.inj h
      have hcode := (List.cons.inj (Option.some.inj hcodes)).1
      obtain rfl := paramsCode_injective hparams hparams' hcode
      exact congrArg (fun e => Node.arrow none _ e _) (ih hbody hinner)
    | _ => cases h
  | assign _ _ _ iht ihv =>
    cases hb with
    | assign _ ht hv =>
      obtain ⟨-, htarget, hvalue⟩ := Node.assign.inj h
      exact congrArg₂ (Node.assign none) (iht ht htarget) (ihv hv hvalue)
    | _ => cases h

/-- Expressions that are not loose are told apart by their texts. -/
theorem unlined_eq_of_exprText_eq (ha : Plain false a) (hb : Plain false b) (h : a.exprText = b.exprText) :
    a.unlined = b.unlined := by
  have hstop : Stop [] := ⟨.nil, by decide⟩
  have hcode {e : Node} (he : Plain false e) : e.coded.exprText.toList = recode e.exprText.toList := by
    have := he.recoded_text.codes [] hstop
    rw [List.append_nil, recode_nil, List.append_nil] at this
    rw [exprText, exprText, he.asExpr, he.asExpr_coded, this]
  have hcoded : a.coded.exprText = b.coded.exprText := by
    rw [← String.toList_inj, hcode ha, hcode hb, h]
  exact ha.unlined_eq_of_coded hb (ha.printable_coded.unlined_eq_of_exprText_eq hb.printable_coded hcoded)

end Plain

end HindiScript
