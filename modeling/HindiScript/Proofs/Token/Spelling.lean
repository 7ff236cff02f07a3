import HindiScript.Token.Scan
import Mathlib.Data.Char
import Mathlib.Data.List.TakeWhile

/-!
# How lexemes are written

`Spells` says which characters of a text write a lexeme, by its kind and the text that follows. Words and numbers go on
as long as they can, and so do operators. Main statements: what is written so is read so (`readLexeme_of_spells`), and
every text that starts with no blank and no comment starts with a lexeme, unless it starts with a number that is too
long (`exists_spells`).
-/

namespace HindiScript

/-! ## Classes of characters -/

namespace Text

/-- Tables whose runs do not meet hold of no character both. -/
theorem Ranges.holds_eq_false {r s : Ranges} {c : Char}
    (h : ∀ p ∈ r.pairs, ∀ q ∈ s.pairs, p.2 < q.1 ∨ q.2 < p.1) (hc : r.holds c = true) : s.holds c = false := by
  by_contra hs
  rw [Bool.not_eq_false] at hs
  obtain ⟨p, hp, hp1, hp2⟩ := (r.holds_iff c).1 hc
  obtain ⟨q, hq, hq1, hq2⟩ := (s.holds_iff c).1 hs
  have := h p hp q hq
  omega

theorem isBlank_of_isLetter {c : Char} (h : isLetter c = true) : isBlank c = false :=
  Ranges.holds_eq_false (by decide +kernel) h

theorem isNumeric_of_isDigit {c : Char} (h : c.isDigit = true) : isNumeric c = true :=
  (numericRanges.holds_iff c).2 ⟨(0x30, 0x39), List.mem_cons_self, Char.isDigit_iff_toNat.1 h⟩

theorem isBlank_of_isDigit {c : Char} (h : c.isDigit = true) : isBlank c = false := by
  have : 0x30 ≤ c.toNat ∧ c.toNat ≤ 0x39 := Char.isDigit_iff_toNat.1 h
  simp [isBlank, Ranges.holds, blankRanges, covered]
  omega

/-- The letters start beyond the digits. -/
theorem isLetter_of_isDigit {c : Char} (h : c.isDigit = true) : isLetter c = false := by
  have : 0x30 ≤ c.toNat ∧ c.toNat ≤ 0x39 := Char.isDigit_iff_toNat.1 h
  exact Bool.and_eq_false_iff.2 (.inl (decide_eq_false (by omega : ¬ 0x41 ≤ c.toNat)))

end Text

namespace Cursor

/-! ## Runs -/

/-- The characters of `text` have the property `p`, and `more` does not carry them on. -/
structure IsRun (p : Char → Bool) (text more : List Char) : Prop where
  all : ∀ ch ∈ text, p ch = true
  stops : ∀ ch ∈ more.head?, p ch = false

section

variable {p : Char → Bool} {c : Cursor} {text more : List Char}

theorem exists_isRun (p : Char → Bool) (cs : List Char) : ∃ text more, cs = text ++ more ∧ IsRun p text more := by
  refine ⟨cs.takeWhile p, cs.dropWhile p, List.takeWhile_append_dropWhile.symm, fun _ => List.mem_takeWhile_imp, ?_⟩
  intro ch hch
  have := List.head?_dropWhile_not p cs
  rw [Option.mem_def.1 hch] at this
  simpa using this

theorem IsRun.cons {ch : Char} (h : IsRun p text more) (hch : p ch = true) : IsRun p (ch :: text) more :=
  ⟨List.forall_mem_cons.2 ⟨hch, h.all⟩, h.stops⟩

theorem IsRun.run_eq (h : IsRun p text more) (hc : c.rest = text ++ more) : c.run p = text := by
  have hmore : more.takeWhile p = [] := by
    cases more with
    | nil => rfl
    | cons ch more => exact List.takeWhile_cons_of_neg (by simp [h.stops ch rfl])
  rw [run, hc, List.takeWhile_append_of_pos h.all, hmore, List.append_nil]

theorem IsRun.passRun_eq (h : IsRun p text more) (hc : c.rest = text ++ more) : c.passRun p = pass text.length c := by
  rw [passRun, h.run_eq hc]

end

/-! ## Lexemes -/

/-- A run of word characters that starts with a letter or an underscore. -/
structure IsWord (text more : List Char) : Prop extends IsRun isWordChar text more where
  starts : ∃ ch ∈ text.head?, (Text.isLetter ch || ch = '_') = true

/-- One operator character that does not make a pair with the next and starts no comment, or a pair. -/
inductive IsOperator : List Char → List Char → Prop where
  | one {first more} : isOperatorChar first = true → (∀ second ∈ more.head?, second ∉ secondOf first) →
    ¬ (first = '/' ∧ more.head? = some '/') → IsOperator [first] more
  | two {first second more} : second ∈ secondOf first → IsOperator [first, second] more

/-- A character that is in no class. -/
structure IsStray (ch : Char) : Prop where
  blank : Text.isBlank ch = false
  letter : (Text.isLetter ch || ch = '_') = false
  digit : ch.isDigit = false
  quote : isQuote ch = false
  operator : isOperatorChar ch = false
  punct : ∀ mark : Punct, mark.char ≠ ch

/-- In front of `more`, the characters of `text` write the lexeme. -/
def Spells (text more : List Char) : Lexeme → Prop
  | .keyword word => IsWord text more ∧ usualSpelling (String.ofList text) = word.spelling
  | .ident name =>
    IsWord text more ∧ usualSpelling (String.ofList text) = name ∧ ∀ word : Keyword, word.spelling ≠ name
  | .number value =>
    IsRun Char.isDigit text more ∧ text ≠ [] ∧ text.length ≤ maxDigits ∧ Nat.ofDigitChars 10 text 0 = value
  | .string value => ∃ quote, isQuote quote = true ∧ quote ∉ value.toList ∧
    (text = quote :: value.toList ++ [quote] ∨ text = quote :: value.toList ∧ more = [])
  | .op symbol => text = symbol.toList ∧ IsOperator text more
  | .punct mark => text = [mark.char]
  | .unknown ch => text = [ch] ∧ IsStray ch
  | .eof => False

variable {c : Cursor} {text more : List Char} {l : Lexeme}

/-! ## Reading what is written -/

theorem pass_add (m n : Nat) (c : Cursor) : pass (m + n) c = pass n (pass m c) := by
  induction m generalizing c with
  | zero => rw [Nat.zero_add, pass_zero]
  | succ m ih => rw [Nat.succ_add, pass_succ, pass_succ, ih]

theorem digitsValue_eq (digits : List Char) : digitsValue digits = Nat.ofDigitChars 10 digits 0 := by
  rw [digitsValue, ← Nat.ofDigitChars_eq_foldl]

theorem wordLexeme_eq_keyword {word : String} {k : Keyword} (h : usualSpelling word = k.spelling) :
    wordLexeme word = .keyword k := by
  simp [wordLexeme, h, Keyword.ofSpelling?_spelling]

theorem wordLexeme_eq_ident {word : String} (h : ∀ k : Keyword, k.spelling ≠ usualSpelling word) :
    wordLexeme word = .ident (usualSpelling word) := by
  have hnone : Keyword.ofSpelling? (usualSpelling word) = none := by
    cases hk : Keyword.ofSpelling? (usualSpelling word) with
    | none => rfl
    | some k => exact absurd (Keyword.ofSpelling?_eq_some hk) (h k)
  simp [wordLexeme, hnone]

theorem readLexeme_of_isWord (h : IsWord text more) (hc : c.rest = text ++ more) :
    c.readLexeme = (.ok (c.tokenOf (wordLexeme (String.ofList text))), pass text.length c) := by
  obtain ⟨ch, hch, hstart⟩ := h.starts
  obtain ⟨cs, rfl⟩ := List.head?_eq_some_iff.1 hch
  rw [readLexeme, hc, List.cons_append]
  simp only [hstart, if_true, readWord, h.run_eq hc, h.passRun_eq hc]

theorem readLexeme_of_digits (h : IsRun Char.isDigit text more) (hne : text ≠ []) (hc : c.rest = text ++ more) :
    c.readLexeme = ((numberLexeme text).map c.tokenOf, pass text.length c) := by
  obtain ⟨ch, cs, rfl⟩ := List.exists_cons_of_ne_nil hne
  have hch : ch.isDigit = true := h.all ch List.mem_cons_self
  have hunder : ch ≠ '_' := by
    rintro rfl
    cases hch
  rw [readLexeme, hc, List.cons_append]
  simp only [Text.isLetter_of_isDigit hch, hunder, hch, decide_false, Bool.or_false, Bool.false_eq_true, if_false,
    if_true, readNumber, h.run_eq hc, h.passRun_eq hc]

theorem numberLexeme_of_length_le (hne : text ≠ []) (hlen : text.length ≤ maxDigits) :
    numberLexeme text = .ok (.number (Nat.ofDigitChars 10 text 0)) := by
  simp [numberLexeme, hne, Nat.not_lt.2 hlen, digitsValue_eq]

theorem classes_of_isQuote {ch : Char} (h : isQuote ch = true) :
    Text.isBlank ch = false ∧ (Text.isLetter ch || ch = '_') = false ∧ ch.isDigit = false ∧
      isOperatorChar ch = false := by
  simp only [isQuote, Bool.or_eq_true, decide_eq_true_eq] at h
  rcases h with rfl | rfl <;> decide

theorem readLexeme_of_quote {quote : Char} (hquote : isQuote quote = true) {cs : List Char}
    (hc : c.rest = quote :: cs) : c.readLexeme = (.ok c.readString.1, c.readString.2) := by
  obtain ⟨-, hletter, hdigit, -⟩ := classes_of_isQuote hquote
  rw [readLexeme, hc]
  simp only [hletter, hdigit, hquote, Bool.false_eq_true, if_false, if_true]

theorem readString_eq {quote : Char} {value : List Char} (hv : quote ∉ value)
    (htext : text = quote :: value ++ [quote] ∨ text = quote :: value ∧ more = []) (hc : c.rest = text ++ more) :
    c.readString = (c.tokenOf (.string (String.ofList value)), pass text.length c) := by
  have hcurrent : c.current? = some quote := by
    rcases htext with rfl | ⟨rfl, -⟩ <;> rw [current?, hc] <;> rfl
  -- What is left behind the value: the second quote and the rest of the text, or nothing.
  obtain ⟨back, hnext, hback⟩ : ∃ back, c.next.rest = value ++ back ∧
      (text.length = value.length + 2 ∧ back.head? = some quote ∨ text.length = value.length + 1 ∧ back = []) := by
    rcases htext with rfl | ⟨rfl, rfl⟩
    · exact ⟨quote :: more, by simp [hc], .inl ⟨by simp, rfl⟩⟩
    · exact ⟨[], by simp [hc], .inr ⟨rfl, rfl⟩⟩
  have hrun : IsRun (fun ch => decide (some ch ≠ c.current?)) value back := by
    rw [hcurrent]
    constructor
    · intro ch hch
      have : ch ≠ quote := fun h => hv (h ▸ hch)
      simpa using this
    · intro ch hch
      rcases hback with ⟨-, hhead⟩ | ⟨-, rfl⟩
      · rw [hhead] at hch
        cases hch
        simp
      · cases hch
  have hclose : (pass value.length c.next).current? = back.head? := by
    rw [current?, rest_pass, hnext, List.drop_left]
  rw [readString, hrun.run_eq hnext, hrun.passRun_eq hnext, hclose, hcurrent]
  rcases hback with ⟨hlen, hhead⟩ | ⟨hlen, rfl⟩
  · rw [if_pos hhead, hlen, show value.length + 2 = value.length + 1 + 1 from rfl, pass_succ, pass_add]
    rfl
  · rw [if_neg (by simp), hlen, pass_succ]

theorem classes_of_isOperatorChar {ch : Char} (h : isOperatorChar ch = true) :
    Text.isBlank ch = false ∧ (Text.isLetter ch || ch = '_') = false ∧ ch.isDigit = false ∧ isQuote ch = false := by
  simp only [isOperatorChar, List.mem_cons, List.not_mem_nil, or_false, decide_eq_true_eq] at h
  rcases h with rfl | rfl | rfl | rfl | rfl | rfl | rfl | rfl | rfl | rfl | rfl <;> decide

theorem isOperatorChar_of_mem_secondOf {first second : Char} (h : second ∈ secondOf first) :
    isOperatorChar first = true ∧ first ≠ '/' := by
  unfold secondOf at h
  split at h <;> first | decide | cases h

theorem readLexeme_of_operator (h : IsOperator text more) (hc : c.rest = text ++ more) :
    c.readLexeme = (.ok (c.tokenOf (.op (String.ofList text))), pass text.length c) := by
  have hread : ∀ {ch cs}, isOperatorChar ch = true → c.rest = ch :: cs →
      c.readLexeme = (.ok c.readOperator.1, c.readOperator.2) := by
    intro ch cs hop hcs
    obtain ⟨-, hletter, hdigit, hquote⟩ := classes_of_isOperatorChar hop
    rw [readLexeme, hcs]
    simp only [hletter, hdigit, hquote, hop, Bool.false_eq_true, if_false, if_true]
  cases h with
  | @one first more hop hpair =>
    rw [hread hop hc]
    cases more with
    | nil => simp [readOperator, current?, peek?, hc]
    | cons second more =>
      have : second ∉ secondOf first := hpair second rfl
      simp [readOperator, current?, peek?, hc, this]
  | @two first second more hpair =>
    rw [hread (isOperatorChar_of_mem_secondOf hpair).1 hc]
    simp [readOperator, current?, peek?, hc, hpair]

theorem classes_of_punct (mark : Punct) :
    Text.isBlank mark.char = false ∧ (Text.isLetter mark.char || mark.char = '_') = false ∧
      mark.char.isDigit = false ∧ isQuote mark.char = false ∧ isOperatorChar mark.char = false := by
  cases mark <;> decide

/-- What `Spells` a lexeme is read as this lexeme. -/
theorem readLexeme_of_spells (h : Spells text more l) (hc : c.rest = text ++ more) :
    c.readLexeme = (.ok (c.tokenOf l), pass text.length c) := by
  cases l with
  | keyword word =>
    obtain ⟨hword, hspelling⟩ := h
    rw [readLexeme_of_isWord hword hc, wordLexeme_eq_keyword hspelling]
  | ident name =>
    obtain ⟨hword, rfl, hname⟩ := h
    rw [readLexeme_of_isWord hword hc, wordLexeme_eq_ident hname]
  | number value =>
    obtain ⟨hrun, hne, hlen, rfl⟩ := h
    rw [readLexeme_of_digits hrun hne hc, numberLexeme_of_length_le hne hlen]
    rfl
  | string value =>
    obtain ⟨quote, hquote, hv, htext⟩ := h
    have hstart : ∃ cs, c.rest = quote :: cs := by
      rcases htext with rfl | ⟨rfl, -⟩ <;> exact ⟨_, hc⟩
    obtain ⟨cs, hcs⟩ := hstart
    rw [readLexeme_of_quote hquote hcs, readString_eq hv htext hc, String.ofList_toList]
  | op symbol =>
    obtain ⟨rfl, hop⟩ := h
    rw [readLexeme_of_operator hop hc, String.ofList_toList]
  | punct mark =>
    obtain rfl : text = [mark.char] := h
    obtain ⟨-, hletter, hdigit, hquote, hop⟩ := classes_of_punct mark
    rw [readLexeme, hc]
    simp [hletter, hdigit, hquote, hop, Punct.ofChar?_char]
  | unknown ch =>
    obtain ⟨rfl, hstray⟩ := h
    have hpunct : Punct.ofChar? ch = none := by
      cases hmark : Punct.ofChar? ch with
      | none => rfl
      | some mark => exact absurd (Punct.ofChar?_eq_some hmark) (hstray.punct mark)
    rw [readLexeme, hc]
    simp [hstray.letter, hstray.digit, hstray.quote, hstray.operator, hpunct]
  | eof => exact h.elim

/-! ## Where a lexeme starts -/

theorem triviaLength_cons_eq_zero_iff {ch : Char} {cs : List Char} :
    triviaLength false (ch :: cs) = 0 ↔ Text.isBlank ch = false ∧ ¬ (ch = '/' ∧ cs.head? = some '/') := by
  rw [triviaLength]
  cases Text.isBlank ch with
  | true => simp
  | false => by_cases hcomment : ch = '/' ∧ cs.head? = some '/' <;> simp [hcomment]

/-- Only an operator may start with a slash. -/
theorem triviaLength_of_classes {ch : Char} (hblank : Text.isBlank ch = false) (hop : isOperatorChar ch = false)
    (cs : List Char) : triviaLength false (ch :: cs) = 0 := by
  refine triviaLength_cons_eq_zero_iff.2 ⟨hblank, ?_⟩
  rintro ⟨rfl, -⟩
  cases hop

theorem triviaLength_of_isWord (h : IsWord text more) : triviaLength false (text ++ more) = 0 := by
  obtain ⟨ch, hch, hstart⟩ := h.starts
  obtain ⟨cs, rfl⟩ := List.head?_eq_some_iff.1 hch
  have hblank : Text.isBlank ch = false := by
    rcases Bool.or_eq_true_iff.1 hstart with hletter | hunder
    · exact Text.isBlank_of_isLetter hletter
    · rw [of_decide_eq_true hunder]
      rfl
  refine triviaLength_of_classes hblank ?_ _
  by_contra hop
  rw [(classes_of_isOperatorChar (Bool.not_eq_false _ ▸ hop)).2.1] at hstart
  cases hstart

theorem triviaLength_of_digits (h : IsRun Char.isDigit text more) (hne : text ≠ []) :
    triviaLength false (text ++ more) = 0 := by
  obtain ⟨ch, cs, rfl⟩ := List.exists_cons_of_ne_nil hne
  have hch : ch.isDigit = true := h.all ch List.mem_cons_self
  refine triviaLength_of_classes (Text.isBlank_of_isDigit hch) ?_ _
  by_contra hop
  rw [(classes_of_isOperatorChar (Bool.not_eq_false _ ▸ hop)).2.2.1] at hch
  cases hch

theorem triviaLength_of_operator (h : IsOperator text more) : triviaLength false (text ++ more) = 0 := by
  cases h with
  | one hop _ hcomment => exact triviaLength_cons_eq_zero_iff.2 ⟨(classes_of_isOperatorChar hop).1, hcomment⟩
  | two hpair =>
    obtain ⟨hop, hslash⟩ := isOperatorChar_of_mem_secondOf hpair
    exact triviaLength_cons_eq_zero_iff.2 ⟨(classes_of_isOperatorChar hop).1, fun h => hslash h.1⟩

theorem triviaLength_of_spells (h : Spells text more l) : triviaLength false (text ++ more) = 0 := by
  cases l with
  | keyword word => exact triviaLength_of_isWord h.1
  | ident name => exact triviaLength_of_isWord h.1
  | number value => exact triviaLength_of_digits h.1 h.2.1
  | string value =>
    obtain ⟨quote, hquote, -, htext⟩ := h
    obtain ⟨hblank, -, -, hop⟩ := classes_of_isQuote hquote
    rcases htext with rfl | ⟨rfl, -⟩ <;> exact triviaLength_of_classes hblank hop _
  | op symbol => exact triviaLength_of_operator h.2
  | punct mark =>
    obtain rfl : text = [mark.char] := h
    obtain ⟨hblank, -, -, -, hop⟩ := classes_of_punct mark
    exact triviaLength_of_classes hblank hop _
  | unknown ch =>
    obtain ⟨rfl, hstray⟩ := h
    exact triviaLength_of_classes hstray.blank hstray.operator _
  | eof => exact h.elim

theorem spells_wordLexeme (h : IsWord text more) : Spells text more (wordLexeme (String.ofList text)) := by
  unfold wordLexeme
  dsimp only
  split
  next k hk => exact ⟨h, (Keyword.ofSpelling?_eq_some hk).symm⟩
  next hnone =>
    refine ⟨h, rfl, fun k hk => ?_⟩
    rw [← hk, Keyword.ofSpelling?_spelling] at hnone
    cases hnone

theorem exists_spells_string {quote : Char} (h : isQuote quote = true) (cs : List Char) :
    ∃ text more l, quote :: cs = text ++ more ∧ Spells text more l := by
  obtain ⟨value, back, rfl, hrun⟩ := exists_isRun (· ≠ quote) cs
  have hvalue : quote ∉ (String.ofList value).toList := by
    rw [String.toList_ofList]
    intro hmem
    simpa using hrun.all quote hmem
  cases back with
  | nil =>
    exact ⟨quote :: value, [], .string (String.ofList value), rfl, quote, h, hvalue,
      .inr ⟨by rw [String.toList_ofList], rfl⟩⟩
  | cons close more =>
    obtain rfl : close = quote := by simpa using hrun.stops close rfl
    exact ⟨close :: value ++ [close], more, .string (String.ofList value), by simp, close, h, hvalue,
      .inl (by rw [String.toList_ofList])⟩

theorem exists_spells_operator {first : Char} {cs : List Char} (h : isOperatorChar first = true)
    (hcomment : ¬ (first = '/' ∧ cs.head? = some '/')) :
    ∃ text more l, first :: cs = text ++ more ∧ Spells text more l := by
  by_cases hpair : ∃ second ∈ cs.head?, second ∈ secondOf first
  · obtain ⟨second, hhead, hsecond⟩ := hpair
    obtain ⟨more, rfl⟩ := List.head?_eq_some_iff.1 hhead
    exact ⟨[first, second], more, .op (String.ofList [first, second]), rfl, String.toList_ofList.symm, .two hsecond⟩
  · have hsingle : ∀ second ∈ cs.head?, second ∉ secondOf first := fun second hhead hsecond =>
      hpair ⟨second, hhead, hsecond⟩
    exact ⟨[first], cs, .op (String.ofList [first]), rfl, String.toList_ofList.symm, .one h hsingle hcomment⟩

/-- A text that starts with no blank and no comment starts with a lexeme, unless it starts with a number of more than
`maxDigits` digits. -/
theorem exists_spells {cs : List Char} (hne : cs ≠ []) (ht : triviaLength false cs = 0) :
    (∃ text more l, cs = text ++ more ∧ Spells text more l) ∨
      ∃ digits more, cs = digits ++ more ∧ IsRun Char.isDigit digits more ∧ maxDigits < digits.length := by
  obtain ⟨ch, rest, rfl⟩ := List.exists_cons_of_ne_nil hne
  obtain ⟨hblank, hcomment⟩ := triviaLength_cons_eq_zero_iff.1 ht
  by_cases hletter : (Text.isLetter ch || ch = '_') = true
  · obtain ⟨cs, more, rfl, hrun⟩ := exists_isRun isWordChar rest
    exact .inl ⟨ch :: cs, more, _, rfl, spells_wordLexeme ⟨hrun.cons (isWordChar_of_start hletter), ch, rfl, hletter⟩⟩
  · by_cases hdigit : ch.isDigit = true
    · obtain ⟨cs, more, rfl, hrun⟩ := exists_isRun Char.isDigit rest
      by_cases hlen : (ch :: cs).length ≤ maxDigits
      · exact .inl ⟨ch :: cs, more, .number _, rfl, hrun.cons hdigit, by simp, hlen, rfl⟩
      · exact .inr ⟨ch :: cs, more, rfl, hrun.cons hdigit, Nat.lt_of_not_le hlen⟩
    · left
      by_cases hquote : isQuote ch = true
      · exact exists_spells_string hquote rest
      · by_cases hop : isOperatorChar ch = true
        · exact exists_spells_operator hop hcomment
        · cases hpunct : Punct.ofChar? ch with
          | some mark => exact ⟨[ch], rest, .punct mark, rfl, by rw [← Punct.ofChar?_eq_some hpunct]; rfl⟩
          | none =>
            simp only [Bool.not_eq_true] at hletter hdigit hquote hop
            have hmark : ∀ mark : Punct, mark.char ≠ ch := by
              rintro mark rfl
              rw [Punct.ofChar?_char] at hpunct
              cases hpunct
            exact ⟨[ch], rest, .unknown ch, rfl, rfl, hblank, hletter, hdigit, hquote, hop, hmark⟩

end Cursor

end HindiScript
