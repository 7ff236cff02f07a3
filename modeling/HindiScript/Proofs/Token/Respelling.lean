import HindiScript.Proofs.Token.Tiling
import Mathlib.Algebra.Group.Nat.Defs
import Mathlib.Data.List.Forall2

/-!
# Tokens written back

Every token of a text can be written again from its lexeme alone, and a text of such writings with blanks between them
has the same lexemes (`tokenize_intercalate_writings`). The writings need not be the characters that the token was read
from: a keyword may have a second spelling, a number may have leading zeros, and a string may miss its second quote.
Nothing is escaped, so a string that holds both quotes has no writing; the scanner gives no such string.
-/

namespace HindiScript

/-- The texts that write a lexeme. A string is put between either quote, if it does not hold that quote. -/
def Lexeme.writings : Lexeme → List String
  | .keyword word => [word.spelling]
  | .ident name => [name]
  | .number value => [toString value]
  | .string text => (['\x22', '\x27'].filter (· ∉ text.toList)).map fun quote =>
    String.singleton quote ++ text ++ String.singleton quote
  | .op symbol => [symbol]
  | .punct mark => [String.singleton mark.char]
  | .unknown ch => [String.singleton ch]
  | .eof => []

namespace Cursor

variable {text more : List Char} {l : Lexeme} {piece : String}

/-- The text is empty or starts with a blank. -/
def Apart (more : List Char) : Prop := ∀ ch ∈ more.head?, ch = ' '

/-! ## Words and numbers -/

theorem Apart.boundary (h : Apart more) : Boundary more := by
  intro ch hch
  rw [h ch hch]
  decide

theorem isWord_spelling (word : Keyword) (h : Apart more) : IsWord word.spelling.toList more := by
  have hall : word.spelling.toList.all isWordChar = true := by cases word <;> decide
  have hstart : word.spelling.toList.head?.any (fun ch => Text.isLetter ch || ch = '_') = true := by
    cases word <;> decide
  exact ⟨⟨List.all_eq_true.1 hall, h.boundary⟩, (Option.any_eq_true _ _).1 hstart⟩

theorem usualSpelling_spelling (word : Keyword) : usualSpelling word.spelling = word.spelling := by
  cases word <;> decide

theorem ofDigitChars_lt (h : ∀ ch ∈ text, ch.isDigit = true) : Nat.ofDigitChars 10 text 0 < 10 ^ text.length := by
  induction text with
  | nil => decide
  | cons ch text ih =>
    have hdigit : ch.toNat ≤ 0x39 := (Char.isDigit_iff_toNat.1 (h ch List.mem_cons_self)).2
    have hrest := ih fun ch hch => h ch (List.mem_cons_of_mem _ hch)
    have hvalue : ch.toNat - '0'.toNat ≤ 9 := by
      have : '0'.toNat = 0x30 := rfl
      omega
    rw [Nat.ofDigitChars_cons, Nat.ofDigitChars_eq_ofDigitChars_zero, Nat.mul_zero, Nat.zero_add]
    calc 10 ^ text.length * (ch.toNat - '0'.toNat) + Nat.ofDigitChars 10 text 0
        < 10 ^ text.length * 9 + 10 ^ text.length := Nat.add_lt_add_of_le_of_lt (Nat.mul_le_mul_left _ hvalue) hrest
      _ = 10 ^ (ch :: text).length := by rw [List.length_cons, Nat.pow_succ, ← Nat.mul_succ]

/-- Without its leading zeros a number is not longer. -/
theorem length_toDigits_le {value : Nat} (h : Spells text more (.number value)) :
    (Nat.toDigits 10 value).length ≤ maxDigits := by
  obtain ⟨hrun, hne, hlen, rfl⟩ := h
  have hshort := (Nat.length_toDigits_le_iff (by decide) (List.length_pos_iff.2 hne)).2 (ofDigitChars_lt hrun.all)
  exact Nat.le_trans hshort hlen

/-! ## Single tokens -/

/-- A string that was read does not hold the quote it was read between. -/
theorem Spells.writings_ne_nil (h : Spells text more l) : l.writings ≠ [] := by
  cases l with
  | string value =>
    obtain ⟨quote, hquote, hvalue, -⟩ := h
    have hmem : quote ∈ ['\x22', '\x27'] := by simpa [isQuote] using hquote
    exact List.ne_nil_of_mem (List.mem_map_of_mem (List.mem_filter.2 ⟨hmem, decide_eq_true hvalue⟩))
  | eof => exact h.elim
  | _ => exact List.cons_ne_nil _ _

theorem IsOperator.apart {more' : List Char} (h : IsOperator text more) (hapart : Apart more') :
    IsOperator text more' := by
  cases h with
  | @one first more hop =>
    refine .one hop (fun second hsecond => ?_) ?_
    · rw [hapart second hsecond]
      unfold secondOf
      split <;> decide
    · rintro ⟨-, hslash⟩
      exact absurd (hapart '/' hslash) (by decide)
  | two hpair => exact .two hpair

/-- A lexeme that was read is read again from each of its `writings`. -/
theorem Spells.writing {more' : List Char} (h : Spells text more l) (hpiece : piece ∈ l.writings)
    (hapart : Apart more') : Spells piece.toList more' l := by
  cases l with
  | keyword word =>
    obtain rfl := List.mem_singleton.1 hpiece
    exact ⟨isWord_spelling word hapart, by rw [String.ofList_toList, usualSpelling_spelling]⟩
  | ident name =>
    obtain rfl := List.mem_singleton.1 hpiece
    have hname := h.ofList_eq
    obtain ⟨hword, husual, hkeyword⟩ := h
    subst hname
    rw [String.toList_ofList]
    exact ⟨⟨⟨hword.all, hapart.boundary⟩, hword.starts⟩, husual, hkeyword⟩
  | number value =>
    obtain rfl := List.mem_singleton.1 hpiece
    rw [Nat.toString_eq_ofList_toDigits, String.toList_ofList]
    exact spells_number (length_toDigits_le h) hapart.boundary
  | string value =>
    obtain ⟨quote, hquote, rfl⟩ := List.mem_map.1 hpiece
    obtain ⟨hmem, hvalue⟩ := List.mem_filter.1 hquote
    exact ⟨quote, by simpa [isQuote] using hmem, of_decide_eq_true hvalue, .inl (by simp)⟩
  | op symbol =>
    obtain rfl := List.mem_singleton.1 hpiece
    obtain ⟨rfl, hop⟩ := h
    exact ⟨rfl, hop.apart hapart⟩
  | punct mark =>
    obtain rfl := List.mem_singleton.1 hpiece
    exact String.toList_singleton _
  | unknown ch =>
    obtain rfl := List.mem_singleton.1 hpiece
    exact ⟨String.toList_singleton _, h.2⟩
  | eof => exact h.elim

/-! ## Whole texts -/

/-- `writings` with blanks between them are cut where the blanks are. -/
theorem lexes_intercalate {ls : List Lexeme} {pieces : List String}
    (h : ∀ l ∈ ls, ∃ text more, Spells text more l)
    (hpieces : List.Forall₂ (fun l piece => piece ∈ l.writings) ls pieces) :
    Lexes (" ".intercalate pieces).toList ls := by
  induction hpieces with
  | nil => exact lexes_nil
  | @cons l piece ls pieces hpiece hrest ih =>
    obtain ⟨⟨text, more, hspells⟩, hls⟩ := List.forall_mem_cons.1 h
    have hstarts : ∀ {more'}, Apart more' → Starts (piece.toList ++ more') l more' := fun hapart =>
      starts_of_spells (hspells.writing hpiece hapart)
    cases hrest with
    | nil =>
      have := (hstarts (by rintro _ ⟨⟩)).lexes hspells.ne_eof lexes_nil
      rwa [List.append_nil] at this
    | cons hnext hrest =>
      rw [String.intercalate_cons_cons, String.toList_append, String.toList_append, List.append_assoc]
      exact (hstarts (by rintro _ ⟨⟩; rfl)).lexes hspells.ne_eof (ih hls).blank

/-- Every token of `text` has a writing, so that there is a quote for every string, and however the tokens are written
(`Lexeme.writings`), with single blanks between them they are read again: the same kinds of tokens with the same
values. -/
theorem tokenize_intercalate_writings {text : String} {tokens : List Token} (h : tokenize text = .ok tokens) :
    (∀ tok ∈ tokens, tok.lexeme.writings ≠ []) ∧
    ∀ pieces, List.Forall₂ (fun tok piece => piece ∈ tok.lexeme.writings) tokens pieces →
      ∃ tokens', tokenize (" ".intercalate pieces) = .ok tokens' ∧
        tokens'.map (·.lexeme) = tokens.map (·.lexeme) := by
  have hspells : ∀ tok ∈ tokens, ∃ text more, Spells text more tok.lexeme := fun tok htok =>
    exists_spells_of_tokenize h htok
  refine ⟨fun tok htok => ?_, fun pieces hpieces => ?_⟩
  · obtain ⟨text, more, hs⟩ := hspells tok htok
    exact hs.writings_ne_nil
  · have hlexes := lexes_intercalate (List.forall_mem_map.2 hspells) (List.forall₂_map_left_iff.2 hpieces)
    obtain ⟨hfailure, hlexemes⟩ := hlexes (start (" ".intercalate pieces)) rfl
    exact ⟨_, tokenize_eq_ok_iff.2 ⟨hfailure, rfl⟩, hlexemes⟩

/-- A second spelling, leading zeros, operators side by side, a mark and a digit that start no token, and a string
without its second quote. -/
def oddSource : String := "bolo 007===\x22it's\x22\u0301\u0663!'\x22"

theorem tokenize_intercalate_writings_odd : ∃ tokens tokens', tokenize oddSource = .ok tokens ∧
    tokenize "bol 7 == = \x22it's\x22 \u0301 \u0663 ! '\x22'" = .ok tokens' ∧
    tokens'.map (·.lexeme) = tokens.map (·.lexeme) := by
  have htokens : tokenize oddSource =
      .ok [⟨.keyword .bol, 1, 1⟩, ⟨.number 7, 1, 6⟩, ⟨.op "==", 1, 9⟩, ⟨.op "=", 1, 11⟩, ⟨.string "it's", 1, 12⟩,
        ⟨.unknown '\u0301', 1, 18⟩, ⟨.unknown '\u0663', 1, 19⟩, ⟨.op "!", 1, 20⟩, ⟨.string "\x22", 1, 21⟩] := by
    decide +kernel
  obtain ⟨tokens', htokens', hlexemes⟩ := (tokenize_intercalate_writings htokens).2
    ["bol", "7", "==", "=", "\x22it's\x22", "\u0301", "\u0663", "!", "'\x22'"] (by decide +kernel)
  exact ⟨_, tokens', htokens, htokens', hlexemes⟩

end Cursor

end HindiScript
