import HindiScript.Proofs.Script.Literals
import HindiScript.Proofs.Token.Positions
import HindiScript.Proofs.Typing.Visits
import Mathlib.Data.Nat.Find

/-!
# Numbers that are too long

A call fails only where it reads a number of more than `maxDigits` digits, and the first such call ends the scan.
Whether a run of digits is a number depends on all that is read before it (`NumberAt`); inside words, strings and
comments runs may have any length (`Sheltered`). Main statement: a text has tokens, and with them a program that can be
checked and written, if and only if every run of digits that is too long is sheltered (`tokenize_overlong`).
-/

namespace HindiScript

namespace Cursor

/-! ## Digits behind a piece -/

section

variable {chars more trivia : List Char} {l : Lexeme}

theorem isWordChar_of_isDigit {ch : Char} (h : ch.isDigit = true) : isWordChar ch = true := by
  simp [isWordChar, Text.isNumeric_of_isDigit h]

theorem isDigit_of_mem_secondOf {first second : Char} (h : second ∈ secondOf first) : second.isDigit = false := by
  unfold secondOf at h
  split at h <;> simp only [List.mem_cons, List.not_mem_nil, or_false] at h
  case h_3 => rcases h with rfl | rfl <;> rfl
  all_goals
    subst h
    rfl

/-- Blanks and comments in front of a digit do not end in one. -/
theorem Trivia.not_isDigit_getLast? (h : Trivia more trivia) (hmore : ∃ d ∈ more.head?, d.isDigit = true) :
    ∀ ch ∈ trivia.getLast?, ch.isDigit = false := by
  induction h with
  | nil =>
    intro ch hch
    cases hch
  | @blank ch cs hblank _ ih =>
    intro last hlast
    cases cs with
    | nil =>
      obtain rfl : ch = last := by simpa using hlast
      by_contra hdigit
      have := Text.isBlank_of_isDigit (Bool.not_eq_false _ ▸ hdigit)
      exact absurd (hblank.symm.trans this) (by decide)
    | cons next rest =>
      rw [List.getLast?_cons_cons] at hlast
      exact ih last hlast
  | @comment body cs _ hend _ ih =>
    -- A comment goes up to a line feed, so it does not reach the digit.
    have hcs : cs ≠ [] := by
      rintro rfl
      obtain ⟨d, hd, hdigit⟩ := hmore
      obtain rfl := hend d hd
      cases hdigit
    intro last hlast
    rw [← List.cons_append, ← List.cons_append, List.getLast?_append_of_ne_nil _ hcs] at hlast
    exact ih last hlast

/-- A lexeme in front of a digit does not end in one: words and numbers would go on. -/
theorem Spells.not_isDigit_getLast? (h : Spells chars more l) (hmore : ∃ d ∈ more.head?, d.isDigit = true) :
    ∀ ch ∈ chars.getLast?, ch.isDigit = false := by
  obtain ⟨d, hd, hdigit⟩ := hmore
  have hword (hw : IsWord chars more) : False := by
    have := hw.stops d hd
    rw [isWordChar_of_isDigit hdigit] at this
    cases this
  intro ch hch
  cases l with
  | keyword word => exact (hword h.1).elim
  | ident name => exact (hword h.1).elim
  | number value => exact absurd (hdigit.symm.trans (h.1.stops d hd)) (by decide)
  | string value =>
    obtain ⟨quote, hquote, -, rfl | ⟨-, rfl⟩⟩ := h
    · rw [List.getLast?_concat] at hch
      obtain rfl := Option.some.inj hch
      exact (classes_of_isQuote hquote).2.2.1
    · cases hd
  | op symbol =>
    cases h.2 with
    | @one first _ hop =>
      obtain rfl : first = ch := by simpa using hch
      exact (classes_of_isOperatorChar hop).2.2.1
    | @two first second _ hsecond =>
      obtain rfl : second = ch := by simpa using hch
      exact isDigit_of_mem_secondOf hsecond
  | punct mark =>
    obtain rfl : chars = [mark.char] := h
    obtain rfl : mark.char = ch := by simpa using hch
    exact (classes_of_punct mark).2.2.1
  | unknown other =>
    obtain ⟨rfl, hstray⟩ := h
    obtain rfl : other = ch := by simpa using hch
    exact hstray.digit
  | eof => exact h.elim

end

/-! ## What a call passes -/

/-- In `text`, the call `n` stands behind `front`, passes the blanks and comments `trivia`, and takes `chars`, behind
which `more` is left. -/
structure Passes (text : String) (n : Nat) (front trivia chars more : List Char) : Prop where
  text_eq : text.toList = front ++ (trivia ++ (chars ++ more))
  offset : (calls text n).offset = front.length
  rest : (calls text n).rest = trivia ++ (chars ++ more)
  isTrivia : Trivia (chars ++ more) trivia

variable {text : String} {m n : Nat} {front trivia chars more before digits : List Char}

/-- A call returns the token that its characters stand for, or fails at digits that are too many. -/
theorem exists_passes (text : String) (n : Nat) : ∃ front trivia chars more, Passes text n front trivia chars more ∧
    (calls text (n + 1)).offset = (front ++ (trivia ++ chars)).length ∧
    ((∃ tok, (calls text n).readToken.1 = .ok tok ∧ SpellsOrEnds chars more tok.lexeme) ∨
      IsRun Char.isDigit chars more ∧ maxDigits < chars.length ∧
        (calls text n).readToken.1 = .error (.tooManyDigits chars.length)) := by
  obtain ⟨front, htext, hbehind⟩ := exists_behind_calls text n
  obtain ⟨trivia, chars, more, hc, ht, hread, hcase⟩ := readToken_cases (calls text n)
  refine ⟨front, trivia, chars, more, ⟨hc ▸ htext, hbehind.offset, hc, ht⟩, ?_, ?_⟩
  · rw [calls_succ, hread, offset_pass, hbehind.offset]
    exact List.length_append.symm
  · rcases hcase with ⟨l, hs⟩ | hfail
    · left
      exact ⟨_, congrArg Prod.fst (readToken_of_spellsOrEnds ht hs hc), hs⟩
    · exact .inr hfail

theorem Passes.offset_le_length (h : Passes text n front trivia chars more) : (calls text n).offset ≤ text.length := by
  rw [h.offset, ← String.length_toList, h.text_eq, List.length_append]
  omega

theorem Passes.tokenAt (h : Passes text n front trivia chars more) {tok : Token}
    (hok : (calls text n).readToken.1 = .ok tok) (hs : SpellsOrEnds chars more tok.lexeme) :
    TokenAt text n tok (front ++ trivia).length :=
  ⟨hok, trivia, chars, more, h.rest, h.isTrivia, hs, by rw [h.offset, List.length_append]⟩

/-- Where a call stands at a digit, no digit is in front of it. -/
theorem not_isDigit_front (h : text.toList = front ++ more) (hoffset : (calls text n).offset = front.length)
    (hmore : ∃ d ∈ more.head?, d.isDigit = true) : ∀ ch ∈ front.getLast?, ch.isDigit = false := by
  cases n with
  | zero =>
    obtain rfl : front = [] := List.length_eq_zero_iff.1 hoffset.symm
    intro ch hch
    cases hch
  | succ n =>
    obtain ⟨front', trivia, chars, more', hp, hnext, hcase⟩ := exists_passes text n
    have hparts : front = front' ++ (trivia ++ chars) ∧ more = more' := by
      apply List.append_inj
      · rw [← h, hp.text_eq, List.append_assoc, List.append_assoc]
      · rw [← hoffset, hnext]
    obtain ⟨rfl, rfl⟩ := hparts
    obtain ⟨d, hd, hdigit⟩ := hmore
    rcases hcase with ⟨tok, -, hs | ⟨-, rfl, -⟩⟩ | ⟨hrun, -, -⟩
    · rw [← List.append_assoc, List.getLast?_append_of_ne_nil _ hs.ne_nil]
      exact hs.not_isDigit_getLast? ⟨d, hd, hdigit⟩
    · cases hd
    · exact absurd (hdigit.symm.trans (hrun.stops d hd)) (by decide)

theorem Passes.not_isDigit (h : Passes text n front trivia chars more)
    (hmore : ∃ d ∈ (chars ++ more).head?, d.isDigit = true) :
    ∀ ch ∈ (front ++ trivia).getLast?, ch.isDigit = false := by
  by_cases ht : trivia = []
  · subst ht
    rw [List.append_nil]
    exact not_isDigit_front h.text_eq h.offset hmore
  · rw [List.getLast?_append_of_ne_nil _ ht]
    exact h.isTrivia.not_isDigit_getLast? hmore

/-! ## The calls of a scan -/

/-- The call `n` returns a token, and not `eof`. -/
def Yields (text : String) (n : Nat) : Prop := ∃ tok, (calls text n).readToken.1 = .ok tok ∧ tok.lexeme ≠ .eof

/-- The scan makes the call `n`: all calls before it return tokens. -/
def Reached (text : String) (n : Nat) : Prop := ∀ m < n, Yields text m

theorem Reached.mono (h : Reached text n) (hm : m ≤ n) : Reached text m :=
  fun k hk => h k (Nat.lt_of_lt_of_le hk hm)

theorem Yields.scan_eq (h : Yields text n) : (calls text n).scan.failure = (calls text (n + 1)).scan.failure ∧
    (calls text n).scan.stop = (calls text (n + 1)).scan.stop := by
  obtain ⟨tok, hok, hne⟩ := h
  rw [Cursor.scan_eq (calls text n), calls_succ]
  cases hread : (calls text n).readToken with
  | mk result next =>
    obtain rfl : result = .ok tok := by rw [← hok, hread]
    simp only [if_neg hne]
    exact ⟨trivial, trivial⟩

theorem Reached.scan_eq (h : Reached text n) : (start text).scan.failure = (calls text n).scan.failure ∧
    (start text).scan.stop = (calls text n).scan.stop := by
  induction n with
  | zero => exact ⟨rfl, rfl⟩
  | succ n ih =>
    obtain ⟨hfailure, hstop⟩ := ih (h.mono (Nat.le_succ n))
    obtain ⟨hfailure', hstop'⟩ := (h n (Nat.lt_succ_self n)).scan_eq
    exact ⟨hfailure.trans hfailure', hstop.trans hstop'⟩

/-- Each call of a scan takes at least one character. -/
theorem Reached.le_offset (h : Reached text n) : n ≤ (calls text n).offset := by
  induction n with
  | zero => exact Nat.zero_le _
  | succ n ih =>
    have hn := ih (h.mono (Nat.le_succ n))
    obtain ⟨tok, hok, hne⟩ := h n (Nat.lt_succ_self n)
    obtain ⟨index, htok⟩ := exists_tokenAt hok
    have := htok.offset_le
    have := htok.lt_offset hne
    omega

theorem exists_last_call (text : String) : ∃ n, Reached text n ∧ ¬ Yields text n := by
  have hstops : ∃ n, ¬ Yields text n := by
    by_contra hall
    rw [not_exists] at hall
    have hreached : Reached text (text.length + 1) := fun m _ => not_not.1 (hall m)
    have hle := hreached.le_offset
    obtain ⟨front, trivia, chars, more, hp, -⟩ := exists_passes text (text.length + 1)
    have := hp.offset_le_length
    omega
  classical
  refine ⟨Nat.find hstops, ?_, Nat.find_spec hstops⟩
  intro m hm
  exact not_not.1 (Nat.find_min hstops hm)

theorem tokenize_eq_error_iff {e : ReadError} : tokenize text = .error e ↔ (start text).scan.failure = some e := by
  unfold tokenize
  dsimp only
  split
  next e' he => simp [he]
  next hnone => simp [hnone]

/-! ## Numbers -/

/-- A run of `digits` in `text`: no digit stands in front of it or behind it. -/
structure DigitRun (text : String) (before digits more : List Char) : Prop extends
    IsRun Char.isDigit digits more where
  text_eq : text.toList = before ++ (digits ++ more)
  starts : ∀ ch ∈ before.getLast?, ch.isDigit = false

/-- Behind blanks and comments, the call `n` reads the number that `digits` are. -/
structure NumberAt (text : String) (n : Nat) (before digits more : List Char) : Prop extends
    DigitRun text before digits more where
  ne_nil : digits ≠ []
  offset : (calls text n).skipTrivia.offset = before.length
  reads : (calls text n).readToken = (calls text n).skipTrivia.readNumber

theorem Passes.numberAt (h : Passes text n front trivia digits more) (hrun : IsRun Char.isDigit digits more)
    (hne : digits ≠ []) : NumberAt text n (front ++ trivia) digits more := by
  have hskip : (calls text n).skipTrivia = pass trivia.length (calls text n) := by
    rw [skipTrivia, h.rest, h.isTrivia.length_eq (triviaLength_of_digits hrun hne)]
  have hrest : (calls text n).skipTrivia.rest = digits ++ more := by rw [hskip, rest_pass, h.rest, List.drop_left]
  obtain ⟨d, ds, hd⟩ := List.exists_cons_of_ne_nil hne
  have hhead : ∃ d ∈ (digits ++ more).head?, d.isDigit = true :=
    ⟨d, by rw [hd]; rfl, hrun.all d (hd ▸ List.mem_cons_self)⟩
  refine ⟨⟨hrun, by rw [h.text_eq, List.append_assoc], h.not_isDigit hhead⟩, hne, ?_, ?_⟩
  · rw [hskip, offset_pass, h.offset, List.length_append]
  · rw [readToken, readLexeme_of_digits hrun hne hrest, readNumber, hrun.run_eq hrest, hrun.passRun_eq hrest]

namespace NumberAt

theorem rest_eq (h : NumberAt text n before digits more) : (calls text n).skipTrivia.rest = digits ++ more := by
  obtain ⟨front, htext, hbehind⟩ := exists_behind_calls text n
  have hoffset := h.offset
  rw [skipTrivia, offset_pass, hbehind.offset] at hoffset
  have hdrop := congrArg (List.drop before.length) (h.text_eq.symm.trans htext)
  rw [List.drop_left, ← hoffset, List.drop_append, Nat.add_sub_cancel_left, List.drop_of_length_le (by omega)] at hdrop
  rw [skipTrivia, rest_pass, hdrop]
  rfl

theorem readToken_eq (h : NumberAt text n before digits more) : (calls text n).readToken =
    ((numberLexeme digits).map (calls text n).skipTrivia.tokenOf, pass digits.length (calls text n).skipTrivia) := by
  rw [h.reads, readNumber, h.run_eq h.rest_eq, h.passRun_eq h.rest_eq]

/-- The call goes on behind the digits, whether or not it fails. -/
theorem behind (h : NumberAt text n before digits more) :
    (calls text (n + 1)).offset = (before ++ digits).length ∧ (calls text (n + 1)).rest = more := by
  rw [calls_succ, h.readToken_eq]
  constructor
  · rw [offset_pass, h.offset, List.length_append]
  · rw [rest_pass, h.rest_eq, List.drop_left]

theorem fails (h : NumberAt text n before digits more) (hlen : maxDigits < digits.length) :
    (calls text n).readToken.1 = .error (.tooManyDigits digits.length) := by
  have hnumber : numberLexeme digits = .error (.tooManyDigits digits.length) := by simp [numberLexeme, h.ne_nil, hlen]
  rw [h.readToken_eq, hnumber]
  rfl

theorem scan_eq (h : NumberAt text n before digits more) (hlen : maxDigits < digits.length) (hr : Reached text n) :
    (start text).scan.failure = some (.tooManyDigits digits.length) ∧ (start text).scan.stop = calls text (n + 1) := by
  have hfails := h.fails hlen
  rw [hr.scan_eq.1, hr.scan_eq.2, Cursor.scan_eq, calls_succ]
  cases hread : (calls text n).readToken with
  | mk result next =>
    rw [hread] at hfails
    obtain rfl : result = _ := hfails
    exact ⟨rfl, rfl⟩

end NumberAt

/-- A scan ends at a number of more than `maxDigits` digits, or else at the end of the text. -/
theorem exists_scan_end (text : String) :
    ∃ n, Reached text n ∧
      ((∃ before digits more, NumberAt text n before digits more ∧ maxDigits < digits.length) ∨
        (start text).scan.failure = none ∧ (calls text (n + 1)).offset = text.length) := by
  obtain ⟨n, hreached, hlast⟩ := exists_last_call text
  refine ⟨n, hreached, ?_⟩
  obtain ⟨front, trivia, chars, more, hp, hnext, ⟨tok, hok, hs⟩ | ⟨hrun, hlen, -⟩⟩ := exists_passes text n
  · right
    have heof : tok.lexeme = .eof := by
      by_contra hne
      exact hlast ⟨tok, hok, hne⟩
    rcases hs with hs | ⟨rfl, rfl, -⟩
    · exact absurd heof hs.ne_eof
    · constructor
      · rw [hreached.scan_eq.1, Cursor.scan_eq]
        cases hread : (calls text n).readToken with
        | mk result next =>
          obtain rfl : result = .ok tok := by rw [← hok, hread]
          simp only [if_pos heof]
      · rw [hnext, ← String.length_toList, hp.text_eq]
        rfl
  · left
    have hne : chars ≠ [] := by
      rintro rfl
      cases hlen
    exact ⟨_, _, _, hp.numberAt hrun hne, hlen⟩

/-- The first call that reads a number that is too long is `Reached`. -/
theorem NumberAt.reached (h : NumberAt text n before digits more)
    (hfirst : ∀ m before' digits' more', NumberAt text m before' digits' more' → maxDigits < digits'.length → n ≤ m) :
    Reached text n := by
  obtain ⟨last, hreached, ⟨before', digits', more', hnumber, hlen⟩ | ⟨-, hend⟩⟩ := exists_scan_end text
  · exact hreached.mono (hfirst last before' digits' more' hnumber hlen)
  · apply hreached.mono
    -- Behind the end of the text no call has a digit before it.
    by_contra hlt
    have hoffset : (calls text (last + 1)).offset ≤ (calls text n).offset := offset_calls_le (by omega)
    have hskip : (calls text n).offset ≤ before.length := by
      rw [← h.offset, skipTrivia, offset_pass]
      omega
    have hlength : before.length < text.length := by
      have := List.length_pos_iff.2 h.ne_nil
      rw [← String.length_toList, h.text_eq, List.length_append, List.length_append]
      omega
    omega

theorem exists_numberAt_of_error {e : ReadError} (h : tokenize text = .error e) :
    ∃ n before digits more, Reached text n ∧ NumberAt text n before digits more ∧ maxDigits < digits.length ∧
      e = .tooManyDigits digits.length := by
  have hfailure := tokenize_eq_error_iff.1 h
  obtain ⟨n, hreached, ⟨before, digits, more, hnumber, hlen⟩ | ⟨hnone, -⟩⟩ := exists_scan_end text
  · have hscan := (hnumber.scan_eq hlen hreached).1
    exact ⟨n, before, digits, more, hreached, hnumber, hlen, Option.some.inj (hfailure.symm.trans hscan)⟩
  · cases hnone.symm.trans hfailure

/-! ## Shelter -/

/-- A call that returns a token passes `digits`: among the blanks and comments in front of the token, or among its
characters, and then it is no number. -/
def Sheltered (text : String) (before digits : List Char) : Prop :=
  ∃ n tok index, TokenAt text n tok index ∧ (calls text n).offset ≤ before.length ∧
    ((before ++ digits).length ≤ index ∨
      (∀ value, tok.lexeme ≠ .number value) ∧ index ≤ before.length ∧
        (before ++ digits).length ≤ (calls text (n + 1)).offset)

theorem TokenAt.le_offset {tok : Token} {index : Nat} (h : TokenAt text n tok index) :
    index ≤ (calls text (n + 1)).offset := by
  obtain ⟨trivia, chars, more, hc, ht, hs, rfl⟩ := h.starts
  rw [calls_succ, readToken_of_spellsOrEnds ht hs hc, offset_pass, List.length_append]
  omega

/-- A run of digits that starts in `front` ends there, unless `front` ends with a digit and `back` starts with one. -/
theorem DigitRun.length_le (h : DigitRun text before digits more) {back : List Char}
    (htext : text.toList = front ++ back) (hlt : before.length < front.length)
    (hcut : (∃ d ∈ back.head?, d.isDigit = true) → ∀ ch ∈ front.getLast?, ch.isDigit = false) :
    (before ++ digits).length ≤ front.length := by
  rcases List.append_eq_append_iff.1 (h.text_eq.symm.trans htext) with ⟨start, rfl, hstart⟩ | ⟨gap, rfl, -⟩
  · rcases List.append_eq_append_iff.1 hstart with ⟨gap, rfl, -⟩ | ⟨rest, rfl, rfl⟩
    · simp
    · cases rest with
      | nil => simp
      | cons d rest =>
        have hne : start ≠ [] := by
          rintro rfl
          simp at hlt
        have hlast : start.getLast hne ∈ (before ++ start).getLast? := by
          rw [List.getLast?_append_of_ne_nil _ hne, List.getLast?_eq_getLast_of_ne_nil hne]
          rfl
        have hdigit := h.all (start.getLast hne) (List.mem_append_left _ (List.getLast_mem hne))
        have hnot := hcut ⟨d, rfl, h.all d (by simp)⟩ _ hlast
        exact absurd (hdigit.symm.trans hnot) (by decide)
  · rw [List.length_append] at hlt
    omega

/-- Each place of the text is passed by a call. -/
theorem exists_call_over {place : Nat} (h : place < (calls text n).offset) :
    ∃ m < n, (calls text m).offset ≤ place ∧ place < (calls text (m + 1)).offset := by
  induction n with
  | zero => exact absurd h (Nat.not_lt_zero place)
  | succ n ih =>
    by_cases hn : place < (calls text n).offset
    · obtain ⟨m, hm, hplace⟩ := ih hn
      exact ⟨m, Nat.lt_succ_of_lt hm, hplace⟩
    · exact ⟨n, Nat.lt_succ_self n, Nat.le_of_not_lt hn, h⟩

theorem sheltered_of_tokenize {tokens : List Token} (h : tokenize text = .ok tokens)
    (hrun : DigitRun text before digits more) (hlen : maxDigits < digits.length) : Sheltered text before digits := by
  obtain ⟨hnone, -⟩ := tokenize_eq_ok_iff.1 h
  have hshort {m : Nat} (hm : Reached text m) {before digits more : List Char}
      (hnumber : NumberAt text m before digits more) : ¬ maxDigits < digits.length := by
    intro hlen
    have := (hnumber.scan_eq hlen hm).1
    rw [hnone] at this
    cases this
  obtain ⟨last, hreached, ⟨before', digits', more', hnumber, hlen'⟩ | ⟨-, hend⟩⟩ := exists_scan_end text
  · exact absurd hlen' (hshort hreached hnumber)
  have hplace : before.length < (calls text (last + 1)).offset := by
    rw [hend, ← String.length_toList, hrun.text_eq, List.length_append, List.length_append]
    omega
  obtain ⟨n, hn, hle, hlt⟩ := exists_call_over hplace
  obtain ⟨front, trivia, chars, back, hp, hnext, ⟨tok, hok, hs⟩ | ⟨hchars, hlen', -⟩⟩ :=
    exists_passes text n
  · refine ⟨n, tok, _, hp.tokenAt hok hs, hle, ?_⟩
    by_cases hindex : before.length < (front ++ trivia).length
    · -- The run starts in the trivia, and these do not end in a digit if the token starts with one.
      left
      exact hrun.length_le (by rw [hp.text_eq, List.append_assoc]) hindex hp.not_isDigit
    · right
      have hends : (before ++ digits).length ≤ (front ++ (trivia ++ chars)).length := by
        have htext : text.toList = (front ++ (trivia ++ chars)) ++ back := by
          rw [hp.text_eq, List.append_assoc, List.append_assoc]
        exact hrun.length_le htext (hnext ▸ hlt) (not_isDigit_front htext hnext)
      refine ⟨?_, by omega, hnext ▸ hends⟩
      intro value hvalue
      rw [hvalue] at hs
      rcases hs with ⟨-, -, hmax, -⟩ | ⟨-, -, heof⟩
      · simp only [List.length_append] at hends hindex
        omega
      · cases heof
  · have hne : chars ≠ [] := by
      rintro rfl
      cases hlen'
    exact absurd hlen' (hshort (hreached.mono (by omega)) (hp.numberAt hchars hne))

theorem tokenize_of_sheltered
    (h : ∀ before digits more, DigitRun text before digits more → maxDigits < digits.length →
      Sheltered text before digits) : ∃ tokens, tokenize text = .ok tokens := by
  obtain ⟨n, hreached, ⟨before, digits, more, hnumber, hlen⟩ | ⟨hnone, -⟩⟩ := exists_scan_end text
  · obtain ⟨m, tok, index, htok, hle, hspan⟩ := h before digits more hnumber.toDigitRun hlen
    have hpos := List.length_pos_iff.2 hnumber.ne_nil
    have hbehind := hnumber.behind.1
    have hskip : (calls text n).offset ≤ before.length := by
      rw [← hnumber.offset, skipTrivia, offset_pass]
      omega
    have hindex := htok.le_offset
    rw [List.length_append] at hspan hbehind
    -- No other call passes the digits, and the one that reads them returns nothing.
    rcases Nat.lt_trichotomy m n with hmn | rfl | hmn
    · have : (calls text (m + 1)).offset ≤ (calls text n).offset := offset_calls_le hmn
      omega
    · cases (hnumber.fails hlen).symm.trans htok.returned
    · have : (calls text (n + 1)).offset ≤ (calls text m).offset := offset_calls_le hmn
      omega
  · exact ⟨_, tokenize_eq_ok_iff.2 ⟨hnone, rfl⟩⟩

/-! ## The whole text -/

/-- In a program that was read the nodes stand where they may, and so the text of each part goes into that of the
whole. -/
theorem nodes_of_parseText {program : Node} (h : parseText text = .ok program) :
    ∀ node ∈ program :: program.descendants,
      node.wellFormed = true ∧ ∀ part ∈ node.children, Occurs part.text node.innerText := by
  have hshape := shaped_of_parseText h
  refine List.forall_mem_cons.2 ⟨⟨hshape.wellFormed, fun part => hshape.occurs_innerText⟩, ?_⟩
  intro node hnode
  obtain ⟨place, hplace, -⟩ := hshape.descendant hnode
  exact ⟨hplace.wellFormed, fun part => hplace.occurs_innerText⟩

/-- `Typing.check` goes to each node once, and any count `μ` of its findings is the sum over the visits. -/
theorem visits_of_parseText {program : Node} (h : parseText text = .ok program) (spec : Typing.Spec) :
    ((Typing.Visit.root spec program).visits spec).map (·.node) = program :: program.descendants ∧
      ∀ μ, Typing.Additive μ → μ (Typing.check spec program) =
        (((Typing.Visit.root spec program).visits spec).map fun v => μ (v.own spec)).sum := by
  refine ⟨(Typing.Visit.suits_root spec h).map_visits spec, fun μ hμ => ?_⟩
  rw [← Typing.Visit.outcome_root spec h]
  exact Typing.Visit.count_visits hμ _

/-- `tokenize` fails if and only if one of the calls reads a number of more than `maxDigits` digits. The first that does
so gives the error `ReadError.tooManyDigits` with the number of digits, and the scan stops behind them; `noDigits` never
comes. A text has tokens if and only if each run of digits that is too long is `Sheltered`, so it has if no run is too
long. With tokens it has a tree of well-formed nodes; `Typing.check` visits each of them once and finds what there is to
find about it, and `Node.text` leaves out the text of none. -/
theorem tokenize_overlong (text : String) :
    ((∃ e, tokenize text = .error e) ↔
      ∃ n before digits more, Reached text n ∧ NumberAt text n before digits more ∧ maxDigits < digits.length) ∧
    (∀ n before digits more, NumberAt text n before digits more → maxDigits < digits.length →
      (∀ m before' digits' more', NumberAt text m before' digits' more' → maxDigits < digits'.length → n ≤ m) →
      tokenize text = .error (.tooManyDigits digits.length) ∧
        (ReadError.tooManyDigits digits.length).message =
          "Exceeds the limit (4300 digits) for integer string conversion: value has " ++ toString digits.length ++
            " digits; use sys.set_int_max_str_digits() to increase the limit" ∧
        (start text).scan.stop = calls text (n + 1) ∧
        (calls text (n + 1)).offset = (before ++ digits).length ∧ (calls text (n + 1)).rest = more) ∧
    tokenize text ≠ .error .noDigits ∧
    ((∀ before digits more, DigitRun text before digits more → maxDigits < digits.length →
        Sheltered text before digits) ↔
      ∃ tokens, tokenize text = .ok tokens ∧ parseText text = .ok (parse tokens) ∧
        (∀ node ∈ parse tokens :: (parse tokens).descendants,
          node.wellFormed = true ∧ ∀ part ∈ node.children, Occurs part.text node.innerText) ∧
        ∀ spec, ((Typing.Visit.root spec (parse tokens)).visits spec).map (·.node) =
            parse tokens :: (parse tokens).descendants ∧
          ∀ μ, Typing.Additive μ → μ (Typing.check spec (parse tokens)) =
            (((Typing.Visit.root spec (parse tokens)).visits spec).map fun v => μ (v.own spec)).sum) := by
  refine ⟨⟨?_, ?_⟩, ?_, ?_, ⟨?_, ?_⟩⟩
  · rintro ⟨e, h⟩
    obtain ⟨n, before, digits, more, hreached, hnumber, hlen, -⟩ := exists_numberAt_of_error h
    exact ⟨n, before, digits, more, hreached, hnumber, hlen⟩
  · rintro ⟨n, before, digits, more, hreached, hnumber, hlen⟩
    exact ⟨_, tokenize_eq_error_iff.2 (hnumber.scan_eq hlen hreached).1⟩
  · intro n before digits more hnumber hlen hfirst
    obtain ⟨hfailure, hstop⟩ := hnumber.scan_eq hlen (hnumber.reached hfirst)
    exact ⟨tokenize_eq_error_iff.2 hfailure, rfl, hstop, hnumber.behind⟩
  · intro h
    obtain ⟨n, before, digits, more, -, -, -, he⟩ := exists_numberAt_of_error h
    cases he
  · intro h
    obtain ⟨tokens, htokens⟩ := tokenize_of_sheltered h
    have hparse : parseText text = .ok (parse tokens) := by
      rw [parseText, htokens]
      rfl
    exact ⟨tokens, htokens, hparse, nodes_of_parseText hparse, visits_of_parseText hparse⟩
  · rintro ⟨tokens, htokens, -⟩ before digits more hrun hlen
    exact sheltered_of_tokenize htokens hrun hlen

/-- Digits between quotes are a string, however many they are, and the same digits behind it a number. -/
theorem numberAt_behind_string (hdigits : ∀ ch ∈ digits, ch.isDigit = true) (hne : digits ≠ [])
    (htext : text.toList = ('\x22' :: digits ++ ['\x22']) ++ digits) :
    Sheltered text ['\x22'] digits ∧ (∃ tok, (calls text 0).readToken.1 = .ok tok) ∧
      NumberAt text 1 ('\x22' :: digits ++ ['\x22']) digits [] := by
  have hs : SpellsOrEnds ('\x22' :: digits ++ ['\x22']) digits (.string (String.ofList digits)) := by
    refine .inl ⟨'\x22', rfl, ?_, .inl (by rw [String.toList_ofList])⟩
    rw [String.toList_ofList]
    intro hmem
    exact absurd (hdigits _ hmem) (by decide)
  have hstart : Passes text 0 [] [] ('\x22' :: digits ++ ['\x22']) digits := ⟨htext, rfl, htext, .nil⟩
  have hread := readToken_of_spellsOrEnds hstart.isTrivia hs hstart.rest
  have hoffset : (calls text 1).offset = ('\x22' :: digits ++ ['\x22']).length := by
    rw [calls_succ, hread, offset_pass, hstart.offset]
    exact Nat.zero_add _
  have hrest : (calls text 1).rest = digits := by
    rw [calls_succ, hread, rest_pass, hstart.rest]
    exact List.drop_left
  refine ⟨⟨0, _, _, hstart.tokenAt (congrArg Prod.fst hread) hs, Nat.zero_le _, .inr ⟨?_, Nat.zero_le _, ?_⟩⟩,
    ⟨_, congrArg Prod.fst hread⟩, ?_⟩
  · intro value hvalue
    cases hvalue
  · rw [hoffset]
    simp
  · have hpasses : Passes text 1 ('\x22' :: digits ++ ['\x22']) [] digits [] :=
      ⟨by rw [htext, List.append_nil]; rfl, hoffset, by rw [hrest, List.append_nil]; rfl, .nil⟩
    have hrun : IsRun Char.isDigit digits [] := ⟨hdigits, by simp⟩
    have hnumber := hpasses.numberAt hrun hne
    rwa [List.append_nil] at hnumber

/-- One digit more than `maxDigits`. -/
def manyOnes : List Char := List.replicate (maxDigits + 1) '1'

/-- `manyOnes` twice: between quotes, and behind these. -/
def onesSource : String := String.ofList (('\x22' :: manyOnes ++ ['\x22']) ++ manyOnes)

theorem tokenize_overlong_ones : Sheltered onesSource ['\x22'] manyOnes ∧
    NumberAt onesSource 1 ('\x22' :: manyOnes ++ ['\x22']) manyOnes [] ∧
    tokenize onesSource = .error (.tooManyDigits 4301) := by
  have hlength : manyOnes.length = 4301 := List.length_replicate
  have hdigits : ∀ ch ∈ manyOnes, ch.isDigit = true := by
    intro ch hch
    rw [List.eq_of_mem_replicate hch]
    decide
  have hne : manyOnes ≠ [] := List.length_pos_iff.1 (by omega)
  have hlong : maxDigits < manyOnes.length := by
    rw [hlength]
    decide
  obtain ⟨hsheltered, ⟨tok, hok⟩, hnumber⟩ := numberAt_behind_string hdigits hne String.toList_ofList
  have hfirst : ∀ m before digits more, NumberAt onesSource m before digits more → maxDigits < digits.length →
      1 ≤ m := by
    intro m before digits more h hlen
    by_contra hm
    obtain rfl : m = 0 := by omega
    cases (h.fails hlen).symm.trans hok
  refine ⟨hsheltered, hnumber, ?_⟩
  rw [← hlength]
  exact ((tokenize_overlong onesSource).2.1 1 _ _ _ hnumber hlong hfirst).1

end Cursor

end HindiScript
