import HindiScript.Json.Quote
import HindiScript.Json.Reader

/-!
# JSON strings are read back

What is written as a JSON string is read as the same text, whatever stands behind the string: with the escapes that have
to be (`stringTail_flatMap_escapeChar`) and in printable ASCII (`stringTail_flatMap_escapeAsciiChar`).
-/

namespace HindiScript.Json

/-! ## One character -/

section

variable {c e : Char} {n : Nat}

theorem stringTail_short (h : unescape? e = some c) (cs : List Char) :
    stringTail ('\\' :: e :: cs) = onto c (stringTail cs) := by
  have hne : e ≠ 'u' := by
    rintro rfl
    cases h
  rw [stringTail]
  · rw [h]
  · exact fun _ _ _ _ _ _ _ _ _ he => absurd he hne
  · exact fun _ _ _ _ _ he => absurd he hne

/-- Four hexadecimal digits that are not half of a pair. -/
theorem stringTail_unit {a b c d : Char} (h : unit? a b c d = some n) (hn : n < 0xD800 ∨ 0xDFFF < n) (cs : List Char) :
    stringTail ('\\' :: 'u' :: a :: b :: c :: d :: cs) = onto (charOfUnit n) (stringTail cs) := by
  have hpair (low : Nat) : pairOf? n low = none := by
    have : ¬ (0xD800 ≤ n ∧ n ≤ 0xDBFF) := by omega
    simp [pairOf?, this]
  by_cases hcs : ∃ a' b' c' d' rest, cs = '\\' :: 'u' :: a' :: b' :: c' :: d' :: rest
  · obtain ⟨a', b', c', d', rest, rfl⟩ := hcs
    rw [stringTail, h]
    cases hlow : unit? a' b' c' d' with
    | none => rfl
    | some low => simp only [hpair]
  · rw [stringTail, h]
    exact fun a' b' c' d' rest he => hcs ⟨a', b', c', d', rest, he⟩

/-- The two halves of a pair. -/
theorem stringTail_pair {a b c d a' b' c' d' ch : Char} {high low : Nat} (hhigh : unit? a b c d = some high)
    (hlow : unit? a' b' c' d' = some low) (hpair : pairOf? high low = some ch) (cs : List Char) :
    stringTail ('\\' :: 'u' :: a :: b :: c :: d :: '\\' :: 'u' :: a' :: b' :: c' :: d' :: cs) =
      onto ch (stringTail cs) := by
  rw [stringTail, hhigh, hlow]
  simp only [hpair]

theorem stringTail_bare (hquote : c ≠ '\x22') (hslash : c ≠ '\\') (hlow : ¬ c.toNat < 0x20) (cs : List Char) :
    stringTail (c :: cs) = onto c (stringTail cs) := by
  rw [stringTail]
  · simp [hlow, hslash]
  · exact hquote
  · exact fun _ _ _ _ _ _ _ _ _ he => absurd he hslash
  · exact fun _ _ _ _ _ he => absurd he hslash
  · exact fun _ _ he => absurd he hslash

theorem unescape?_of_shortEscape? (h : shortEscape? c = some e) : unescape? e = some c := by
  unfold shortEscape? at h
  split at h <;> cases h <;> rfl

theorem hex_succ {width : Nat} (h : 0 < width) (n : Nat) :
    Text.hex (width + 1) n = Text.hex width (n / 16) ++ [(n % 16).digitChar] := by
  obtain ⟨w, rfl⟩ : ∃ w, width = w + 1 := ⟨width - 1, by omega⟩
  simp only [Text.hex]
  by_cases hn : n < 16
  · rw [Nat.toDigits_of_lt_base hn, Nat.div_eq_of_lt hn, Nat.mod_eq_of_lt hn, Nat.toDigits_of_lt_base (by decide)]
    simp only [List.length_singleton, Nat.add_sub_cancel, List.replicate_succ', List.append_assoc]
    rfl
  · rw [Nat.toDigits_of_base_le (by decide) (by omega), List.length_append, List.length_singleton,
      Nat.add_sub_add_right, List.append_assoc]

theorem hexDigit?_digitChar {n : Nat} (h : n < 16) : hexDigit? n.digitChar = some n := by
  have hall : ∀ n ∈ List.range 16, hexDigit? n.digitChar = some n := by decide
  exact hall n (List.mem_range.2 h)

theorem escapeUnit_eq (h : n < 0x10000) :
    escapeUnit n = ['\\', 'u', (n / 16 / 16 / 16).digitChar, (n / 16 / 16 % 16).digitChar, (n / 16 % 16).digitChar,
      (n % 16).digitChar] := by
  have hfirst : Text.hex 1 (n / 16 / 16 / 16) = [(n / 16 / 16 / 16).digitChar] := by
    rw [Text.hex, Nat.toDigits_of_lt_base (by omega)]
    rfl
  rw [escapeUnit, hex_succ (by decide), hex_succ (by decide), hex_succ (by decide), hfirst]
  rfl

/-- The four digits of a unit give its value. -/
theorem unit?_digitChar (h : n < 0x10000) :
    unit? (n / 16 / 16 / 16).digitChar (n / 16 / 16 % 16).digitChar (n / 16 % 16).digitChar (n % 16).digitChar =
      some n := by
  simp only [unit?, hexDigit?_digitChar (show n / 16 / 16 / 16 < 16 by omega),
    hexDigit?_digitChar (Nat.mod_lt _ (show 0 < 16 by decide)), Option.bind_eq_bind, Option.bind_some, Option.pure_def,
    Option.some.injEq]
  omega

/-- A character is no half of a pair. -/
theorem toNat_lt_or_lt (c : Char) : c.toNat < 0xD800 ∨ 0xDFFF < c.toNat := c.valid.imp_right And.left

theorem toNat_lt (c : Char) : c.toNat < 0x110000 := by
  rcases c.valid with hlow | hhigh
  · exact Nat.lt_trans hlow (by decide)
  · exact hhigh.2

theorem charOfUnit_toNat (c : Char) : charOfUnit c.toNat = c := by
  have : ¬ (0xD800 ≤ c.toNat ∧ c.toNat ≤ 0xDFFF) := by
    have := toNat_lt_or_lt c
    omega
  simp [charOfUnit, this]

/-- A character is read back from `escapeChar`. -/
theorem stringTail_escapeChar (c : Char) (cs : List Char) :
    stringTail (escapeChar c ++ cs) = onto c (stringTail cs) := by
  unfold escapeChar
  split
  · next e he => exact stringTail_short (unescape?_of_shortEscape? he) cs
  · next hnone =>
    split
    · next hlow =>
      have hunit : c.toNat < 0x10000 := by omega
      rw [escapeUnit_eq hunit]
      exact (stringTail_unit (unit?_digitChar hunit) (toNat_lt_or_lt c) cs).trans (by rw [charOfUnit_toNat])
    · next hlow =>
      refine stringTail_bare ?_ ?_ hlow cs
      · rintro rfl
        cases hnone
      · rintro rfl
        cases hnone

/-- The two units of a character beyond U+FFFF make this character. -/
theorem pairOf?_units (h : 0xFFFF < c.toNat) :
    pairOf? (0xD800 + (c.toNat - 0x10000) / 0x400) (0xDC00 + (c.toNat - 0x10000) % 0x400) = some c := by
  have hmax := toNat_lt c
  have hunits : 0xD800 + (c.toNat - 0x10000) / 0x400 ≤ 0xDBFF ∧ 0xDC00 + (c.toNat - 0x10000) % 0x400 ≤ 0xDFFF := by
    omega
  have hvalue : 0x10000 + (0xD800 + (c.toNat - 0x10000) / 0x400 - 0xD800) * 0x400 +
      (0xDC00 + (c.toNat - 0x10000) % 0x400 - 0xDC00) = c.toNat := by
    omega
  rw [pairOf?, hvalue, Char.ofNat_toNat, if_pos]
  simpa using hunits

/-- A character is read back from `escapeAsciiChar`. -/
theorem stringTail_escapeAsciiChar (c : Char) (cs : List Char) :
    stringTail (escapeAsciiChar c ++ cs) = onto c (stringTail cs) := by
  unfold escapeAsciiChar
  split
  · next e he => exact stringTail_short (unescape?_of_shortEscape? he) cs
  · next hnone =>
    simp only
    split
    · next hplain =>
      refine stringTail_bare ?_ ?_ ?_ cs
      · rintro rfl
        cases hnone
      · rintro rfl
        cases hnone
      · simp only [Bool.and_eq_true, decide_eq_true_eq] at hplain
        omega
    · split
      · next hle =>
        have hunit : c.toNat < 0x10000 := by omega
        rw [escapeUnit_eq hunit]
        exact (stringTail_unit (unit?_digitChar hunit) (toNat_lt_or_lt c) cs).trans (by rw [charOfUnit_toNat])
      · next hbeyond =>
        have hpair := pairOf?_units (Nat.lt_of_not_le hbeyond)
        have hmax := toNat_lt c
        have hhigh : 0xD800 + (c.toNat - 0x10000) / 0x400 < 0x10000 := by omega
        have hlow : 0xDC00 + (c.toNat - 0x10000) % 0x400 < 0x10000 := by omega
        rw [escapeUnit_eq hhigh, escapeUnit_eq hlow]
        exact stringTail_pair (unit?_digitChar hhigh) (unit?_digitChar hlow) hpair cs

end

/-! ## Whole strings -/

/-- A text is read back from its escapes, up to the quote behind them, if each character is read back from `escape`.
-/
theorem stringTail_flatMap {escape : Char → List Char}
    (h : ∀ c cs, stringTail (escape c ++ cs) = onto c (stringTail cs)) (text rest : List Char) :
    stringTail (text.flatMap escape ++ '\x22' :: rest) = some (text, rest) := by
  induction text with
  | nil => rw [List.flatMap_nil, List.nil_append, stringTail]
  | cons c text ih =>
    rw [List.flatMap_cons, List.append_assoc, h, ih]
    rfl

theorem stringTail_flatMap_escapeChar (text rest : List Char) :
    stringTail (text.flatMap escapeChar ++ '\x22' :: rest) = some (text, rest) :=
  stringTail_flatMap stringTail_escapeChar text rest

theorem stringTail_flatMap_escapeAsciiChar (text rest : List Char) :
    stringTail (text.flatMap escapeAsciiChar ++ '\x22' :: rest) = some (text, rest) :=
  stringTail_flatMap stringTail_escapeAsciiChar text rest

theorem length_lt_of_stringTail {cs text rest : List Char} (h : stringTail cs = some (text, rest)) :
    rest.length < cs.length := by
  have honto {c : Char} {r : Option (List Char × List Char)} {text : List Char} (h : onto c r = some (text, rest)) :
      ∃ text, r = some (text, rest) := by
    obtain ⟨⟨text', rest'⟩, hr, he⟩ := Option.map_eq_some_iff.1 h
    obtain ⟨-, rfl⟩ := Prod.mk.inj he
    exact ⟨text', hr⟩
  fun_induction stringTail cs generalizing text with
  | case1 | case3 | case7 | case9 | case11 => cases h
  | case2 =>
    cases h
    exact Nat.lt_succ_self _
  | case4 a b c d a' b' c' d' rest low _ _ ih | case6 a b c d a' b' c' d' rest low _ _ _ _ ih =>
    obtain ⟨text, h⟩ := honto h
    have := ih h
    simp only [List.length_cons] at this ⊢
    omega
  | case5 a b c d a' b' c' d' rest low _ _ _ _ _ ih | case8 a b c d rest _ low _ ih
  | case10 c rest _ _ c' _ ih | case12 c rest _ _ _ _ _ ih =>
    obtain ⟨text, h⟩ := honto h
    have := ih h
    simp only [List.length_cons]
    omega

end HindiScript.Json
