import HindiScript.Proofs.Json.Encoding

/-!
# What the text of a JSON value holds

The text of a value without doubles is printable ASCII (`plainAscii_encode`). Every text in the value stands in it as a
JSON string (`infix_encode`), and there a run of printable characters other than quotes and backslashes is as it was
(`infix_quoteAscii`).
-/

namespace HindiScript.Json

/-! ## Plain ASCII -/

/-- The character is a printable one of ASCII. -/
def isPlainAscii (c : Char) : Bool := 0x20 ≤ c.toNat && c.toNat ≤ 0x7E

/-- All characters of the text are printable ones of ASCII. -/
def PlainAscii (text : String) : Prop := text.toList.all isPlainAscii = true

theorem plainAscii_ofList {cs : List Char} (h : cs.all isPlainAscii = true) : PlainAscii (String.ofList cs) := by
  rw [PlainAscii, String.toList_ofList, h]

theorem plainAscii_append {a b : String} : PlainAscii (a ++ b) ↔ PlainAscii a ∧ PlainAscii b := by
  simp only [PlainAscii, String.toList_append, List.all_append, Bool.and_eq_true]

theorem all_escapeUnit {n : Nat} (h : n < 0x10000) : (escapeUnit n).all isPlainAscii = true := by
  have hdigit {m : Nat} (hm : m < 16) : isPlainAscii m.digitChar = true := by
    have hall : ∀ m ∈ List.range 16, isPlainAscii m.digitChar = true := by decide
    exact hall m (List.mem_range.2 hm)
  have hlast (m : Nat) : isPlainAscii (m % 16).digitChar = true := hdigit (Nat.mod_lt _ (by decide))
  rw [escapeUnit_eq h]
  simp only [List.all_cons, List.all_nil, hlast, hdigit (show n / 16 / 16 / 16 < 16 by omega)]
  rfl

theorem all_escapeAsciiChar (c : Char) : (escapeAsciiChar c).all isPlainAscii = true := by
  unfold escapeAsciiChar
  split
  · next e he =>
    unfold shortEscape? at he
    split at he <;> cases he <;> rfl
  · simp only
    split
    · next hplain => simpa [isPlainAscii] using hplain
    · split
      · exact all_escapeUnit (by omega)
      · have hmax := toNat_lt c
        rw [List.all_append, all_escapeUnit (by omega), all_escapeUnit (by omega)]
        rfl

theorem plainAscii_quoteAscii (text : String) : PlainAscii (quoteAscii text) := by
  have htext : (text.toList.flatMap escapeAsciiChar).all isPlainAscii = true :=
    List.all_eq_true.2 fun c hc => by
      obtain ⟨ch, -, hch⟩ := List.mem_flatMap.1 hc
      exact List.all_eq_true.1 (all_escapeAsciiChar ch) c hch
  rw [PlainAscii, toList_quoteAscii, List.all_cons, List.all_append, htext]
  rfl

theorem plainAscii_int (i : Int) : PlainAscii (toString i) := by
  have hdigits (n : Nat) : (Nat.toDigits 10 n).all isPlainAscii = true :=
    List.all_eq_true.2 fun c hc => by
      obtain ⟨hlow, hhigh⟩ := Char.isDigit_iff_toNat.1 (Nat.isDigit_of_mem_toDigits (by decide) (by decide) hc)
      have hcode : 0x20 ≤ c.toNat ∧ c.toNat ≤ 0x7E :=
        ⟨Nat.le_trans (by decide) hlow, Nat.le_trans hhigh (by decide)⟩
      simpa [isPlainAscii] using hcode
  cases i with
  | ofNat n => rw [PlainAscii, toList_toString_ofNat, hdigits]
  | negSucc n =>
    rw [PlainAscii, toList_toString_negSucc, List.all_cons, hdigits]
    rfl

theorem all_listed {texts : List String} (h : ∀ text ∈ texts, PlainAscii text) :
    (listed texts).all isPlainAscii = true := by
  induction texts with
  | nil => rfl
  | cons text texts ih =>
    have htext : text.toList.all isPlainAscii = true := h text List.mem_cons_self
    have htexts := ih fun t ht => h t (List.mem_cons_of_mem _ ht)
    cases texts with
    | nil => rw [listed_singleton, htext]
    | cons next texts =>
      rw [listed_cons_cons, List.all_append, List.all_cons, List.all_cons, htext, htexts]
      rfl

mutual

theorem plainAscii_encode (j : Json) (h : Exact j) : PlainAscii (encode j) := by
  cases j with
  | null => rfl
  | bool value => cases value <;> rfl
  | int value => exact plainAscii_int value
  | float value => exact h.elim
  | str text => exact plainAscii_quoteAscii text
  | arr items =>
    rw [PlainAscii, toList_encode_arr, List.all_cons, List.all_append, all_listed (plainAscii_encodeItems items h)]
    rfl
  | obj fields =>
    rw [PlainAscii, toList_encode_obj, List.all_cons, List.all_append, all_listed (plainAscii_encodeFields fields h.2)]
    rfl

theorem plainAscii_encodeItems (items : List Json) (h : ExactItems items) :
    ∀ text ∈ encodeItems items, PlainAscii text := by
  cases items with
  | nil => exact List.forall_mem_nil _
  | cons item rest =>
    exact List.forall_mem_cons.2 ⟨plainAscii_encode item h.1, plainAscii_encodeItems rest h.2⟩

theorem plainAscii_encodeFields (fields : List (String × Json)) (h : ExactFields fields) :
    ∀ text ∈ encodeFields fields, PlainAscii text := by
  cases fields with
  | nil => exact List.forall_mem_nil _
  | cons field rest =>
    obtain ⟨name, item⟩ := field
    have hfield : PlainAscii (fieldText name item) :=
      plainAscii_append.2 ⟨plainAscii_append.2 ⟨plainAscii_quoteAscii name, rfl⟩, plainAscii_encode item h.1⟩
    exact List.forall_mem_cons.2 ⟨hfield, plainAscii_encodeFields rest h.2⟩

end

/-! ## Texts in a value -/

mutual

/-- The texts in a value: its strings, and the names of its fields. -/
def texts : Json → List String
  | str text => [text]
  | arr items => textsOfItems items
  | obj fields => textsOfFields fields
  | _ => []

def textsOfItems : List Json → List String
  | [] => []
  | item :: rest => texts item ++ textsOfItems rest

def textsOfFields : List (String × Json) → List String
  | [] => []
  | (name, value) :: rest => name :: (texts value ++ textsOfFields rest)

end

theorem infix_listed {text : String} {texts : List String} (h : text ∈ texts) : text.toList <:+: listed texts := by
  induction texts with
  | nil => exact absurd h List.not_mem_nil
  | cons first texts ih =>
    rcases List.mem_cons.1 h with rfl | h
    · obtain ⟨tail, htail⟩ := exists_listed_cons text texts
      rw [htail]
      exact (List.prefix_append _ _).isInfix
    · cases texts with
      | nil => exact absurd h List.not_mem_nil
      | cons next texts =>
        rw [listed_cons_cons]
        exact (ih h).trans ⟨first.toList ++ [',', ' '], [], by simp⟩

theorem infix_fieldText (name : String) (item : Json) :
    (quoteAscii name).toList <:+: (fieldText name item).toList ∧
      (encode item).toList <:+: (fieldText name item).toList := by
  simp only [fieldText, String.toList_append]
  exact ⟨(List.prefix_append _ _).isInfix.trans (List.prefix_append _ _).isInfix, (List.suffix_append _ _).isInfix⟩

mutual

/-- Every text in `j` stands in `encode j`, as a JSON string. -/
theorem infix_encode (j : Json) {text : String} (h : text ∈ texts j) :
    (quoteAscii text).toList <:+: (encode j).toList := by
  cases j with
  | str text' =>
    obtain rfl := List.mem_singleton.1 h
    exact List.infix_refl _
  | arr items =>
    obtain ⟨t, ht, htext⟩ := infix_encodeItems items h
    rw [toList_encode_arr]
    exact htext.trans ((infix_listed ht).trans ⟨['['], [']'], rfl⟩)
  | obj fields =>
    obtain ⟨t, ht, htext⟩ := infix_encodeFields fields h
    rw [toList_encode_obj]
    exact htext.trans ((infix_listed ht).trans ⟨['\x7b'], ['\x7d'], rfl⟩)
  | _ => exact absurd h List.not_mem_nil

theorem infix_encodeItems (items : List Json) {text : String} (h : text ∈ textsOfItems items) :
    ∃ t ∈ encodeItems items, (quoteAscii text).toList <:+: t.toList := by
  cases items with
  | nil => exact absurd h List.not_mem_nil
  | cons item rest =>
    rcases List.mem_append.1 h with h | h
    · exact ⟨_, List.mem_cons_self, infix_encode item h⟩
    · obtain ⟨t, ht, htext⟩ := infix_encodeItems rest h
      exact ⟨t, List.mem_cons_of_mem _ ht, htext⟩

theorem infix_encodeFields (fields : List (String × Json)) {text : String} (h : text ∈ textsOfFields fields) :
    ∃ t ∈ encodeFields fields, (quoteAscii text).toList <:+: t.toList := by
  cases fields with
  | nil => exact absurd h List.not_mem_nil
  | cons field rest =>
    obtain ⟨name, item⟩ := field
    rcases List.mem_cons.1 h with rfl | h
    · exact ⟨_, List.mem_cons_self, (infix_fieldText text item).1⟩
    · rcases List.mem_append.1 h with h | h
      · exact ⟨_, List.mem_cons_self, (infix_encode item h).trans (infix_fieldText name item).2⟩
      · obtain ⟨t, ht, htext⟩ := infix_encodeFields rest h
        exact ⟨t, List.mem_cons_of_mem _ ht, htext⟩

end

/-- `quoteAscii` writes the character as it is. -/
def isPlain (c : Char) : Bool := isPlainAscii c && c ≠ '\x22' && c ≠ '\\'

theorem escapeAsciiChar_of_isPlain {c : Char} (h : isPlain c = true) : escapeAsciiChar c = [c] := by
  have hshort : shortEscape? c = none := by
    cases hs : shortEscape? c with
    | none => rfl
    | some e =>
      unfold shortEscape? at hs
      split at hs <;> cases hs <;> cases h
  simp only [isPlain, isPlainAscii, Bool.and_eq_true] at h
  simp only [escapeAsciiChar, hshort, h.1.1.1, h.1.1.2, Bool.and_self, if_true]

theorem flatMap_escapeAsciiChar_of_isPlain {run : List Char} (h : run.all isPlain = true) :
    run.flatMap escapeAsciiChar = run := by
  induction run with
  | nil => rfl
  | cons c rest ih =>
    rw [List.all_cons, Bool.and_eq_true] at h
    rw [List.flatMap_cons, escapeAsciiChar_of_isPlain h.1, ih h.2, List.singleton_append]

/-- A run of plain characters stands in `quoteAscii text` as it is. -/
theorem infix_quoteAscii {text : String} {run : List Char} (hrun : run <:+: text.toList)
    (hplain : run.all isPlain = true) : run <:+: (quoteAscii text).toList := by
  obtain ⟨front, back, htext⟩ := hrun
  have hescaped : run <:+: text.toList.flatMap escapeAsciiChar := by
    rw [← htext, List.flatMap_append, List.flatMap_append, flatMap_escapeAsciiChar_of_isPlain hplain]
    exact List.infix_append _ _ _
  rw [toList_quoteAscii]
  exact hescaped.trans ⟨['\x22'], ['\x22'], rfl⟩

end HindiScript.Json
