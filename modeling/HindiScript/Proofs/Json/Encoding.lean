import HindiScript.Json.Writer
import HindiScript.Proofs.Json.Quoting

/-!
# JSON values are read back

A value without doubles is read back from its text (`parse_encode`): each kind of value is read up to where its text
ends, whatever stands behind it, as long as that does not go on with a number (`ReadsBack`). An object keeps the order
of its fields.
-/

namespace HindiScript.Json

/-! ## Values without doubles -/

mutual

/-- The value holds no double, no integer that has too many digits to be read, and no object with a name twice. -/
def Exact : Json → Prop
  | null | bool _ | str _ => True
  | int value => (Nat.toDigits 10 value.natAbs).length ≤ maxDigits
  | float _ => False
  | arr items => ExactItems items
  | obj fields => (fields.map (·.1)).Nodup ∧ ExactFields fields

def ExactItems : List Json → Prop
  | [] => True
  | item :: rest => Exact item ∧ ExactItems rest

def ExactFields : List (String × Json) → Prop
  | [] => True
  | (_, value) :: rest => Exact value ∧ ExactFields rest

end

/-! ## Numbers -/

/-- `rest` does not go on with a number that stands before it. -/
def EndsNumber (rest : List Char) : Prop := ∀ c ∈ rest.head?, c.isDigit = false ∧ c ≠ '.' ∧ c ≠ 'e' ∧ c ≠ 'E'

theorem endsNumber_nil : EndsNumber [] := fun _ h => by cases h

theorem endsNumber_cons {c : Char} (rest : List Char) (h : c.isDigit = false ∧ c ≠ '.' ∧ c ≠ 'e' ∧ c ≠ 'E') :
    EndsNumber (c :: rest) := fun _ hc => Option.some.inj hc ▸ h

theorem exists_toDigits_cons (n : Nat) : ∃ c cs, Nat.toDigits 10 n = c :: cs ∧ c.isDigit = true := by
  obtain ⟨c, cs, hcs⟩ := List.exists_cons_of_ne_nil (Nat.toDigits_ne_nil : Nat.toDigits 10 n ≠ [])
  have hmem : c ∈ Nat.toDigits 10 n := hcs ▸ List.mem_cons_self
  exact ⟨c, cs, hcs, Nat.isDigit_of_mem_toDigits (by decide) (by decide) hmem⟩

theorem head?_toDigits {n : Nat} (h : 0 < n) : (Nat.toDigits 10 n).head? ≠ some '0' := by
  induction n using Nat.strongRecOn with
  | ind n ih =>
    by_cases hn : n < 10
    · have hall : ∀ n ∈ List.range 10, 0 < n → n.digitChar ≠ '0' := by decide
      rw [Nat.toDigits_of_lt_base hn]
      exact fun hhead => hall n (List.mem_range.2 hn) h (Option.some.inj hhead)
    · have hbefore := ih (n / 10) (by omega) (by omega)
      obtain ⟨c, cs, hcs, -⟩ := exists_toDigits_cons (n / 10)
      rw [Nat.toDigits_of_base_le (by decide) (by omega), hcs]
      rw [hcs] at hbefore
      exact hbefore

theorem toList_toString_ofNat (n : Nat) : (toString (Int.ofNat n)).toList = Nat.toDigits 10 n := Nat.toList_repr

theorem toList_toString_negSucc (n : Nat) :
    (toString (Int.negSucc n)).toList = '-' :: Nat.toDigits 10 (n + 1) := by
  rw [← Nat.toList_repr]
  exact String.toList_append

section

variable {rest : List Char}

theorem takeWhile_isDigit (h : EndsNumber rest) : rest.takeWhile Char.isDigit = [] := by
  cases rest with
  | nil => rfl
  | cons c rest => rw [List.takeWhile_cons, (h c rfl).1]; rfl

theorem integerDigits_toDigits (n : Nat) (h : EndsNumber rest) :
    integerDigits (Nat.toDigits 10 n ++ rest) = some (Nat.toDigits 10 n, rest) := by
  by_cases hn : n = 0
  · subst hn
    rfl
  · have hdigits : ∀ c ∈ Nat.toDigits 10 n, c.isDigit = true := fun c hc =>
      Nat.isDigit_of_mem_toDigits (by decide) (by decide) hc
    have hhead := head?_toDigits (Nat.pos_of_ne_zero hn)
    have htake : (Nat.toDigits 10 n ++ rest).takeWhile Char.isDigit = Nat.toDigits 10 n := by
      rw [List.takeWhile_append_of_pos hdigits, takeWhile_isDigit h, List.append_nil]
    obtain ⟨c, cs, hcs, -⟩ := exists_toDigits_cons n
    rw [hcs] at hhead htake ⊢
    have hc : c ≠ '0' := fun hc => hhead (congrArg some hc)
    rw [List.cons_append] at htake ⊢
    rw [integerDigits, htake]
    · simp
    · exact fun _ he => hc (List.cons.inj he).1

theorem fractionDigits_of_ends (h : EndsNumber rest) : fractionDigits rest = (none, rest) := by
  cases rest with
  | nil => rfl
  | cons c rest =>
    rw [fractionDigits]
    exact fun _ he => (h c rfl).2.1 (List.cons.inj he).1

theorem exponentDigits_of_ends (h : EndsNumber rest) : exponentDigits rest = (none, rest) := by
  cases rest with
  | nil => rfl
  | cons c rest =>
    obtain ⟨-, -, he, hE⟩ := h c rfl
    simp [exponentDigits, he, hE]

theorem number_toDigits {n : Nat} (hn : (Nat.toDigits 10 n).length ≤ maxDigits) (h : EndsNumber rest) (negative : Bool) :
    number negative (Nat.toDigits 10 n ++ rest) = some (.int (if negative then -(n : Int) else n), rest) := by
  have hvalue : natOf (Nat.toDigits 10 n) = n := Nat.ofDigitChars_toDigits (by decide) (by decide)
  simp [number, integerDigits_toDigits n h, fractionDigits_of_ends h, exponentDigits_of_ends h, hvalue,
    Nat.not_lt.2 hn]

end

/-! ## Single values -/

section

variable {n : Nat} {rest : List Char}

theorem value_str (text : List Char) : value (n + 1) ('\x22' :: (text.flatMap escapeAsciiChar ++ '\x22' :: rest)) =
    some (.str (String.ofList text), rest) := by
  rw [value, stringTail_flatMap_escapeAsciiChar]
  rfl

theorem word?_eq_none {cs : List Char}
    (h : ∀ word ∈ ["null", "true", "false", "NaN", "Infinity", "-Infinity"], ¬ word.toList <+: cs) :
    word? cs = none := by
  rw [word?, List.findSome?_eq_none_iff]
  intro entry hentry
  have hword := h entry.1 (List.mem_map_of_mem hentry)
  simp [afterWord?, hword]

/-- A digit starts no word, and a minus before a digit does not either. -/
theorem word?_number {c : Char} (h : c.isDigit = true) (cs : List Char) :
    word? (c :: cs) = none ∧ word? ('-' :: c :: cs) = none := by
  have hne {d : Char} (hd : d.isDigit = false) : d ≠ c := by
    rintro rfl
    rw [h] at hd
    cases hd
  constructor
  · apply word?_eq_none
    simp [List.cons_prefix_cons, hne]
  · apply word?_eq_none
    simp [List.cons_prefix_cons, hne]

theorem value_other {c : Char} (h : c ≠ '\x22' ∧ c ≠ '[' ∧ c ≠ '\x7b' ∧ c ≠ '-') (cs : List Char) :
    value (n + 1) (c :: cs) = (word? (c :: cs)).or (number false (c :: cs)) := by
  obtain ⟨hquote, hbracket, hbrace, hminus⟩ := h
  rw [value]
  · exact fun _ he => hquote (List.cons.inj he).1
  · exact fun _ he => hbracket (List.cons.inj he).1
  · exact fun _ he => hbrace (List.cons.inj he).1
  · exact fun _ he => hminus (List.cons.inj he).1

theorem value_toDigits {m : Nat} (hm : (Nat.toDigits 10 m).length ≤ maxDigits) (h : EndsNumber rest) :
    value (n + 1) (Nat.toDigits 10 m ++ rest) = some (.int m, rest) ∧
      value (n + 1) ('-' :: (Nat.toDigits 10 m ++ rest)) = some (.int (-m), rest) := by
  have hnumber := number_toDigits hm h
  obtain ⟨c, cs, hcs, hdigit⟩ := exists_toDigits_cons m
  obtain ⟨hword, hminus⟩ := word?_number hdigit (cs ++ rest)
  rw [hcs, List.cons_append] at hnumber ⊢
  constructor
  · rw [value_other, hword, hnumber]
    · rfl
    · refine ⟨?_, ?_, ?_, ?_⟩ <;>
      · rintro rfl
        cases hdigit
  · rw [value, hminus, hnumber]
    rfl

theorem value_int {i : Int} (hi : (Nat.toDigits 10 i.natAbs).length ≤ maxDigits) (h : EndsNumber rest) :
    value (n + 1) ((toString i).toList ++ rest) = some (.int i, rest) := by
  cases i with
  | ofNat m =>
    rw [toList_toString_ofNat]
    exact (value_toDigits hi h).1
  | negSucc m =>
    rw [toList_toString_negSucc]
    exact (value_toDigits hi h).2

end

/-! ## Parts of arrays and objects -/

section

variable {n : Nat} {item : Json} {cs more rest : List Char}

theorem skipSpace_cons {c : Char} (h : isSpace c = false) (cs : List Char) : skipSpace (c :: cs) = c :: cs := by
  rw [skipSpace, List.dropWhile_cons_of_neg (by simp [h])]

theorem value_arr {c : Char} (hspace : isSpace c = false) (hclose : c ≠ ']') (cs : List Char) :
    value (n + 1) ('[' :: c :: cs) = (items n (c :: cs)).map fun r => (.arr r.1, r.2) := by
  rw [value, skipSpace_cons hspace]
  split
  · next he => exact absurd (List.cons.inj he).1 hclose
  · rfl

theorem value_obj (cs : List Char) :
    value (n + 1) ('\x7b' :: '\x22' :: cs) = (fields n [] ('\x22' :: cs)).map fun r => (.obj r.1, r.2) := rfl

theorem items_last (h : value n cs = some (item, ']' :: rest)) : items (n + 1) cs = some ([item], rest) := by
  rw [items, h]
  rfl

theorem items_more (h : value n cs = some (item, ',' :: ' ' :: more)) (hmore : skipSpace more = more) :
    items (n + 1) cs = (items n more).map fun r => (item :: r.1, r.2) := by
  have hskip : skipSpace (' ' :: more) = more := hmore
  rw [items, h]
  simp only [skipSpace_cons (show isSpace ',' = false from rfl), hskip]

/-- A field is read up to what stands behind its value. -/
theorem fields_last {name : List Char} {done : List (String × Json)}
    (hname : stringTail cs = some (name, ':' :: ' ' :: more))
    (hmore : skipSpace more = more) (h : value n more = some (item, '\x7d' :: rest)) :
    fields (n + 1) done ('\x22' :: cs) = some (Registry.putEntry (String.ofList name) item done, rest) := by
  have hskip : skipSpace (' ' :: more) = more := hmore
  rw [fields, hname]
  simp only [skipSpace_cons (show isSpace ':' = false from rfl), hskip, h]
  rfl

theorem fields_more {name after : List Char} {done : List (String × Json)}
    (hname : stringTail cs = some (name, ':' :: ' ' :: more)) (hmore : skipSpace more = more)
    (h : value n more = some (item, ',' :: ' ' :: after)) (hafter : skipSpace after = after) :
    fields (n + 1) done ('\x22' :: cs) = fields n (Registry.putEntry (String.ofList name) item done) after := by
  have hskip : skipSpace (' ' :: more) = more := hmore
  have hskip' : skipSpace (' ' :: after) = after := hafter
  rw [fields, hname]
  simp only [skipSpace_cons (show isSpace ':' = false from rfl), skipSpace_cons (show isSpace ',' = false from rfl),
    hskip, h, hskip']

end

/-! ## Texts of lists -/

/-- The texts with a comma and a space between each two. -/
def listed (texts : List String) : List Char := (", ".intercalate texts).toList

theorem listed_singleton (text : String) : listed [text] = text.toList := by
  rw [listed, String.intercalate_singleton]

theorem listed_cons_cons (text next : String) (texts : List String) :
    listed (text :: next :: texts) = text.toList ++ ',' :: ' ' :: listed (next :: texts) := by
  simp [listed, String.toList_intercalate]

theorem toList_encode_arr (items : List Json) :
    (encode (.arr items)).toList = '[' :: (listed (encodeItems items) ++ [']']) := by
  simp [encode, listed]

theorem toList_encode_obj (fields : List (String × Json)) :
    (encode (.obj fields)).toList = '\x7b' :: (listed (encodeFields fields) ++ ['\x7d']) := by
  simp [encode, listed]

theorem toList_quoteAscii (text : String) :
    (quoteAscii text).toList = '\x22' :: (text.toList.flatMap escapeAsciiChar ++ ['\x22']) := String.toList_ofList

theorem encodeItems_cons (item : Json) (more : List Json) :
    encodeItems (item :: more) = encode item :: encodeItems more := rfl

def fieldText (name : String) (item : Json) : String := quoteAscii name ++ ": " ++ encode item

theorem encodeFields_cons (name : String) (item : Json) (more : List (String × Json)) :
    encodeFields ((name, item) :: more) = fieldText name item :: encodeFields more := rfl

theorem toList_fieldText_append (name : String) (item : Json) (rest : List Char) :
    (fieldText name item).toList ++ rest =
      '\x22' :: (name.toList.flatMap escapeAsciiChar ++ '\x22' :: ':' :: ' ' :: ((encode item).toList ++ rest)) := by
  simp [fieldText, toList_quoteAscii]

theorem exists_listed_cons (text : String) (texts : List String) :
    ∃ tail, listed (text :: texts) = text.toList ++ tail := by
  cases texts with
  | nil => exact ⟨[], by rw [listed_singleton, List.append_nil]⟩
  | cons next texts => exact ⟨_, listed_cons_cons text next texts⟩

/-! ## Whole values -/

/-- The text of `j` starts with neither a blank nor the end of an array, and `j` is read from it whatever stands
behind it, as long as that does not go on with a number. -/
structure ReadsBack (j : Json) : Prop where
  starts : ∃ c cs, (encode j).toList = c :: cs ∧ isSpace c = false ∧ c ≠ ']'
  reads {n : Nat} {rest : List Char} (hn : (encode j).toList.length ≤ n + 1) (hrest : EndsNumber rest) :
    value (n + 1) ((encode j).toList ++ rest) = some (j, rest)

theorem readsBack_null : ReadsBack .null := ⟨⟨'n', ['u', 'l', 'l'], rfl, rfl, by decide⟩, fun _ _ => rfl⟩

theorem readsBack_bool (value : Bool) : ReadsBack (.bool value) := by
  cases value with
  | false => exact ⟨⟨'f', ['a', 'l', 's', 'e'], rfl, rfl, by decide⟩, fun _ _ => rfl⟩
  | true => exact ⟨⟨'t', ['r', 'u', 'e'], rfl, rfl, by decide⟩, fun _ _ => rfl⟩

theorem readsBack_int {i : Int} (h : (Nat.toDigits 10 i.natAbs).length ≤ maxDigits) : ReadsBack (.int i) := by
  refine ⟨?_, fun _ hrest => value_int h hrest⟩
  cases i with
  | ofNat m =>
    obtain ⟨c, cs, hcs, hdigit⟩ := exists_toDigits_cons m
    refine ⟨c, cs, (toList_toString_ofNat m).trans hcs, ?_, ?_⟩
    · refine Bool.eq_false_iff.2 fun hspace => ?_
      simp only [isSpace, Bool.or_eq_true, decide_eq_true_eq] at hspace
      rcases hspace with ((rfl | rfl) | rfl) | rfl <;> cases hdigit
    · rintro rfl
      cases hdigit
  | negSucc m => exact ⟨_, _, toList_toString_negSucc m, rfl, by decide⟩

theorem readsBack_str (text : String) : ReadsBack (.str text) := by
  have htext : (encode (.str text)).toList = '\x22' :: (text.toList.flatMap escapeAsciiChar ++ ['\x22']) :=
    toList_quoteAscii text
  refine ⟨⟨_, _, htext, rfl, by decide⟩, fun _ _ => ?_⟩
  rw [htext, List.cons_append, List.append_assoc, List.singleton_append, value_str, String.ofList_toList]

theorem ReadsBack.value_eq {j : Json} (h : ReadsBack j) {n : Nat} {rest : List Char} (hn : (encode j).toList.length ≤ n)
    (hrest : EndsNumber rest) : value n ((encode j).toList ++ rest) = some (j, rest) := by
  obtain ⟨c, cs, hcs, -⟩ := h.starts
  obtain ⟨m, rfl⟩ : ∃ m, n = m + 1 := by
    rw [hcs, List.length_cons] at hn
    exact ⟨n - 1, by omega⟩
  exact h.reads hn hrest

theorem ReadsBack.skipSpace_eq {j : Json} (h : ReadsBack j) (rest : List Char) :
    skipSpace ((encode j).toList ++ rest) = (encode j).toList ++ rest := by
  obtain ⟨c, cs, hcs, hspace, -⟩ := h.starts
  rw [hcs, List.cons_append, skipSpace_cons hspace]

/-! ### Arrays -/

theorem ReadsBack.skipSpace_listed {item : Json} (h : ReadsBack item) (more : List Json) (rest : List Char) :
    skipSpace (listed (encodeItems (item :: more)) ++ rest) = listed (encodeItems (item :: more)) ++ rest := by
  obtain ⟨tail, htail⟩ := exists_listed_cons (encode item) (encodeItems more)
  rw [encodeItems_cons, htail, List.append_assoc, h.skipSpace_eq]

/-- Each item takes one of the steps, and at least one character of the text. -/
theorem items_encode {item : Json} {more : List Json} (h : ∀ i ∈ item :: more, ReadsBack i) {n : Nat}
    (hn : (listed (encodeItems (item :: more))).length < n) (rest : List Char) :
    items n (listed (encodeItems (item :: more)) ++ ']' :: rest) = some (item :: more, rest) := by
  induction more generalizing item n with
  | nil =>
    obtain ⟨m, rfl⟩ : ∃ m, n = m + 1 := ⟨n - 1, by omega⟩
    have htext : listed (encodeItems [item]) = (encode item).toList := listed_singleton _
    rw [htext] at hn ⊢
    exact items_last ((h item List.mem_cons_self).value_eq (by omega) (endsNumber_cons _ (by decide)))
  | cons next more ih =>
    obtain ⟨m, rfl⟩ : ∃ m, n = m + 1 := ⟨n - 1, by omega⟩
    have htext : listed (encodeItems (item :: next :: more)) =
      (encode item).toList ++ ',' :: ' ' :: listed (encodeItems (next :: more)) := listed_cons_cons ..
    have hmore : ∀ i ∈ next :: more, ReadsBack i := fun i hi => h i (List.mem_cons_of_mem _ hi)
    rw [htext] at hn ⊢
    simp only [List.length_append, List.length_cons] at hn
    rw [List.append_assoc, List.cons_append, List.cons_append,
      items_more ((h item List.mem_cons_self).value_eq (by omega) (endsNumber_cons _ (by decide)))
        ((hmore next List.mem_cons_self).skipSpace_listed more _),
      ih hmore (by omega)]
    rfl

theorem readsBack_arr {items : List Json} (h : ∀ i ∈ items, ReadsBack i) : ReadsBack (.arr items) := by
  refine ⟨⟨_, _, toList_encode_arr items, rfl, by decide⟩, fun {n rest} hn _ => ?_⟩
  cases items with
  | nil => rfl
  | cons item more =>
    rw [toList_encode_arr] at hn ⊢
    simp only [List.length_cons, List.length_append, List.length_nil] at hn
    have hitems := items_encode h (show (listed (encodeItems (item :: more))).length < n by omega) rest
    obtain ⟨c, cs, hcs, hspace, hclose⟩ := (h item List.mem_cons_self).starts
    obtain ⟨tail, htail⟩ := exists_listed_cons (encode item) (encodeItems more)
    simp only [encodeItems_cons, htail, hcs, List.cons_append, List.append_assoc, List.nil_append] at hitems ⊢
    rw [value_arr hspace hclose, hitems]
    rfl

/-! ### Objects -/

theorem skipSpace_listed_fields (name : String) (item : Json) (more : List (String × Json)) (rest : List Char) :
    skipSpace (listed (encodeFields ((name, item) :: more)) ++ rest) =
      listed (encodeFields ((name, item) :: more)) ++ rest := by
  obtain ⟨tail, htail⟩ := exists_listed_cons (fieldText name item) (encodeFields more)
  rw [encodeFields_cons, htail, List.append_assoc, toList_fieldText_append, skipSpace_cons rfl]

theorem putEntry_new {name : String} {item : Json} {done more : List (String × Json)}
    (h : ((done ++ (name, item) :: more).map (·.1)).Nodup) :
    Registry.putEntry (String.ofList name.toList) item done = done ++ [(name, item)] := by
  rw [List.map_append, List.nodup_append] at h
  have hnew : name ∉ done.map (·.1) := fun hmem => h.2.2 name hmem name List.mem_cons_self rfl
  rw [String.ofList_toList, Registry.putEntry_of_not_mem hnew]

/-- The fields come behind those in `done`, because none of their names is there yet. -/
theorem fields_encode {name : String} {item : Json} {more : List (String × Json)}
    (h : ∀ f ∈ (name, item) :: more, ReadsBack f.2) (done : List (String × Json))
    (hnames : ((done ++ (name, item) :: more).map (·.1)).Nodup) {n : Nat}
    (hn : (listed (encodeFields ((name, item) :: more))).length < n) (rest : List Char) :
    fields n done (listed (encodeFields ((name, item) :: more)) ++ '\x7d' :: rest) =
      some (done ++ (name, item) :: more, rest) := by
  have hlength (name : String) (item : Json) : (encode item).toList.length < (fieldText name item).toList.length := by
    have := congrArg List.length (toList_fieldText_append name item [])
    simp only [List.length_append, List.length_cons, List.length_nil] at this
    omega
  induction more generalizing name item done n with
  | nil =>
    obtain ⟨m, rfl⟩ : ∃ m, n = m + 1 := ⟨n - 1, by omega⟩
    have htext : listed (encodeFields [(name, item)]) = (fieldText name item).toList := listed_singleton _
    have hitem : ReadsBack item := h (name, item) List.mem_cons_self
    have := hlength name item
    rw [htext] at hn ⊢
    rw [toList_fieldText_append, fields_last (stringTail_flatMap_escapeAsciiChar _ _) (hitem.skipSpace_eq _)
      (hitem.value_eq (by omega) (endsNumber_cons _ (by decide))), putEntry_new hnames]
  | cons next more ih =>
    obtain ⟨m, rfl⟩ : ∃ m, n = m + 1 := ⟨n - 1, by omega⟩
    obtain ⟨next, nextItem⟩ := next
    have htext : listed (encodeFields ((name, item) :: (next, nextItem) :: more)) =
      (fieldText name item).toList ++ ',' :: ' ' :: listed (encodeFields ((next, nextItem) :: more)) :=
      listed_cons_cons ..
    have hitem : ReadsBack item := h (name, item) List.mem_cons_self
    have := hlength name item
    rw [htext] at hn ⊢
    simp only [List.length_append, List.length_cons] at hn
    rw [List.append_assoc, List.cons_append, List.cons_append, toList_fieldText_append,
      fields_more (stringTail_flatMap_escapeAsciiChar _ _) (hitem.skipSpace_eq _)
        (hitem.value_eq (by omega) (endsNumber_cons _ (by decide))) (skipSpace_listed_fields next nextItem more _),
      putEntry_new hnames,
      ih (fun f hf => h f (List.mem_cons_of_mem _ hf)) (done ++ [(name, item)]) (by simpa using hnames) (by omega),
      List.append_assoc, List.singleton_append]

theorem readsBack_obj {fields : List (String × Json)} (hnames : (fields.map (·.1)).Nodup)
    (h : ∀ f ∈ fields, ReadsBack f.2) : ReadsBack (.obj fields) := by
  refine ⟨⟨_, _, toList_encode_obj fields, rfl, by decide⟩, fun {n rest} hn _ => ?_⟩
  cases fields with
  | nil => rfl
  | cons field more =>
    obtain ⟨name, item⟩ := field
    rw [toList_encode_obj] at hn ⊢
    simp only [List.length_cons, List.length_append, List.length_nil] at hn
    have hfields := fields_encode h [] hnames
      (show (listed (encodeFields ((name, item) :: more))).length < n by omega) rest
    obtain ⟨tail, htail⟩ := exists_listed_cons (fieldText name item) (encodeFields more)
    simp only [encodeFields_cons, htail, List.cons_append, List.append_assoc, List.nil_append,
      toList_fieldText_append] at hfields ⊢
    rw [value_obj, hfields]
    rfl

/-! ### All kinds -/

mutual

theorem readsBack_of_exact (j : Json) (h : Exact j) : ReadsBack j := by
  cases j with
  | null => exact readsBack_null
  | bool value => exact readsBack_bool value
  | int value => exact readsBack_int h
  | float value => exact h.elim
  | str text => exact readsBack_str text
  | arr items => exact readsBack_arr (readsBack_of_exactItems items h)
  | obj fields => exact readsBack_obj h.1 (readsBack_of_exactFields fields h.2)

theorem readsBack_of_exactItems (items : List Json) (h : ExactItems items) : ∀ i ∈ items, ReadsBack i := by
  cases items with
  | nil => exact List.forall_mem_nil _
  | cons item rest =>
    exact List.forall_mem_cons.2 ⟨readsBack_of_exact item h.1, readsBack_of_exactItems rest h.2⟩

theorem readsBack_of_exactFields (fields : List (String × Json)) (h : ExactFields fields) : ∀ f ∈ fields, ReadsBack f.2 := by
  cases fields with
  | nil => exact List.forall_mem_nil _
  | cons field rest =>
    obtain ⟨name, item⟩ := field
    exact List.forall_mem_cons.2 ⟨readsBack_of_exact item h.1, readsBack_of_exactFields rest h.2⟩

end

/-- `parse` reads a value back from `encode`, if it is `Exact`. -/
theorem parse_encode {j : Json} (h : Exact j) : parse (encode j) = some j := by
  have hj := readsBack_of_exact j h
  have hfuel : (encode j).toList.length ≤ 2 * (encode j).length + 1 := by
    rw [String.length_toList]
    omega
  have hread := hj.value_eq hfuel endsNumber_nil
  have hskip := hj.skipSpace_eq []
  rw [List.append_nil] at hread hskip
  rw [parse, hskip, hread]
  rfl

end HindiScript.Json
