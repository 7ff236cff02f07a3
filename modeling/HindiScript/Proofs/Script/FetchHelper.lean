import HindiScript.Proofs.Json.Contents
import HindiScript.Proofs.Text.Alignment
import HindiScript.Proofs.Text.Template
import HindiScript.Script.FetchHelper

/-!
# Settings in the helper that fetches

The helper is `helperTemplate` with two values put in. Filled line by line, the template gives `helperLines`
(`filled_templateLines`), so that `helperText` is what `Template.substitute` gives, without a failure
(`substitute_helperTemplate`). Whatever the settings hold, they stay in their places: the text has the same twelve lines
in printable ASCII, and what stands in the two places is JSON that reads as the settings (`helperText_decodes`).
-/

namespace HindiScript.Settings

/-! ## The lines -/

/-- The lines of `helperText`: those of `templateLines` with the settings put in. -/
def helperLines (s : Settings) : List String :=
  ["const " ++ fetchHelper ++ " = (url, opts) => \x7b",
    "    const base = " ++ Json.quoteAscii s.baseUrl ++ ";",
    "    const defHeaders = " ++ s.headersValue.encode ++ ";",
    "    const finalUrl = (typeof url === 'string' && base && !/^https?:\\/\\//.test(url))",
    "        ? (base.replace(/\\/$/, '') + '/' + url.replace(/^\\//, ''))",
    "        : url;",
    "    const options = Object.assign(\x7b\x7d, opts || \x7b\x7d);",
    "    if (defHeaders) \x7b",
    "        options.headers = Object.assign(\x7b\x7d, defHeaders, options.headers || \x7b\x7d);",
    "    \x7d",
    "    return fetch(finalUrl, options).then(r => r.json());",
    "\x7d;"]

theorem find?_helperValues (s : Settings) :
    s.helperValues.find? "base" = some (Json.quoteAscii s.baseUrl) ∧
      s.helperValues.find? "headers" = some s.headersValue.encode := by
  unfold helperValues Registry.ofList
  simp [Registry.find?_insert]

/-- Each of `helperLines` is the line of the template with the settings put in. -/
theorem filled_templateLines (s : Settings) :
    List.Forall₂ (fun line filled => Template.substitute s.helperValues line = .ok filled) templateLines s.helperLines := by
  obtain ⟨hbase, hheaders⟩ := s.find?_helperValues
  have hplain (cs : List Char) (h : '$' ∉ cs) :
      Template.substitute s.helperValues (String.ofList cs) = .ok (String.ofList cs) := Template.substitute_of_not_mem h
  -- Only three of the lines hold a dollar sign.
  refine .cons ?_ (.cons ?_ (.cons ?_ (.cons (hplain _ ?_) (.cons ?_ (.cons (hplain _ ?_) (.cons (hplain _ ?_)
    (.cons (hplain _ ?_) (.cons (hplain _ ?_) (.cons (hplain _ ?_) (.cons (hplain _ ?_) (.cons (hplain _ ?_) .nil)))))))))))
  · have hfirst := hplain ("const " ++ fetchHelper ++ " = (url, opts) => \x7b").toList (by decide)
    rwa [String.ofList_toList] at hfirst
  · exact Template.substitute_hole "    const base = ".toList "base".toList [';'] (by decide) ⟨rfl, rfl⟩ rfl (by decide)
      hbase
  · exact Template.substitute_hole "    const defHeaders = ".toList "headers".toList [';'] (by decide) ⟨rfl, rfl⟩ rfl
      (by decide) hheaders
  · decide
  · exact Template.substitute_dollars "        ? (base.replace(/\\/".toList
      "/, '') + '/' + url.replace(/^\\//, ''))".toList (by decide) (by decide)
  all_goals decide

theorem helperText_eq (s : Settings) : s.helperText = "\n".intercalate s.helperLines := by
  have hfilled : Template.substitute s.helperValues helperTemplate = .ok ("\n".intercalate s.helperLines) :=
    Template.substitute_intercalate s.filled_templateLines
  rw [helperText, hfilled]
  rfl

/-- `helperText` is what the template gives: no hole lacks a value. -/
theorem substitute_helperTemplate (s : Settings) :
    Template.substitute s.helperValues helperTemplate = .ok s.helperText := by
  rw [helperText_eq]
  exact Template.substitute_intercalate s.filled_templateLines

def helperEnd : List String := ({} : Settings).helperLines.drop 3

theorem helperLines_eq (s : Settings) :
    s.helperLines = ("const " ++ fetchHelper ++ " = (url, opts) => \x7b") ::
      ("    const base = " ++ Json.quoteAscii s.baseUrl ++ ";") ::
      ("    const defHeaders = " ++ s.headersValue.encode ++ ";") :: helperEnd := by
  simp only [helperLines, helperEnd, List.drop_succ_cons, List.drop_zero]

/-- The lines other than the two with the settings are those of the helper without settings. -/
theorem helperLines_fixed (s : Settings) {i : Nat} (hbase : i ≠ 1) (hheaders : i ≠ 2) :
    s.helperLines[i]? = ({} : Settings).helperLines[i]? := by
  rw [helperLines_eq s, helperLines_eq {}]
  rcases i with _ | _ | _ | i
  · rw [List.getElem?_cons_zero, List.getElem?_cons_zero]
  · exact absurd rfl hbase
  · exact absurd rfl hheaders
  · simp only [List.getElem?_cons_succ]

theorem plainAscii_helperEnd : ∀ line ∈ helperEnd, Json.PlainAscii line := by
  simp only [helperEnd, helperLines, List.drop_succ_cons, List.drop_zero, List.forall_mem_cons]
  refine ⟨?_, ?_, ?_, ?_, ?_, ?_, ?_, ?_, ?_, List.forall_mem_nil _⟩ <;> exact Json.plainAscii_ofList (by decide)

theorem plainAscii_helperLines {s : Settings} (h : s.headersValue.Exact) :
    ∀ line ∈ s.helperLines, Json.PlainAscii line := by
  have hframe {front back text : String} (hfront : Json.PlainAscii front) (htext : Json.PlainAscii text)
      (hback : Json.PlainAscii back) : Json.PlainAscii (front ++ text ++ back) :=
    Json.plainAscii_append.2 ⟨Json.plainAscii_append.2 ⟨hfront, htext⟩, hback⟩
  have hend : Json.PlainAscii ";" := Json.plainAscii_ofList (by decide)
  rw [helperLines_eq]
  refine List.forall_mem_cons.2 ⟨hframe ?_ ?_ ?_, List.forall_mem_cons.2 ⟨hframe ?_ (Json.plainAscii_quoteAscii _) hend,
    List.forall_mem_cons.2 ⟨hframe ?_ (Json.plainAscii_encode _ h) hend, plainAscii_helperEnd⟩⟩⟩ <;>
  exact Json.plainAscii_ofList (by decide)

/-- The lines come back from `helperText`: none of them holds a line break. -/
theorem pieces_helperText {s : Settings} (h : s.headersValue.Exact) :
    Text.pieces '\n' s.helperText.toList = s.helperLines.map String.toList := by
  have hfree : ∀ line ∈ s.helperLines.map String.toList, '\n' ∉ line := by
    intro line hline hbreak
    obtain ⟨text, htext, rfl⟩ := List.mem_map.1 hline
    exact absurd (List.all_eq_true.1 (plainAscii_helperLines h text htext) _ hbreak) (by decide)
  rw [helperText_eq, String.toList_intercalate]
  refine Text.pieces_intercalate ?_ hfree
  rw [helperLines_eq]
  exact List.cons_ne_nil _ _

theorem isPlainAscii_helperText {s : Settings} (h : s.headersValue.Exact) {c : Char} (hc : c ∈ s.helperText.toList) :
    c = '\n' ∨ Json.isPlainAscii c = true := by
  have hmem : c ∈ '\n' :: s.helperText.toList := List.mem_cons_of_mem _ hc
  rw [Text.cons_eq_flatMap_pieces, pieces_helperText h] at hmem
  obtain ⟨line, hline, hmem⟩ := List.mem_flatMap.1 hmem
  refine (List.mem_cons.1 hmem).imp_right fun hmem => ?_
  obtain ⟨text, htext, rfl⟩ := List.mem_map.1 hline
  exact List.all_eq_true.1 (plainAscii_helperLines h text htext) c hmem

/-! ## The settings -/

theorem headersValue_ofParts (baseUrl : String) (headers : Option (List (String × Json))) :
    (ofParts baseUrl headers).headersValue =
      if (headers.getD []).isEmpty then .null else .obj (headers.getD []) := by
  cases headers with
  | none => rfl
  | some fields => cases fields <;> rfl

/-- Whatever the base of addresses and the headers are, as long as the headers hold no double and no overlong integer
(`Json.Exact`): filling `helperTemplate` in one pass gives `helperText`, and filling it line by line gives `helperLines`.
These are twelve lines in printable ASCII, of which only the second and the third depend on the settings. In these two
stand the values of the two holes, `base` and `fields`, which `Json.parse` reads back as the base and the headers, the
headers in the same order and null if there are none; and every run of characters that JSON does not escape, such as a
name behind a dollar sign, stands there as it is in the settings. -/
theorem helperText_decodes (baseUrl : String) (headers : Option (List (String × Json)))
    (h : (Json.obj (headers.getD [])).Exact) :
    let s := ofParts baseUrl headers
    Template.substitute s.helperValues helperTemplate = .ok s.helperText ∧
      List.Forall₂ (fun line filled => Template.substitute s.helperValues line = .ok filled) templateLines s.helperLines ∧
      Text.pieces '\n' s.helperText.toList = s.helperLines.map String.toList ∧ s.helperLines.length = 12 ∧
      (∀ i, i ≠ 1 → i ≠ 2 → s.helperLines[i]? = ({} : Settings).helperLines[i]?) ∧
      (∀ c ∈ s.helperText.toList, c = '\n' ∨ 0x20 ≤ c.toNat ∧ c.toNat ≤ 0x7E) ∧
      ∃ base fields : String,
        s.helperValues.find? "base" = some base ∧ s.helperValues.find? "headers" = some fields ∧
        s.helperLines[1]? = some ("    const base = " ++ base ++ ";") ∧
        s.helperLines[2]? = some ("    const defHeaders = " ++ fields ++ ";") ∧
        Json.parse base = some (.str baseUrl) ∧
        Json.parse fields = some (if (headers.getD []).isEmpty then .null else .obj (headers.getD [])) ∧
        ∀ run : List Char, run.all Json.isPlain = true →
          (run <:+: baseUrl.toList → run <:+: base.toList) ∧
          ∀ text ∈ (Json.obj (headers.getD [])).texts, run <:+: text.toList → run <:+: fields.toList := by
  intro s
  have hvalue : s.headersValue = if (headers.getD []).isEmpty then .null else .obj (headers.getD []) :=
    headersValue_ofParts baseUrl headers
  have hexact : s.headersValue.Exact := by
    rw [hvalue]
    split
    · trivial
    · exact h
  refine ⟨s.substitute_helperTemplate, s.filled_templateLines, pieces_helperText hexact, rfl,
    fun i hbase hheaders => helperLines_fixed s hbase hheaders, fun c hc => ?_,
    Json.quoteAscii s.baseUrl, s.headersValue.encode, s.find?_helperValues.1, s.find?_helperValues.2, ?_, ?_, ?_, ?_,
    fun run hrun => ⟨fun hinfix => ?_, fun text htext hinfix => ?_⟩⟩
  · simpa [Json.isPlainAscii] using isPlainAscii_helperText hexact hc
  · rw [helperLines_eq, List.getElem?_cons_succ, List.getElem?_cons_zero]
  · rw [helperLines_eq, List.getElem?_cons_succ, List.getElem?_cons_succ, List.getElem?_cons_zero]
  · exact Json.parse_encode (j := .str baseUrl) trivial
  · rw [← hvalue]
    exact Json.parse_encode hexact
  · exact Json.infix_quoteAscii hinfix hrun
  · have hfields : (headers.getD []).isEmpty = false := by
      cases hheaders : headers.getD [] with
      | nil =>
        rw [hheaders] at htext
        exact absurd htext List.not_mem_nil
      | cons field more => rfl
    rw [hvalue, hfields, if_neg Bool.false_ne_true]
    exact (Json.infix_quoteAscii hinfix hrun).trans (Json.infix_encode _ htext)

/-- A base with the names of both places, a quote, a line break and a character beyond U+FFFF. -/
def dollarBase : String := "$headers/$\x7bbase\x7d$$\x22;\n\\😀"

/-- Headers whose names and values hold dollar signs, not in the order of the alphabet. -/
def dollarHeaders : List (String × Json) :=
  [("$base", .arr [.int (-40), .null, .str "$$\u2028"]), ("A", .obj [("é", .bool true)])]

theorem exact_dollarHeaders : (Json.obj dollarHeaders).Exact := by
  refine ⟨by decide, ⟨?_, trivial, trivial, trivial⟩, ⟨by decide, trivial, trivial⟩, trivial⟩
  show (Nat.toDigits 10 40).length ≤ Json.maxDigits
  decide

theorem helperText_decodes_dollars :
    (Json.obj dollarHeaders).Exact ∧ "$base" ∈ (Json.obj dollarHeaders).texts ∧
      let s := ofParts dollarBase (some dollarHeaders)
      Template.substitute s.helperValues helperTemplate = .ok s.helperText ∧
      ∃ base fields : String,
        s.helperValues.find? "base" = some base ∧ s.helperValues.find? "headers" = some fields ∧
        s.helperLines[1]? = some ("    const base = " ++ base ++ ";") ∧
        s.helperLines[2]? = some ("    const defHeaders = " ++ fields ++ ";") ∧
        Json.parse base = some (.str dollarBase) ∧ Json.parse fields = some (.obj dollarHeaders) ∧
        "$headers/$".toList <:+: base.toList ∧ "$base".toList <:+: fields.toList := by
  have htext : "$base" ∈ (Json.obj dollarHeaders).texts := List.mem_cons_self
  obtain ⟨hsubstitute, -, -, -, -, -, base, fields, hbaseValue, hfieldsValue, hbaseLine, hfieldsLine, hbase, hfields, hkept⟩ :=
    helperText_decodes dollarBase (some dollarHeaders) exact_dollarHeaders
  have hprefix : "$headers/$".toList <:+: dollarBase.toList :=
    ⟨[], "\x7bbase\x7d$$\x22;\n\\😀".toList, by decide +kernel⟩
  exact ⟨exact_dollarHeaders, htext, hsubstitute, base, fields, hbaseValue, hfieldsValue, hbaseLine, hfieldsLine, hbase,
    hfields, (hkept _ (by decide +kernel)).1 hprefix, (hkept _ (by decide +kernel)).2 _ htext (List.infix_refl _)⟩

end HindiScript.Settings
