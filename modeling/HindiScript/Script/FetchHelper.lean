import HindiScript.Script.Text
import HindiScript.Settings.Basic
import HindiScript.Text.Template

/-!
# The helper that fetches

Every generated program starts with a function that fetches a resource and reads it as JSON. It is a template
of twelve lines with two holes, which take the settings as JSON.
-/

namespace HindiScript.Settings

/-- The lines of the template: `$base` and `$headers` are its holes, and `$$` is a dollar sign. -/
def templateLines : List String :=
  ["const " ++ fetchHelper ++ " = (url, opts) => \x7b",
    "    const base = $base;",
    "    const defHeaders = $headers;",
    "    const finalUrl = (typeof url === 'string' && base && !/^https?:\\/\\//.test(url))",
    "        ? (base.replace(/\\/$$/, '') + '/' + url.replace(/^\\//, ''))",
    "        : url;",
    "    const options = Object.assign(\x7b\x7d, opts || \x7b\x7d);",
    "    if (defHeaders) \x7b",
    "        options.headers = Object.assign(\x7b\x7d, defHeaders, options.headers || \x7b\x7d);",
    "    \x7d",
    "    return fetch(finalUrl, options).then(r => r.json());",
    "\x7d;"]

/-- The template of the helper. -/
def helperTemplate : String := "\n".intercalate templateLines

/-- What the holes take: the base of addresses and the headers, each as JSON. -/
def helperValues (s : Settings) : Registry String :=
  .ofList [("base", Json.quoteAscii s.baseUrl), ("headers", s.headersValue.encode)]

/-- The helper. Its template has no holes but the two, so that `substitute` never fails. -/
def helperText (s : Settings) : String :=
  (Template.substitute s.helperValues helperTemplate).toOption.getD ""

end HindiScript.Settings
