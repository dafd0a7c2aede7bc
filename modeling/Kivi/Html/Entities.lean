import Kivi.Python.Str

/-! Decoding character references in text runs, as `decode_entities` scans them. -/

namespace Kivi

/-- `HTML_ENTITIES`: the named references and their replacements. -/
def htmlEntities : List (String × String) :=
  [("amp", "&"), ("lt", "<"), ("gt", ">"), ("quot", "\""), ("apos", "'"),
   ("nbsp", " "), ("copy", "(c)"), ("reg", "(R)"), ("trade", "(TM)"),
   ("mdash", "-"), ("ndash", "-"), ("bull", "*"), ("hellip", "..."),
   ("laquo", "<<"), ("raquo", ">>"), ("ldquo", "\""), ("rdquo", "\""),
   ("lsquo", "'"), ("rsquo", "'"), ("pound", "GBP"), ("euro", "EUR"),
   ("yen", "JPY"), ("cent", "c"), ("times", "x"), ("divide", "/"),
   ("plusmn", "+/-"), ("deg", "deg"), ("larr", "<-"), ("rarr", "->"),
   ("uarr", "^"), ("darr", "v"), ("middot", "."), ("sect", "S"),
   ("para", "P"), ("dagger", "+"), ("permil", "o/oo"), ("prime", "'"),
   ("infin", "inf"), ("ne", "!="), ("le", "<="), ("ge", ">="),
   ("asymp", "~="), ("equiv", "==="), ("alpha", "a"), ("beta", "b"),
   ("gamma", "g"), ("delta", "d"), ("pi", "pi"), ("sigma", "s"), ("omega", "w")]

/--
What the body of one reference `&body;` decodes to, or none when it passes through literally.

A `#x` body is read in base 16 and a `#` body in base 10, then given to `chr`; a failure of
either conversion is the `except` branch, which keeps the reference as written.
-/
def decodeReference (entity : List Char) : Option (List Char) :=
  if ['#', 'x'].isPrefixOf entity then
    ((pyInt ⟨entity.drop 2⟩ 16).bind pyChr).map ([·])
  else if ['#'].isPrefixOf entity then
    ((pyInt ⟨entity.drop 1⟩ 10).bind pyChr).map ([·])
  else
    (htmlEntities.lookup ⟨entity⟩).map String.data

/-- The loop of `decode_entities` over the text still to read. -/
def decodeFrom : List Char → List Char
  | [] => []
  | '&' :: rest =>
    -- `end - i` is one more than the position of the `;` after the ampersand.
    match findChar ';' rest with
    | some k =>
      if k + 1 < 12 then
        (decodeReference (rest.take k)).getD ('&' :: rest.take (k + 1)) ++ decodeFrom (rest.drop (k + 1))
      else '&' :: decodeFrom rest
    | none => '&' :: decodeFrom rest
  | c :: rest => c :: decodeFrom rest
termination_by cs => cs.length
decreasing_by all_goals simp_wf; all_goals omega

/-- `decode_entities`. -/
def decodeEntities (text : String) : String :=
  ⟨decodeFrom text.data⟩

end Kivi
