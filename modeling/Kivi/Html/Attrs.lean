import Kivi.Python.Str

/-! Attribute lists of opening tags, read as `parse_attrs` reads them. -/

namespace Kivi

/-- A Python `dict` of strings, kept in insertion order. -/
abbrev Attrs := List (String × String)

/-- `d[key] = value`: an existing key keeps its place and takes the new value. -/
def dictSet (d : Attrs) (key value : String) : Attrs :=
  if d.any (·.1 == key) then d.map fun entry => if entry.1 = key then (key, value) else entry
  else d ++ [(key, value)]

/-- `d.get(key, default)`. -/
def dictGet (d : Attrs) (key default : String) : String :=
  (d.lookup key).getD default

/-- The blanks `parse_attrs` skips between attributes. -/
def attrBlank (c : Char) : Bool :=
  c = ' ' || c = '\t' || c = '\n'

/-- After a name, the value: quoted up to the matching quote, else up to a blank or `>`. -/
def attrValue : List Char → List Char × List Char
  | q :: rest =>
    if q = '"' ∨ q = '\'' then
      -- The closing quote is stepped over even when it is missing.
      (rest.takeWhile (· ≠ q), (rest.dropWhile (· ≠ q)).drop 1)
    else
      let unquoted := fun c => !(attrBlank c || c = '>')
      ((q :: rest).takeWhile unquoted, (q :: rest).dropWhile unquoted)
  | [] => ([], [])

/-- One pass of the loop from a non-blank character: the name, its value, and what is left. -/
def attrItem (cs : List Char) : List Char × List Char × List Char :=
  let inName := fun c => !(c = '=' || attrBlank c)
  -- Blanks and `=` are skipped together, whatever their order.
  let value := attrValue ((cs.dropWhile inName).dropWhile fun c => attrBlank c || c = '=')
  (cs.takeWhile inName, value.1, value.2)

/-- The value reader never lengthens what is left. -/
theorem attrValue_length (cs : List Char) : (attrValue cs).2.length ≤ cs.length := by
  -- Both branches drop a prefix of their input.
  cases cs with
  | nil => simp [attrValue]
  | cons q rest =>
    simp only [attrValue]
    split
    · have : (rest.dropWhile (· ≠ q)).length ≤ rest.length := (List.dropWhile_suffix _).length_le
      simp only [List.length_drop, List.length_cons]
      omega
    · exact (List.dropWhile_suffix _).length_le

/-- A pass that starts at a non-blank character consumes at least that character. -/
theorem attrItem_length {c : Char} {rest : List Char} (solid : attrBlank c = false) :
    (attrItem (c :: rest)).2.2.length < rest.length + 1 := by
  -- Either the name takes the character, or the `=` skip does.
  simp only [attrItem]
  refine lt_of_le_of_lt (attrValue_length _) ?_
  by_cases eq : c = '='
  · subst eq
    simp only [List.dropWhile_cons]
    simp
    exact Nat.lt_succ_of_le (List.dropWhile_suffix _).length_le
  · simp [List.dropWhile_cons, solid, eq]
    exact Nat.lt_succ_of_le ((List.dropWhile_suffix _).length_le.trans
      (List.dropWhile_suffix _).length_le)

/-- The loop of `parse_attrs` over the text still to read. -/
def parseAttrsFrom (cs : List Char) (attrs : Attrs) : Attrs :=
  match _skipped : cs.dropWhile attrBlank with
  | [] => attrs
  | c :: rest =>
    let item := attrItem (c :: rest)
    -- An empty name is read over but not stored.
    parseAttrsFrom item.2.2 (if item.1 = [] then attrs else dictSet attrs (pyLower ⟨item.1⟩) ⟨item.2.1⟩)
termination_by cs.length
decreasing_by
  have solid : attrBlank c = false := by
    have := List.head_dropWhile_not attrBlank cs
    simp_all
  have shorter : (cs.dropWhile attrBlank).length ≤ cs.length := (List.dropWhile_suffix _).length_le
  rw [_skipped] at shorter
  simp only [List.length_cons] at shorter
  exact lt_of_lt_of_le (attrItem_length solid) shorter

/-- `parse_attrs`. -/
def parseAttrs (attrStr : String) : Attrs :=
  parseAttrsFrom attrStr.data []

unseal parseAttrsFrom in
/-- A bare attribute followed by another takes the other's text as its value, and the other is lost. -/
theorem parseAttrs_bare_swallows_next :
    parseAttrs " download href=\"f.zip\"" = [("download", "href=\"f.zip\"")] := by
  decide

end Kivi
