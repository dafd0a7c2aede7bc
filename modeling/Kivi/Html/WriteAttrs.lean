import Kivi.Html.Loops

/-!
Writing a dictionary back as attribute text: `parse_attrs` reads every dictionary of plain names and unquoted values
back from the text that writes it.
-/

namespace Kivi

/-- A dictionary written as attribute text, each entry as ` name="value"`. -/
def writeAttrs (attrs : Attrs) : List Char :=
  attrs.flatMap fun entry => ' ' :: (entry.1.data ++ '=' :: '"' :: (entry.2.data ++ ['"']))

/-- A name `parse_attrs` reads back as written: not empty, lower-cased, and free of blanks and `=`. -/
def AttrName (name : String) : Prop :=
  name ≠ "" ∧ pyLower name = name ∧ ∀ c ∈ name.data, attrBlank c = false ∧ c ≠ '='

/-- The text of a dictionary with a first entry: that entry, then the rest. -/
theorem writeAttrs_cons (name value : String) (rest : Attrs) :
    writeAttrs ((name, value) :: rest) = ' ' :: (name.data ++ '=' :: '"' :: (value.data ++ '"' :: writeAttrs rest)) := by
  simp [writeAttrs]

/-- One written entry is read as its name, its value, and the text after its closing quote. -/
theorem attrItem_written {name value : String} (named : AttrName name) (unquoted : '"' ∉ value.data)
    (more : List Char) : attrItem (name.data ++ '=' :: '"' :: (value.data ++ '"' :: more)) = (name.data, value.data, more) := by
  have inName : ∀ c ∈ name.data, (!(c = '=' || attrBlank c)) = true := fun c member => by
    simp [(named.2.2 c member).1, (named.2.2 c member).2]
  have inValue : ∀ c ∈ value.data, (!decide (c = '"')) = true := fun c member => by
    simpa using fun same : c = '"' => unquoted (same ▸ member)
  simp only [attrItem, attrValue, List.takeWhile_append_of_pos inName, List.dropWhile_append_of_pos inName]
  simp [List.takeWhile_append_of_pos inValue, List.dropWhile_append_of_pos inValue, attrBlank]

/-- Setting a name not yet in a dictionary adds it at the end. -/
theorem dictSet_of_not_mem {d : Attrs} {key : String} (fresh : key ∉ d.map Prod.fst) (value : String) :
    dictSet d key value = d ++ [(key, value)] := by
  unfold dictSet
  rw [if_neg]
  simpa using fresh

/-- The loop of `parse_attrs` over written entries adds each of them to the dictionary, in order. -/
theorem parseAttrsFrom_writeAttrs : ∀ (attrs acc : Attrs), (∀ entry ∈ attrs, AttrName entry.1) →
    (∀ entry ∈ attrs, '"' ∉ entry.2.data) → ((acc ++ attrs).map Prod.fst).Nodup →
      parseAttrsFrom (writeAttrs attrs) acc = acc ++ attrs
  | [], acc, _, _, _ => by rw [List.append_nil]; exact parseAttrsFrom_blank acc rfl
  | (name, value) :: rest, acc, names, values, distinct => by
    have named := names _ (List.mem_cons_self _ _)
    obtain ⟨c, cs, spelled⟩ := List.exists_cons_of_ne_nil fun empty => named.1 (String.ext empty)
    have solid : attrBlank c = false := (named.2.2 c (spelled ▸ List.mem_cons_self _ _)).1
    -- The blank before the entry is skipped, and the entry read whole.
    have skipped : (writeAttrs ((name, value) :: rest)).dropWhile attrBlank =
        c :: (cs ++ '=' :: '"' :: (value.data ++ '"' :: writeAttrs rest)) := by
      rw [writeAttrs_cons, List.dropWhile_cons_of_pos (by rfl), spelled, List.cons_append,
        List.dropWhile_cons_of_neg (by simp [solid])]
    have fresh : name ∉ acc.map Prod.fst := by
      rw [List.map_append, List.map_cons] at distinct
      exact fun member => (List.nodup_append.mp distinct).2.2 member (List.mem_cons_self _ _)
    rw [parseAttrsFrom_item acc skipped, ← List.cons_append, ← spelled,
      attrItem_written named (values _ (List.mem_cons_self _ _)), if_neg (mt String.ext named.1), named.2.1,
      dictSet_of_not_mem fresh, parseAttrsFrom_writeAttrs rest (acc ++ [(name, value)])
        (fun e member => names e (List.mem_cons_of_mem _ member))
        (fun e member => values e (List.mem_cons_of_mem _ member)) (by simpa using distinct)]
    simp

/--
`parse_attrs` reads back every dictionary written as ` name="value"` pairs: names not empty, lower-cased, distinct
and free of blanks and `=`, values free of `"`.
-/
theorem parseAttrs_writeAttrs (attrs : Attrs) (names : ∀ entry ∈ attrs, AttrName entry.1)
    (values : ∀ entry ∈ attrs, '"' ∉ entry.2.data) (distinct : (attrs.map Prod.fst).Nodup) :
    parseAttrs ⟨writeAttrs attrs⟩ = attrs :=
  parseAttrsFrom_writeAttrs attrs [] names values distinct

/-- A link with a target: ` href="/a" target="_top"`. -/
theorem parseAttrs_writeAttrs_link :
    (∀ entry ∈ [("href", "/a"), ("target", "_top")], AttrName entry.1) ∧
      (∀ entry ∈ [("href", "/a"), ("target", "_top")], '"' ∉ entry.2.data) ∧
      ([("href", "/a"), ("target", "_top")].map Prod.fst).Nodup ∧
      parseAttrs ⟨writeAttrs [("href", "/a"), ("target", "_top")]⟩ = [("href", "/a"), ("target", "_top")] :=
  have names : ∀ entry ∈ [("href", "/a"), ("target", "_top")], AttrName entry.1 := by
    simp only [List.mem_cons, List.mem_singleton, List.not_mem_nil, or_false, forall_eq_or_imp, forall_eq]
    exact ⟨⟨by decide, by decide, by decide⟩, ⟨by decide, by decide, by decide⟩⟩
  have values : ∀ entry ∈ [("href", "/a"), ("target", "_top")], '"' ∉ entry.2.data := by decide
  have distinct : ([("href", "/a"), ("target", "_top")].map Prod.fst).Nodup := by decide
  ⟨names, values, distinct, parseAttrs_writeAttrs _ names values distinct⟩

end Kivi
