import Kivi.Html.ParserLaws
import Kivi.Html.EntitiesLaws

/-! Pages written as text runs and properly nested tags, and the tree `parse_html` builds from them. -/

namespace Kivi

/-- A page's source as written: text runs and properly nested elements. -/
inductive Markup where
  /-- A text run between two tags. -/
  | run (text : String)
  /-- An element `<name attrs>content</name>`, written `<name>` when the attribute text is empty. -/
  | tag (name attrs : String) (content : List Markup)
  deriving Repr

namespace Markup

/-- Whether a node is a text run. -/
def isRun : Markup → Bool
  | .run _ => true
  | .tag .. => false

/-- The body of an opening tag: the name, then a blank and the attribute text when there is one. -/
def openBody (name attrs : String) : List Char :=
  if attrs = "" then name.data else name.data ++ ' ' :: attrs.data

mutual

/-- The source text of a node. -/
def render : Markup → List Char
  | .run text => text.data
  | .tag name attrs content =>
    '<' :: (openBody name attrs ++ '>' :: (renderAll content ++ '<' :: ('/' :: name.data ++ ['>'])))

/-- The source text of a sequence of nodes, one after the other. -/
def renderAll : List Markup → List Char
  | [] => []
  | m :: ms => render m ++ renderAll ms

end

/-! ## Sources the parser reads back -/

/-- The characters of the tag names written here: lower-case ASCII letters and digits. -/
def nameChars : List Char :=
  "abcdefghijklmnopqrstuvwxyz0123456789".data

/-- A tag name the parser reads back as written: a nonempty run of `nameChars` that names no void element. -/
def tagName (name : String) : Bool :=
  name.data ≠ [] && name.data.all (· ∈ nameChars) && name ∉ voidTags

/-- Attribute text that the tag's `>` ends: no `>` inside, and neither a blank nor a `/` last. -/
def attrText (attrs : String) : Bool :=
  '>' ∉ attrs.data && ∀ c ∈ attrs.data.getLast?, isSpace c = false ∧ c ≠ '/'

mutual

/-- A node whose source the parser reads back: nonempty runs without `<`, and readable tags. -/
def wellFormed : Markup → Bool
  | .run text => text.data ≠ [] && '<' ∉ text.data
  | .tag name attrs content => tagName name && attrText attrs && wellFormedAll content

/-- Well-formed nodes with no two runs side by side, which would read as one run. -/
def wellFormedAll : List Markup → Bool
  | [] => true
  | m :: ms => m.wellFormed && !(m.isRun && ms.head?.any isRun) && wellFormedAll ms

end

/-! ## The tree the parser builds -/

/-- The attributes the parser reads from a tag's attribute text. -/
def tagAttrs (attrs : String) : Attrs :=
  if attrs = "" then [] else parseAttrs ⟨' ' :: attrs.data⟩

mutual

/-- The element the parser holds open once it has read a node inside it. -/
def absorb : Element → Markup → Element
  | e, .run text => (handleText text.data ⟨e, []⟩).top
  | e, .tag name attrs content => e.addChild (absorbAll (Element.new name (tagAttrs attrs)) content)

/-- The element the parser holds open once it has read a sequence of nodes inside it. -/
def absorbAll : Element → List Markup → Element
  | e, [] => e
  | e, m :: ms => absorbAll (absorb e m) ms

end

/-- The element the parser builds for `<name attrs>content</name>`. -/
def element (name attrs : String) (content : List Markup) : Element :=
  absorbAll (Element.new name (tagAttrs attrs)) content

/-- The elements the parser builds for the tags of a sequence, in order. -/
def elementsOf : List Markup → List Element
  | [] => []
  | .run _ :: ms => elementsOf ms
  | .tag name attrs content :: ms => element name attrs content :: elementsOf ms

/-! ## Words in source order -/

/-- The words of a run as the page's source has them: decoded, then split on blanks. -/
def runWords (text : String) : List String :=
  pySplit (decodeEntities text)

mutual

/-- The words of a node's runs, in source order. -/
def sourceWords : Markup → List String
  | .run text => runWords text
  | .tag _ _ content => sourceWordsAll content

/-- The words of a sequence's runs, in source order. -/
def sourceWordsAll : List Markup → List String
  | [] => []
  | m :: ms => sourceWords m ++ sourceWordsAll ms

end

/-- The words of a node's own run: a run's, and none for an element. -/
def ownWords : Markup → List String
  | .run text => runWords text
  | .tag .. => []

/-- The words inside the elements of a sequence, in order. -/
def elementWords : List Markup → List String
  | [] => []
  | .run _ :: ms => elementWords ms
  | .tag _ _ content :: ms => sourceWordsAll content ++ elementWords ms

/-- Whether no run with words comes after an element in a sequence of nodes. -/
def textFirst : List Markup → Bool
  | [] => true
  | .run _ :: ms => textFirst ms
  | .tag .. :: ms => ms.flatMap ownWords = []

/-- The elements of a sequence are those of its first node, then those of the rest. -/
theorem elementsOf_cons (m : Markup) (ms : List Markup) : elementsOf (m :: ms) = elementsOf [m] ++ elementsOf ms := by
  cases m <;> rfl

/-- The words inside the elements of a sequence are those of its first node, then those of the rest. -/
theorem elementWords_cons (m : Markup) (ms : List Markup) :
    elementWords (m :: ms) = elementWords [m] ++ elementWords ms := by
  cases m <;> simp [elementWords]

/-- When only blank runs follow, the words of a sequence are those inside its elements. -/
theorem elementWords_of_blank : ∀ {ms : List Markup}, ms.flatMap ownWords = [] → elementWords ms = sourceWordsAll ms
  | [], _ => rfl
  | .run _ :: ms, blank => by
    -- The run is blank, so it adds no words on either side.
    simp only [List.flatMap_cons, ownWords, List.append_eq_nil] at blank
    simp [elementWords, sourceWordsAll, sourceWords, blank.1, elementWords_of_blank blank.2]
  | .tag .. :: ms, blank => by
    simp only [List.flatMap_cons, ownWords, List.nil_append] at blank
    simp [elementWords, sourceWordsAll, sourceWords, elementWords_of_blank blank]

/-- When the runs with words come first, reading all runs and then all elements reads in source order. -/
theorem textFirst_words : ∀ {ms : List Markup}, textFirst ms →
    ms.flatMap ownWords ++ elementWords ms = sourceWordsAll ms
  | [], _ => rfl
  | .run _ :: ms, first => by
    simp [ownWords, elementWords, sourceWordsAll, sourceWords, ← textFirst_words (show textFirst ms = true from first)]
  | .tag .. :: ms, first => by
    -- After an element only blank runs are left.
    simp only [textFirst, decide_eq_true_eq] at first
    simp [ownWords, elementWords, sourceWordsAll, sourceWords, first, elementWords_of_blank first]

/-! ## Text runs -/

/-- A text run changes only the element on top of the stack. -/
theorem handleText_frames (run : List Char) (top : Element) (below : List Element) :
    handleText run ⟨top, below⟩ = ⟨(handleText run ⟨top, []⟩).top, below⟩ := by
  unfold handleText
  split <;> rfl

/-- A text run keeps the tag and the children of the element it lands in. -/
theorem handleText_top (run : List Char) (frames : Frames) :
    (handleText run frames).top.tag = frames.top.tag ∧
      (handleText run frames).top.children = frames.top.children := by
  unfold handleText
  split <;> exact ⟨rfl, rfl⟩

/-- A blank run has no words. -/
theorem runWords_of_blank {run : List Char} (blank : stripList run = []) : runWords ⟨run⟩ = [] := by
  have spaces := blank_of_stripList_eq_nil blank
  -- No `&` is a blank, so nothing is decoded.
  have noAmp : '&' ∉ run := fun member => absurd (spaces _ member) (by decide)
  simp [runWords, decodeEntities, decodeFrom_of_not_mem noAmp, pySplit, splitWords_of_blank spaces]

/-- A text run adds its words after those the element already holds. -/
theorem handleText_words (run : List Char) (frames : Frames) :
    pySplit (handleText run frames).top.text = pySplit frames.top.text ++ runWords ⟨run⟩ := by
  unfold handleText
  split
  · rename_i blank
    rw [runWords_of_blank blank, List.append_nil]
  · dsimp only
    split
    · -- The first run of the element: its words alone.
      rename_i empty
      rw [empty, String.empty_append]
      exact pySplit_pyJoin_pySplit _
    · -- A later run: a blank between the old words and the new.
      rw [pySplit_append_blank, pySplit_pyJoin_pySplit]
      rfl

/-! ## What absorbing nodes does to an element -/

/-- Absorbing a node keeps the element's tag. -/
@[simp] theorem absorb_tag (e : Element) : ∀ m : Markup, (absorb e m).tag = e.tag
  | .run _ => (handleText_top _ _).1
  | .tag .. => rfl

/-- Absorbing nodes keeps the element's tag. -/
@[simp] theorem absorbAll_tag : ∀ (e : Element) (ms : List Markup), (absorbAll e ms).tag = e.tag
  | _, [] => rfl
  | e, m :: ms => by rw [absorbAll, absorbAll_tag, absorb_tag]

/-- Absorbing nodes adds the words of their runs to the element's text, in order. -/
theorem absorbAll_text : ∀ (e : Element) (ms : List Markup),
    pySplit (absorbAll e ms).text = pySplit e.text ++ ms.flatMap ownWords
  | _, [] => by simp [absorbAll]
  | e, .run text :: ms => by
    rw [absorbAll, absorbAll_text, absorb, handleText_words]
    simp [ownWords]
  | e, .tag .. :: ms => by
    rw [absorbAll, absorbAll_text]
    simp [absorb, Element.addChild, ownWords]

/-- Absorbing nodes adds the elements of their tags to the element's children, in order. -/
theorem absorbAll_children : ∀ (e : Element) (ms : List Markup),
    (absorbAll e ms).children = e.children ++ elementsOf ms
  | _, [] => by simp [absorbAll, elementsOf]
  | e, .run text :: ms => by
    rw [absorbAll, absorbAll_children, absorb, (handleText_top _ _).2]
    rfl
  | e, .tag .. :: ms => by
    rw [absorbAll, absorbAll_children]
    simp [absorb, Element.addChild, elementsOf, element]

/-! ## Reading tags back -/

/-- What the parser's tests say of a name character: not a blank, `/`, `>` or `!`, and already lower case. -/
theorem nameChars_plain : ∀ c ∈ nameChars,
    isSpace c = false ∧ c ≠ ' ' ∧ c ≠ '/' ∧ c ≠ '>' ∧ c ≠ '!' ∧ c.toLower = c := by
  decide

/-- A readable tag name, split into its first character and the rest, all of them name characters. -/
theorem tagName_chars {name : String} (named : tagName name) :
    (∃ c cs, name.data = c :: cs) ∧ (∀ c ∈ name.data, c ∈ nameChars) ∧ name ∉ voidTags := by
  simp only [tagName, Bool.and_eq_true, decide_eq_true_eq, List.all_eq_true] at named
  exact ⟨List.exists_cons_of_ne_nil named.1.1, named.1.2, named.2⟩

/-- `str.lower()` leaves a name of name characters as it is. -/
theorem pyLower_of_chars {name : String} (chars : ∀ c ∈ name.data, c ∈ nameChars) : pyLower name = name := by
  have same : name.data.map Char.toLower = name.data :=
    (List.map_congr_left fun c member => (nameChars_plain c (chars c member)).2.2.2.2.2).trans (List.map_id _)
  simp [pyLower, same]

/-- `dropWhile` keeps a list whose first element fails the test. -/
theorem dropWhile_of_head {p : Char → Bool} {cs : List Char} (solid : ∀ c ∈ cs.head?, p c = false) :
    cs.dropWhile p = cs := by
  cases cs with
  | nil => rfl
  | cons c cs => exact List.dropWhile_cons_of_neg (by simpa using solid c rfl)

/-- A text whose first and last characters are not blanks is its own `strip()`. -/
theorem stripList_of_ends {cs : List Char} (first : ∀ c ∈ cs.head?, isSpace c = false)
    (last : ∀ c ∈ cs.getLast?, isSpace c = false) : stripList cs = cs := by
  rw [stripList, dropWhile_of_head first, dropWhile_of_head (by simpa [List.head?_reverse] using last),
    List.reverse_reverse]

/-- The body of an opening tag starts with the name's first character and ends with a character that is
neither a blank nor a `/`, and holds no `>`. -/
theorem openBody_ends {name attrs : String} (named : tagName name) (ok : attrText attrs) :
    (∃ c tail, openBody name attrs = c :: tail ∧ c ∈ nameChars) ∧
      (∀ c ∈ (openBody name attrs).getLast?, isSpace c = false ∧ c ≠ '/') ∧ '>' ∉ openBody name attrs := by
  obtain ⟨⟨c, cs, spelled⟩, chars, -⟩ := tagName_chars named
  simp only [attrText, Bool.and_eq_true, decide_eq_true_eq] at ok
  have noGt : '>' ∉ name.data := fun member => (nameChars_plain _ (chars _ member)).2.2.2.1 rfl
  unfold openBody
  split
  · -- A bare tag ends with the name's last character.
    refine ⟨⟨c, cs, spelled, chars c (by simp [spelled])⟩, fun d last => ?_, noGt⟩
    have plain := nameChars_plain d (chars d (List.mem_of_getLast?_eq_some last))
    exact ⟨plain.1, plain.2.2.1⟩
  · -- With attributes, it ends with the attribute text's last character.
    rename_i some
    have full : attrs.data ≠ [] := fun empty => some (String.ext empty)
    refine ⟨⟨c, cs ++ ' ' :: attrs.data, by simp [spelled], chars c (by simp [spelled])⟩, fun d last => ?_, ?_⟩
    · rw [List.getLast?_append_of_ne_nil _ (List.cons_ne_nil _ _), List.getLast?_cons] at last
      exact ok.2 d (by simpa [List.getLast?_eq_getLast _ full, List.getLastD_eq_getLast?] using last)
    · simp [noGt, ok.1]

/-- An opening tag written with a readable name and attributes opens a fresh element of that name. -/
theorem handleTag_openBody {name attrs : String} (named : tagName name) (ok : attrText attrs) (frames : Frames) :
    handleTag (openBody name attrs) frames = ⟨Element.new name (tagAttrs attrs), frames.top :: frames.below⟩ := by
  obtain ⟨⟨c, tail, spelled, first⟩, last, -⟩ := openBody_ends named ok
  obtain ⟨-, chars, notVoid⟩ := tagName_chars named
  have plain := nameChars_plain c first
  -- It is neither a declaration nor a closing tag, and it does not close itself.
  have notSlash : endsWith ⟨openBody name attrs⟩ "/" = false := by
    cases ending : (openBody name attrs).getLast? with
    | none => simp [spelled] at ending
    | some d =>
      obtain ⟨ys, split⟩ := List.getLast?_eq_some_iff.mp ending
      have := (last d ending).2
      simp only [endsWith]
      rw [split]
      simp [List.isPrefixOf, Ne.symm this]
  have opening : startsWith ⟨openBody name attrs⟩ "!" = false ∧ startsWith ⟨openBody name attrs⟩ "/" = false := by
    simp [startsWith, spelled, List.isPrefixOf, Ne.symm plain.2.2.2.2.1, Ne.symm plain.2.2.1]
  have noSpace : ' ' ∉ name.data := fun member => (nameChars_plain _ (chars _ member)).2.1 rfl
  unfold handleTag openTag
  simp only [opening.1, opening.2, Bool.false_eq_true, if_false]
  by_cases bare : attrs = ""
  · -- A bare name: no blank, and no `/` to strip at its end.
    have kept : name.data.reverse.dropWhile (· = '/') = name.data.reverse :=
      dropWhile_of_head fun d last' => by
        have := (nameChars_plain d (chars d (List.mem_of_getLast?_eq_some
          (by simpa [List.head?_reverse] using last')))).2.2.1
        simpa using this
    simp only [openBody, bare, if_true, findChar_eq_none.mpr noSpace] at notSlash ⊢
    simp [kept, pyLower_of_chars chars, notVoid, notSlash, tagAttrs, bare, Element.new]
  · -- The name ends at the first blank, and the attributes are read from there on.
    simp only [openBody, bare, if_false, findChar_append_cons noSpace] at notSlash ⊢
    simp [pyLower_of_chars chars, notVoid, notSlash, tagAttrs, bare, Element.new]

/-- A closing tag written with a readable name pops to that name. -/
theorem closingName_of_tagName {name : String} (named : tagName name) : closingName name.data = name := by
  obtain ⟨⟨c, cs, spelled⟩, chars, -⟩ := tagName_chars named
  have ends : ∀ d ∈ name.data.getLast?, isSpace d = false := fun d last =>
    (nameChars_plain d (chars d (List.mem_of_getLast?_eq_some last))).1
  have kept : stripList ('/' :: name.data) = '/' :: name.data :=
    stripList_of_ends (fun d first => by cases Option.mem_def.mp first; decide) (by simpa [spelled] using ends)
  have bare : stripList name.data = name.data :=
    stripList_of_ends (by simpa [spelled] using (nameChars_plain c (chars c (by simp [spelled]))).1) ends
  simp [closingName, kept, pyStrip, bare, pyLower_of_chars chars]

/-- The closing tag of the element on top closes it into the element below. -/
theorem closeTag_top {name : String} {e parent : Element} (tagged : e.tag = name) (below : List Element) :
    closeTag name ⟨e, parent :: below⟩ = ⟨parent.addChild e, below⟩ := by
  simp [closeTag, Frames.popUntil, Frames.popUntilFrom, tagged, Frames.pop]

/-- What follows a run in the source starts a tag, or is nothing. -/
def Boundary (rest : List Char) : Prop :=
  ∀ c ∈ rest.head?, c = '<'

/-- After a boundary, a run's scan stops where it is. -/
theorem Boundary.scan {rest : List Char} (boundary : Boundary rest) :
    rest.takeWhile (· ≠ '<') = [] ∧ rest.dropWhile (· ≠ '<') = rest := by
  cases rest with
  | nil => exact ⟨rfl, rfl⟩
  | cons c rest => simp [boundary c rfl]

/-- The source of an element starts a tag. -/
theorem boundary_render_tag (name attrs : String) (content : List Markup) (rest : List Char) :
    Boundary (render (.tag name attrs content) ++ rest) := by
  simp [Boundary, render]

/-- Nodes that do not start with a run, then a boundary, start with a boundary. -/
theorem boundary_renderAll {ms : List Markup} (notRun : ms.head?.any isRun = false) {rest : List Char}
    (boundary : Boundary rest) : Boundary (renderAll ms ++ rest) := by
  match ms, notRun with
  | [], _ => simpa [renderAll] using boundary
  | .tag name attrs content :: ms, _ =>
    rw [renderAll, List.append_assoc]
    exact boundary_render_tag name attrs content _

mutual

/-- Reading a node's source and then the rest is reading the rest with the node absorbed into the open element. -/
theorem parseFrom_render : ∀ (m : Markup) (rest : List Char) (frames : Frames), m.wellFormed →
    (m.isRun → Boundary rest) → parseFrom (m.render ++ rest) frames = parseFrom rest ⟨absorb frames.top m, frames.below⟩
  | .run text, rest, ⟨top, below⟩, formed, boundary => by
    simp only [wellFormed, Bool.and_eq_true, decide_eq_true_eq] at formed
    obtain ⟨c, cs, spelled⟩ := List.exists_cons_of_ne_nil formed.1
    have plain : c ≠ '<' := fun same => formed.2 (by simp [spelled, same])
    have inside : ∀ x ∈ cs, decide (x ≠ '<') = true := fun x member => by
      rw [decide_eq_true_eq]
      rintro rfl
      exact formed.2 (spelled ▸ List.mem_cons_of_mem _ member)
    obtain ⟨taken, dropped⟩ := (boundary rfl).scan
    -- The run is scanned to its end, and read as one text run.
    rw [render, spelled, List.cons_append, parseFrom_text plain, List.takeWhile_append_of_pos inside,
      List.dropWhile_append_of_pos inside, taken, dropped, List.append_nil, handleText_frames, ← spelled]
    rfl
  | .tag name attrs content, rest, ⟨top, below⟩, formed, _ => by
    simp only [wellFormed, Bool.and_eq_true] at formed
    obtain ⟨⟨named, ok⟩, inner⟩ := formed
    have noGt : '>' ∉ '/' :: name.data := fun member => by
      obtain ⟨-, chars, -⟩ := tagName_chars named
      rcases List.mem_cons.mp member with same | member
      · exact absurd same (by decide)
      · exact (nameChars_plain _ (chars _ member)).2.2.2.1 rfl
    have stripped : stripList (openBody name attrs) = openBody name attrs := by
      obtain ⟨⟨c, _, spelled, first⟩, last, -⟩ := openBody_ends named ok
      exact stripList_of_ends (by simpa [spelled] using (nameChars_plain c first).1) fun d ending => (last d ending).1
    -- The opening tag, the content up to the closing tag, and the closing tag.
    rw [render, List.cons_append, List.append_assoc, List.cons_append, List.append_assoc, List.cons_append,
      List.append_assoc, List.singleton_append, parseFrom_tag_append (openBody_ends named ok).2.2, stripped,
      handleTag_openBody named ok, parseFrom_renderAll content _ _ inner (by simp [Boundary]),
      parseFrom_tag_append noGt, handleTag_close, closingName_of_tagName named,
      closeTag_top (by simp [Element.new, pyLower_of_chars (tagName_chars named).2.1])]
    rfl

/-- Reading the source of a sequence of nodes and then the rest is reading the rest with them all absorbed. -/
theorem parseFrom_renderAll : ∀ (ms : List Markup) (rest : List Char) (frames : Frames), wellFormedAll ms →
    Boundary rest → parseFrom (renderAll ms ++ rest) frames = parseFrom rest ⟨absorbAll frames.top ms, frames.below⟩
  | [], _, _, _, _ => rfl
  | m :: ms, rest, frames, formed, boundary => by
    simp only [wellFormedAll, Bool.and_eq_true, Bool.not_eq_true', Bool.and_eq_false_iff] at formed
    obtain ⟨⟨node, alone⟩, others⟩ := formed
    -- A run is followed by a tag or by the rest, so its scan stops where the node ends.
    have next : m.isRun → Boundary (renderAll ms ++ rest) := fun run =>
      boundary_renderAll (alone.resolve_left (by simp [run])) boundary
    rw [renderAll, List.append_assoc, parseFrom_render m _ frames node next, parseFrom_renderAll ms rest _ others boundary]
    rfl

end

/-- `parse_html` of a well-formed page is the root with the page's nodes absorbed, in order. -/
theorem parseHtml_renderAll {doc : List Markup} (formed : wellFormedAll doc) :
    parseHtml ⟨renderAll doc⟩ = absorbAll (Element.new "root" []) doc := by
  have read := parseFrom_renderAll doc [] rootFrames formed (by simp [Boundary])
  rw [List.append_nil] at read
  rw [parseHtml, read, parseFrom.eq_1]
  rfl

end Markup

end Kivi
