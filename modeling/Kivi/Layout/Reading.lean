import Kivi.Html.Markup
import Kivi.Html.Leaves
import Kivi.Layout.Words

/-! Reading a laid-out page: the element laid out, and the words it shows against the words of its source. -/

namespace Kivi

namespace Markup

/-- The tags of text: the page's frame, blocks, inline styles, links and headings. -/
def textTags : List String :=
  ["html", "body", "div", "span", "p", "b", "strong", "i", "em", "a", "h1", "h2", "h3", "h4", "h5", "h6"]

mutual

/-- Whether a node uses only tags of a list. -/
def tagsIn (tags : List String) : Markup → Bool
  | .run _ => true
  | .tag name _ content => name ∈ tags && tagsInAll tags content

/-- Whether a sequence of nodes uses only tags of a list. -/
def tagsInAll (tags : List String) : List Markup → Bool
  | [] => true
  | m :: ms => tagsIn tags m && tagsInAll tags ms

end

mutual

/-- Whether the layout reads a node's words where its source has them: in every element the runs with
words come before the first child element, and a heading holds no element. -/
def ordered : Markup → Bool
  | .run _ => true
  | .tag name _ content => (name ∉ headingTags || content.all isRun) && textFirst content && orderedAll content

/-- Whether the layout reads each node of a sequence in source order. -/
def orderedAll : List Markup → Bool
  | [] => true
  | m :: ms => ordered m && orderedAll ms

end

mutual

/-- The first `body` element of a node in document order: its attribute text and its content. -/
def firstBody : Markup → Option (String × List Markup)
  | .run _ => none
  | .tag name attrs content => if name = "body" then some (attrs, content) else firstBodyAll content

/-- The first `body` element of a sequence of nodes in document order. -/
def firstBodyAll : List Markup → Option (String × List Markup)
  | [] => none
  | m :: ms => (firstBody m).orElse fun _ => firstBodyAll ms

end

/-- The nodes a page shows: the content of its first `body` element, or the whole page when it has none. -/
def shown (doc : List Markup) : List Markup :=
  match firstBodyAll doc with
  | some (_, content) => content
  | none => doc

/-! ## The elements of a page -/

/-- What the layout needs of a tag of text: it is lower case, and laid out as words. -/
theorem textTags_words : ∀ name ∈ textTags, pyLower name = name ∧ wordKind (blockKind name) = true := by
  decide

/-- Only a heading tag is laid out as a heading. -/
theorem blockKind_heading {tag : String} (heading : blockKind tag = .heading) : tag ∈ headingTags := by
  -- Every test after the first gives another kind.
  by_contra other
  rw [blockKind, if_neg other] at heading
  simp only [ite_eq_iff, reduceCtorEq, and_false, or_false, false_or] at heading

/-- The element of a tag keeps the tag's name, lower-cased, and has the tag's elements as children. -/
theorem element_parts (name attrs : String) (content : List Markup) :
    (element name attrs content).tag = pyLower name ∧ (element name attrs content).children = elementsOf content := by
  simp [element, absorbAll_children, Element.new]

/-- The root `parse_html` returns is the element of a `root` tag holding the page. -/
theorem absorbAll_root (doc : List Markup) : absorbAll (Element.new "root" []) doc = element "root" "" doc := by
  simp [element, tagAttrs]

/-- A sequence of runs has no elements, and no words inside elements. -/
theorem runs_no_elements {ms : List Markup} (runs : ms.all isRun = true) :
    elementsOf ms = [] ∧ elementWords ms = [] := by
  induction ms with
  | nil => exact ⟨rfl, rfl⟩
  | cons m ms ih =>
    cases m with
    | run _ => exact ih runs
    | tag => nomatch runs

/-- The inline words of a tag's element: the words of its runs, then those of its elements. -/
theorem inlineWords_element (name attrs : String) (content : List Markup) :
    inlineWords (element name attrs content) = content.flatMap ownWords ++ inlineWordsAll (elementsOf content) := by
  rw [inlineWords_eq, (element_parts name attrs content).2, element, absorbAll_text]
  rfl

/-- An element is laid out as words when its tag is and its children are. -/
theorem wordsOnly_element {name attrs : String} {content : List Markup} (lower : pyLower name = name)
    (kind : wordKind (blockKind name) = true) (inside : wordsOnlyAll (elementsOf content) = true) :
    wordsOnly (element name attrs content) = true := by
  obtain ⟨tagged, children⟩ := element_parts name attrs content
  generalize element name attrs content = e at tagged children ⊢
  obtain ⟨tag, _, kids, _⟩ := e
  dsimp only at tagged children
  subst tagged children
  simp only [wordsOnly, lower, kind, inside, Bool.and_self]

/-- A tag's element shows the words of its content in source order, once its elements do. -/
theorem flowWords_element {name attrs : String} {content : List Markup} (lower : pyLower name = name)
    (kind : wordKind (blockKind name) = true) (flat : name ∈ headingTags → content.all isRun = true)
    (first : textFirst content = true) (inline : inlineWordsAll (elementsOf content) = elementWords content)
    (flow : flowWordsAll (elementsOf content) = elementWords content) :
    flowWords (element name attrs content) = sourceWordsAll content := by
  have text : pySplit (element name attrs content).text = content.flatMap ownWords := by
    rw [element, absorbAll_text]
    rfl
  obtain ⟨tagged, children⟩ := element_parts name attrs content
  have read := inlineWords_element name attrs content
  generalize element name attrs content = e at text tagged children read
  obtain ⟨tag, _, kids, own⟩ := e
  dsimp only at text tagged children
  subst tagged children
  rw [flowWords, lower]
  rw [lower] at read
  cases shape : blockKind name <;> simp only [shape, wordKind, Bool.false_eq_true] at kind ⊢
  · -- A heading holds runs only, so all of its text is its own.
    obtain ⟨noElements, noWords⟩ := runs_no_elements (flat (blockKind_heading shape))
    rw [getAllText, noElements, getAllText.allTextOf, String.append_empty, text, ← textFirst_words first, noWords,
      List.append_nil]
  · -- A paragraph reads inline, its runs before its elements.
    rw [read, inline, textFirst_words first]
  · -- The default flow reads its runs before its elements.
    rw [text, flow, textFirst_words first]

mutual

/-- The element of a text tag, and every element below it, is laid out as words. -/
theorem wordsOnly_node : ∀ m : Markup, tagsIn textTags m = true → wordsOnlyAll (elementsOf [m]) = true
  | .run _, _ => rfl
  | .tag name attrs content, tags => by
    simp only [tagsIn, Bool.and_eq_true, decide_eq_true_eq] at tags
    simp only [elementsOf, wordsOnlyAll, Bool.and_true]
    exact wordsOnly_element (textTags_words name tags.1).1 (textTags_words name tags.1).2
      (wordsOnlyAll_elementsOf content tags.2)

/-- The elements of a page of text tags are laid out as words. -/
theorem wordsOnlyAll_elementsOf : ∀ ms : List Markup, tagsInAll textTags ms = true →
    wordsOnlyAll (elementsOf ms) = true
  | [], _ => rfl
  | m :: ms, tags => by
    simp only [tagsInAll, Bool.and_eq_true] at tags
    rw [elementsOf_cons, wordsOnlyAll_append, wordsOnly_node m tags.1, wordsOnlyAll_elementsOf ms tags.2,
      Bool.and_self]

end

mutual

/-- The inline words of an ordered tag's element are the words inside it, in source order. -/
theorem inlineWords_node : ∀ m : Markup, ordered m = true → inlineWordsAll (elementsOf [m]) = elementWords [m]
  | .run _, _ => rfl
  | .tag name attrs content, inOrder => by
    simp only [ordered, Bool.and_eq_true] at inOrder
    simp only [elementsOf, elementWords, inlineWordsAll, List.append_nil]
    rw [inlineWords_element, inlineWordsAll_elementsOf content inOrder.2, textFirst_words inOrder.1.2]

/-- The inline words of the elements of an ordered sequence are the words inside them, in source order. -/
theorem inlineWordsAll_elementsOf : ∀ ms : List Markup, orderedAll ms = true →
    inlineWordsAll (elementsOf ms) = elementWords ms
  | [], _ => rfl
  | m :: ms, inOrder => by
    simp only [orderedAll, Bool.and_eq_true] at inOrder
    rw [elementsOf_cons, inlineWordsAll_append, inlineWords_node m inOrder.1, inlineWordsAll_elementsOf ms inOrder.2,
      ← elementWords_cons]

end

mutual

/-- An ordered text tag's element shows the words inside it, in source order. -/
theorem flowWords_node : ∀ m : Markup, tagsIn textTags m = true → ordered m = true →
    flowWordsAll (elementsOf [m]) = elementWords [m]
  | .run _, _, _ => rfl
  | .tag name attrs content, tags, inOrder => by
    simp only [tagsIn, Bool.and_eq_true, decide_eq_true_eq] at tags
    simp only [ordered, Bool.and_eq_true, Bool.or_eq_true, decide_eq_true_eq] at inOrder
    obtain ⟨⟨flat, first⟩, inner⟩ := inOrder
    simp only [elementsOf, elementWords, flowWordsAll, List.append_nil]
    exact flowWords_element (textTags_words name tags.1).1 (textTags_words name tags.1).2
      (fun heading => flat.resolve_left (not_not.mpr heading)) first
      (inlineWordsAll_elementsOf content inner) (flowWordsAll_elementsOf content tags.2 inner)

/-- The elements of an ordered page of text tags show the words inside them, in source order. -/
theorem flowWordsAll_elementsOf : ∀ ms : List Markup, tagsInAll textTags ms = true → orderedAll ms = true →
    flowWordsAll (elementsOf ms) = elementWords ms
  | [], _, _ => rfl
  | m :: ms, tags, inOrder => by
    simp only [tagsInAll, orderedAll, Bool.and_eq_true] at tags inOrder
    rw [elementsOf_cons, flowWordsAll_append, flowWords_node m tags.1 inOrder.1,
      flowWordsAll_elementsOf ms tags.2 inOrder.2, ← elementWords_cons]

end

/-! ## The body -/

/-- `find_element` on an element: the element itself when its tag matches, else the first match below it. -/
theorem findElement_eq (tag : String) (e : Element) :
    findElement tag e = if e.tag = tag then some e else findElement.findIn tag e.children := by
  cases e
  rfl

/-- `find_element` over siblings put side by side: the first match among the first ones, else among the rest. -/
theorem findIn_append (tag : String) (es fs : List Element) :
    findElement.findIn tag (es ++ fs) = (findElement.findIn tag es).orElse fun _ => findElement.findIn tag fs := by
  induction es with
  | nil => rfl
  | cons e es ih =>
    rw [List.cons_append, findElement.findIn, findElement.findIn, ih]
    cases findElement tag e <;> rfl

mutual

/-- The first `body` element the layout finds in a text tag's element is that of the tag's first `body` tag. -/
theorem findIn_node : ∀ m : Markup, tagsIn textTags m = true →
    findElement.findIn "body" (elementsOf [m]) = (firstBody m).map fun b => element "body" b.1 b.2
  | .run _, _ => rfl
  | .tag name attrs content, tags => by
    simp only [tagsIn, Bool.and_eq_true, decide_eq_true_eq] at tags
    simp only [elementsOf, findElement.findIn]
    rw [findElement_eq, (element_parts name attrs content).1, (textTags_words name tags.1).1,
      (element_parts name attrs content).2]
    by_cases body : name = "body"
    · -- This tag is the first body.
      subst body
      simp [firstBody]
    · -- The first body is inside this tag, if anywhere.
      rw [if_neg body, findIn_elementsOf content tags.2, firstBody, if_neg body]
      cases firstBodyAll content <;> rfl

/-- The first `body` element the layout finds among a page's elements is the element of its first `body` tag. -/
theorem findIn_elementsOf : ∀ ms : List Markup, tagsInAll textTags ms = true →
    findElement.findIn "body" (elementsOf ms) = (firstBodyAll ms).map fun b => element "body" b.1 b.2
  | [], _ => rfl
  | m :: ms, tags => by
    simp only [tagsInAll, Bool.and_eq_true] at tags
    rw [elementsOf_cons, findIn_append, findIn_node m tags.1, findIn_elementsOf ms tags.2, firstBodyAll]
    cases firstBody m <;> rfl

end

mutual

/-- The first `body` tag of an ordered text tag is itself an ordered text tag. -/
theorem firstBody_ordered {attrs : String} {content : List Markup} : ∀ m : Markup,
    firstBody m = some (attrs, content) → tagsIn textTags m = true → ordered m = true →
      tagsIn textTags (.tag "body" attrs content) = true ∧ ordered (.tag "body" attrs content) = true
  | .run _, found, _, _ => by cases found
  | .tag name attrs' content', found, tags, inOrder => by
    rw [firstBody] at found
    by_cases body : name = "body"
    · -- The tag itself.
      subst body
      rw [if_pos rfl] at found
      obtain ⟨rfl, rfl⟩ := Prod.mk.inj (Option.some.inj found)
      exact ⟨tags, inOrder⟩
    · -- A tag inside it.
      rw [if_neg body] at found
      simp only [tagsIn, Bool.and_eq_true] at tags
      simp only [ordered, Bool.and_eq_true] at inOrder
      exact firstBodyAll_ordered content' found tags.2 inOrder.2

/-- The first `body` tag of a page of ordered text tags is itself an ordered text tag. -/
theorem firstBodyAll_ordered {attrs : String} {content : List Markup} : ∀ ms : List Markup,
    firstBodyAll ms = some (attrs, content) → tagsInAll textTags ms = true → orderedAll ms = true →
      tagsIn textTags (.tag "body" attrs content) = true ∧ ordered (.tag "body" attrs content) = true
  | [], found, _, _ => by cases found
  | m :: ms, found, tags, inOrder => by
    simp only [tagsInAll, orderedAll, Bool.and_eq_true] at tags inOrder
    rw [firstBodyAll] at found
    cases here : firstBody m with
    | some b =>
      rw [here] at found
      exact firstBody_ordered m (here.trans found) tags.1 inOrder.1
    | none =>
      rw [here] at found
      exact firstBodyAll_ordered ms found tags.2 inOrder.2

end

/-! ## The words a page shows -/

/-- The element of an ordered text tag other than a heading is laid out as words and shows the words of its
content, in source order. -/
theorem element_shows_content {name attrs : String} {content : List Markup} (lower : pyLower name = name)
    (kind : wordKind (blockKind name) = true) (notHeading : name ∉ headingTags) (first : textFirst content = true)
    (tags : tagsInAll textTags content = true) (inOrder : orderedAll content = true) :
    wordsOnly (element name attrs content) = true ∧ flowWords (element name attrs content) = sourceWordsAll content :=
  ⟨wordsOnly_element lower kind (wordsOnlyAll_elementsOf content tags),
    flowWords_element lower kind (absurd · notHeading) first (inlineWordsAll_elementsOf content inOrder)
      (flowWordsAll_elementsOf content tags inOrder)⟩

/--
A page written as text runs and the tags `html`, `body`, `div`, `span`, `p`, `b`, `strong`, `i`, `em`, `a`
and `h1` to `h6`, properly nested, in which no element (and not the page's top level) holds a run with words
after one of its child elements and no heading holds an element, shows exactly the words of the runs it lays
out, in source order and whatever the font and width: those of its first `body` element, or of the whole page
when it has none.
-/
theorem layout_words_follow_source (font : Font) (contentW : Int) (doc : List Markup)
    (formed : wellFormedAll doc = true) (tags : tagsInAll textTags doc = true)
    (inOrder : textFirst doc = true ∧ orderedAll doc = true) :
    blockWords (layoutDocument font contentW (parseHtml ⟨renderAll doc⟩)).1 = sourceWordsAll (shown doc) := by
  have found : findElement "body" (element "root" "" doc) = (firstBodyAll doc).map fun b => element "body" b.1 b.2 := by
    rw [findElement_eq, (element_parts "root" "" doc).1, (element_parts "root" "" doc).2, if_neg (by decide),
      findIn_elementsOf doc tags]
  -- The layout shows the words of the element it finds, once that element is laid out as words.
  have shows : ∀ {name attrs : String} {content : List Markup},
      (findElement "body" (element "root" "" doc)).getD (element "root" "" doc) = element name attrs content →
      wordsOnly (element name attrs content) = true ∧ flowWords (element name attrs content) = sourceWordsAll content →
      blockWords (layoutDocument font contentW (element "root" "" doc)).1 = sourceWordsAll content :=
    fun laid shown => by rw [layoutDocument_words font contentW _ (by rw [laid]; exact shown.1), laid, shown.2]
  rw [parseHtml_renderAll formed, absorbAll_root, shown]
  cases first : firstBodyAll doc with
  | some body =>
    -- The first body is laid out.
    obtain ⟨attrs, content⟩ := body
    obtain ⟨bodyTags, bodyOrder⟩ := firstBodyAll_ordered doc first tags inOrder.2
    simp only [tagsIn, ordered, Bool.and_eq_true] at bodyTags bodyOrder
    have known := textTags_words "body" (by decide)
    exact shows (by rw [found, first]; rfl)
      (element_shows_content known.1 known.2 (by decide) bodyOrder.1.2 bodyTags.2 bodyOrder.2)
  | none =>
    -- The whole page is laid out from the root.
    exact shows (by rw [found, first]; rfl) (element_shows_content (by decide) (by decide) (by decide) inOrder.1 tags
      inOrder.2)

unseal decodeFrom in
/-- A page with a body that holds a heading and a paragraph whose bold word follows the paragraph's own words. -/
theorem layout_words_follow_source_page :
    let doc := [Markup.tag "html" "" [.run " ", .tag "body" "" [.tag "h1" "" [.run " Kivi "],
      .tag "p" "" [.run " a ", .tag "b" "" [.run " b "]]], .run " "]]
    (wellFormedAll doc = true ∧ tagsInAll textTags doc = true ∧ textFirst doc = true ∧ orderedAll doc = true) ∧
      blockWords (layoutDocument Font.fixed 608 (parseHtml ⟨renderAll doc⟩)).1 = sourceWordsAll (shown doc) :=
  ⟨⟨by decide, by decide, by decide, by decide⟩,
    layout_words_follow_source Font.fixed 608 _ (by decide) (by decide) ⟨by decide, by decide⟩⟩

unseal parseFrom decodeFrom in
/--
Pages of text tags whose runs all start and end with a blank: a run after a child element is read before the
child, a heading glues the words of its elements, and a run outside the body is not shown.
-/
theorem layout_words_out_of_source_order :
    blockWords (layoutDocument Font.fixed 608 (parseHtml "<p> a <b> b </b> c </p>")).1 = ["a", "c", "b"] ∧
      blockWords (layoutDocument Font.fixed 608 (parseHtml "<h1> a <b> b </b> </h1>")).1 = ["ab"] ∧
      blockWords (layoutDocument Font.fixed 608 (parseHtml "<html> a <body> b </body> </html>")).1 = ["b"] := by
  decide

end Markup

/-! ## `find_element` in document order -/

/-- Among a list of trees, the search meets their elements in document order. -/
theorem findIn_eq_find (tag : String) : ∀ es : List Element,
    findElement.findIn tag es = (nodesOfAll es).find? (·.tag == tag)
  | [] => rfl
  | ⟨t, attrs, children, text⟩ :: es => by
    rw [findElement.findIn, Markup.findElement_eq, nodesOfAll, nodesOf_eq, List.cons_append, List.find?_cons,
      findIn_eq_find tag children, findIn_eq_find tag es, List.find?_append, Option.or_eq_orElse]
    cases same : t == tag <;> simp_all

/--
`find_element` returns the first element of the tag in document order: the tree itself, then the elements of its
children in turn, each before its own descendants.
-/
theorem findElement_first_in_order (tag : String) (e : Element) :
    findElement tag e = (nodesOf e).find? (·.tag == tag) := by
  rw [Markup.findElement_eq, nodesOf_eq, List.find?_cons, findIn_eq_find]
  cases same : e.tag == tag <;> simp_all

end Kivi
