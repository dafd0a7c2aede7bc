import Kivi.Layout.Font
import Kivi.Html.Parser

/-! The layout engine: element trees to positioned blocks and link regions, as the code lays them out. -/

namespace Kivi

/-- `TextBlock`: a positioned run of text, or a decorative marker carried in the text field. -/
structure TextBlock where
  x : Int
  y : Int
  /-- The text, or one of the markers `__HR__`, `__BQ_START__` and `__CELL__`. -/
  text : String
  fontSize : Nat
  style : Nat
  fg : Nat
  /-- The link target; `None` and `''` are both falsy in the code, and both are the empty string here. -/
  href : String
  w : Int
  h : Int
  deriving DecidableEq, Repr

/-- One entry `(x, y, w, h, href)` of the `links` list. -/
structure Link where
  x : Int
  y : Int
  w : Int
  h : Int
  href : String
  deriving DecidableEq, Repr

/-- The `blocks` and `links` lists a layout call appends to, with the `y` it has reached. -/
structure Flow where
  blocks : List TextBlock
  links : List Link
  y : Int

/-! ## Text -/

/-- `get_all_text`: the element's own text followed by that of every descendant, with no separator. -/
def getAllText : Element → String
  | ⟨_, _, children, text⟩ => text ++ allTextOf children
where
  /-- The texts of a list of siblings, in order. -/
  allTextOf : List Element → String
    | [] => ""
    | child :: rest => getAllText child ++ allTextOf rest

/-- `find_element`: the first element of the tag in document order. -/
def findElement (tag : String) : Element → Option Element
  | ⟨t, attrs, children, text⟩ => if t = tag then some ⟨t, attrs, children, text⟩ else findIn children
where
  /-- The first match among a list of siblings and their descendants. -/
  findIn : List Element → Option Element
    | [] => none
    | child :: rest => (findElement tag child).orElse fun _ => findIn rest

/-- The font size in force inside an element: `FONT_SIZES[tag]` when the tag has an entry. -/
def tagSize (tag : String) (size : Nat) : Nat :=
  (fontSizes.lookup tag).getD size

/-- The style an element's tag gives its text: bold for `b` and `strong`, italic for `i` and `em`. -/
def tagStyle (font : Font) (tag : String) (style : Nat) : Nat :=
  if tag = "b" ∨ tag = "strong" then style ||| font.bold
  else if tag = "i" ∨ tag = "em" then style ||| font.italic else style

/-- The link target in force inside an element: an `a` element's own `href`, else the inherited one. -/
def tagHref (tag : String) (attrs : Attrs) (href : String) : String :=
  if tag = "a" then dictGet attrs "href" "" else href

section Wrap

/-! The loop of `layout_text` reads the font only through `measure_text` at the text's size and the line height, so
it is written once over those two, and the font's own `layout_text` is that loop for its widths. -/

variable (measure : String → Int) (lineHeight : Int)

/-- The block one line of `layout_text` emits, its link region, and the advance to the next line. -/
def textLineBy (x : Int) (size style fg : Nat) (href : String) (flow : Flow) (lineWords : List String) : Flow :=
  let lineText := pyJoin " " lineWords
  let block : TextBlock := ⟨x, flow.y, lineText, size, style, fg, href, measure lineText, lineHeight⟩
  { blocks := flow.blocks ++ [block]
    links := if href = "" then flow.links else flow.links ++ [⟨x, flow.y, block.w, lineHeight, href⟩]
    y := flow.y + lineHeight }

/-- One word of the loop of `layout_text`: it joins the line, or the line is emitted and it starts the next. -/
def textStepBy (contentW x : Int) (size style fg : Nat) (href : String) (acc : Flow × List String)
    (word : String) : Flow × List String :=
  let wordW := measure word
  let testW := if acc.2 = [] then wordW else measure (pyJoin " " (acc.2 ++ [word]))
  if x + testW > margin + contentW ∧ acc.2 ≠ [] then (textLineBy measure lineHeight x size style fg href acc.1 acc.2, [word])
  else (acc.1, acc.2 ++ [word])

/-- Greedy word wrap of a text into lines starting at `MARGIN + indent`. -/
def layoutTextBy (contentW : Int) (text : String) (flow : Flow) (indent : Int) (size style fg : Nat)
    (href : String) : Flow :=
  if text = "" then flow
  else
    let x := margin + indent
    let done := (pySplit text).foldl (textStepBy measure lineHeight contentW x size style fg href) (flow, [])
    if done.2 = [] then done.1 else textLineBy measure lineHeight x size style fg href done.1 done.2

end Wrap

/-- One line of `layout_text` in the font, at the text's size. -/
def textLine (font : Font) (x : Int) (size style fg : Nat) (href : String) (flow : Flow)
    (lineWords : List String) : Flow :=
  textLineBy (font.measureText · size) (font.lineHeight size) x size style fg href flow lineWords

/-- `layout_text`: greedy word wrap of a text into lines starting at `MARGIN + indent`. -/
def layoutText (font : Font) (contentW : Int) (text : String) (flow : Flow) (indent : Int)
    (size style fg : Nat) (href : String) : Flow :=
  layoutTextBy (font.measureText · size) (font.lineHeight size) contentW text flow indent size style fg href

/-! ## Inline flow of paragraphs -/

/-- `emit_word`: one word placed at the pen, wrapping first when it would cross the right edge. -/
def inlineWord (font : Font) (contentW indent : Int) (size curStyle : Nat) (curHref : String)
    (curFg : Nat) (pen : Flow × Int) (word : String) : Flow × Int :=
  if word = "" then pen
  else
    let wordW := font.measureText word size
    let lh := font.lineHeight size
    -- A line that already holds a word is broken; an empty one takes the word whatever its width.
    let wrap := pen.2 + wordW > margin + contentW ∧ pen.2 > margin + indent
    let x := if wrap then margin + indent else pen.2
    let y := if wrap then pen.1.y + lh else pen.1.y
    ({ blocks := pen.1.blocks ++ [⟨x, y, word, size, curStyle, curFg, curHref, wordW, lh⟩]
       links := if curHref = "" then pen.1.links else pen.1.links ++ [⟨x, y, wordW, lh, curHref⟩]
       y := y },
      x + wordW + font.measureText " " size)

/-- `process` of `layout_inline`: an element's own words, then its children, with styles and links inherited. -/
def inlineElement (font : Font) (contentW indent : Int) (size : Nat) :
    Element → Nat → String → Flow × Int → Flow × Int
  | ⟨tag, attrs, children, text⟩, curStyle, curHref, pen =>
    let s := tagStyle font tag curStyle
    let h := tagHref tag attrs curHref
    let fg := if tag = "a" then linkColor else if curHref = "" then black else linkColor
    let pen := if text = "" then pen
      else (pySplit text).foldl (inlineWord font contentW indent size s h fg) pen
    inlineChildren children s h pen
where
  /-- The children of one element, left to right. -/
  inlineChildren : List Element → Nat → String → Flow × Int → Flow × Int
    | [], _, _, pen => pen
    | child :: rest, s, h, pen => inlineChildren rest s h (inlineElement font contentW indent size child s h pen)

/-- `layout_inline`: the inline flow of a paragraph, ending one line below its last line. -/
def layoutInline (font : Font) (contentW : Int) (elem : Element) (flow : Flow) (indent : Int)
    (size style : Nat) (href : String) : Flow :=
  let pen := inlineElement font contentW indent size elem style href (flow, margin + indent)
  { pen.1 with y := pen.1.y + font.lineHeight size }

/-! ## Tables -/

/-- The `(tag, text)` of each `td` and `th` cell of a row. -/
def rowCells (row : Element) : List (String × String) :=
  row.children.filterMap fun cell =>
    if cell.tag = "td" ∨ cell.tag = "th" then some (cell.tag, getAllText cell) else none

/-- A `tr` element that holds at least one cell, as a row of the table. -/
def tableRow (row : Element) : List (List (String × String)) :=
  if row.tag = "tr" ∧ rowCells row ≠ [] then [rowCells row] else []

/-- The rows of `layout_table`: direct `tr` children and the `tr` children of `thead` and `tbody`. -/
def tableRows (table : Element) : List (List (String × String)) :=
  table.children.flatMap fun child =>
    if child.tag = "thead" ∨ child.tag = "tbody" then child.children.flatMap tableRow
    else if child.tag = "tr" then tableRow child else []

/-- One cell: its border marker and its text cut to the column's character budget. -/
def tableCell (font : Font) (size style : Nat) (colWidth rowHeight y : Int)
    (acc : List TextBlock × Int) (cell : String × String) : List TextBlock × Int :=
  let cellStyle := if cell.1 = "th" then style ||| font.bold else style
  let maxChars := colWidth.fdiv 8
  let display : String := if (cell.2.length : Int) > maxChars then ⟨sliceTo cell.2.data maxChars⟩ else cell.2
  (acc.1 ++ [⟨acc.2, y, "__CELL__", 0, 0, black, "", colWidth, rowHeight⟩,
      ⟨acc.2 + 4, y + 4, display, size, cellStyle, black, "", colWidth - 8, rowHeight - 8⟩],
    acc.2 + colWidth)

/-- One row of `layout_table`: its cells from the left edge, then the pen one row lower. -/
def tableRowStep (font : Font) (size style : Nat) (colWidth rowHeight left : Int) (acc : List TextBlock × Int)
    (row : List (String × String)) : List TextBlock × Int :=
  ((row.foldl (tableCell font size style colWidth rowHeight acc.2) (acc.1, left)).1, acc.2 + rowHeight)

/-- `layout_table`: rows of equal-width columns, one border and one text block per cell. -/
def layoutTable (font : Font) (contentW : Int) (table : Element) (flow : Flow) (indent : Int)
    (size style : Nat) : Flow :=
  let rows := tableRows table
  if rows = [] then flow
  else
    let numCols := (rows.map List.length).foldl max 0
    let colWidth := (contentW - indent - margin).fdiv numCols
    let rowHeight := font.lineHeight size + 8
    let placed := rows.foldl (tableRowStep font size style colWidth rowHeight (margin + indent))
      (flow.blocks, flow.y + 4)
    { flow with blocks := placed.1, y := placed.2 + 4 }

/-! ## Block elements -/

/-- The heading tags `h1` to `h6`. -/
def headingTags : List String :=
  ["h1", "h2", "h3", "h4", "h5", "h6"]

/-- A heading: half a line before, all descendant text in bold, a quarter line after. -/
def layoutHeading (font : Font) (contentW : Int) (elem : Element) (flow : Flow) (indent : Int)
    (size style : Nat) (href : String) : Flow :=
  let lh := font.lineHeight size
  let body := layoutText font contentW (getAllText elem) { flow with y := flow.y + lh.fdiv 2 } indent size
    (style ||| font.bold) black href
  { body with y := body.y + lh.fdiv 4 }

/-- A paragraph: a quarter line on each side of its inline flow. -/
def layoutParagraph (font : Font) (contentW : Int) (elem : Element) (flow : Flow) (indent : Int)
    (size style : Nat) (href : String) : Flow :=
  let lh := font.lineHeight size
  let body := layoutInline font contentW elem { flow with y := flow.y + lh.fdiv 4 } indent size style href
  { body with y := body.y + lh.fdiv 4 }

/-- A horizontal rule: a one-pixel marker block across the content width. -/
def layoutRule (contentW : Int) (flow : Flow) (indent : Int) : Flow :=
  { flow with
    blocks := flow.blocks ++ [⟨margin + indent, flow.y + 4, "__HR__", 0, 0, gray, "", contentW - indent, 1⟩]
    y := flow.y + 4 + 8 }

/-- A blockquote: a marker whose height is set once the indented italic text is laid out. -/
def layoutBlockquote (font : Font) (contentW : Int) (elem : Element) (flow : Flow) (indent : Int)
    (size style : Nat) (href : String) : Flow :=
  let marker : TextBlock := ⟨margin + indent, flow.y + 8, "__BQ_START__", 0, 0, gray, "", contentW - indent, 0⟩
  let start := flow.blocks.length
  let body := layoutText font contentW (getAllText elem)
    { flow with blocks := flow.blocks ++ [marker], y := flow.y + 8 } (indent + 20) size
    (style ||| font.italic) black href
  -- `blocks[start_idx].h = y - blocks[start_idx].y + 8`
  { body with blocks := body.blocks.set start { marker with h := body.y - marker.y + 8 }, y := body.y + 8 }

/-- Preformatted text: each non-empty line of the descendant text laid out at size 14. -/
def layoutPre (font : Font) (contentW : Int) (elem : Element) (flow : Flow) (indent : Int) : Flow :=
  let body := ((getAllText elem).data.splitOn '\n').foldl
    (fun flow line => if line = [] then flow else layoutText font contentW ⟨line⟩ flow indent 14 0 black "")
    { flow with y := flow.y + 4 }
  { body with y := body.y + 4 }

/-- The bullet block of a list item: `* ` in a `ul`, the item's number and a dot otherwise. -/
def bulletBlock (font : Font) (listTag : String) (listNum : Nat) (y indent : Int) (size style : Nat) : TextBlock :=
  let bullet := if listTag = "ul" then "* " else toString listNum ++ "."
  ⟨margin + indent + 20, y, bullet, size, style, black, "", font.measureText bullet size, font.lineHeight size⟩

/-- The end of a list item: its direct text after its children, and at least one line in all. -/
def itemTail (font : Font) (contentW : Int) (itemText : String) (top indent : Int) (size style : Nat)
    (flow : Flow) : Flow :=
  let flow := if itemText = "" then flow
    else layoutText font contentW itemText flow (indent + 40) size style black ""
  if flow.y = top then { flow with y := flow.y + font.lineHeight size } else flow

/-- The layouts `layout_element` chooses between. -/
inductive BlockKind where
  | heading
  | paragraph
  | lineBreak
  | rule
  | list
  | blockquote
  | pre
  | table
  /-- The default flow: the element's own text, then its children. -/
  | flow
  deriving DecidableEq, Repr

/-- The tag tests of `layout_element`, in the order the code makes them. -/
def blockKind (tag : String) : BlockKind :=
  if tag ∈ headingTags then .heading
  else if tag = "p" then .paragraph
  else if tag = "br" then .lineBreak
  else if tag = "hr" then .rule
  else if tag = "ul" ∨ tag = "ol" then .list
  else if tag = "blockquote" then .blockquote
  else if tag = "pre" ∨ tag = "code" then .pre
  else if tag = "table" then .table
  else .flow

/-- `layout_element`: dispatch on the tag, after the tag's size, style and link have been applied. -/
def layoutElement (font : Font) (contentW : Int) :
    Element → Flow → Int → Nat → Nat → String → Flow
  | ⟨tag, attrs, children, text⟩, flow, indent, size, style, href =>
    let elem : Element := ⟨tag, attrs, children, text⟩
    let size := tagSize tag size
    let style := tagStyle font tag style
    let href := tagHref tag attrs href
    match blockKind tag with
    | .heading => layoutHeading font contentW elem flow indent size style href
    | .paragraph => layoutParagraph font contentW elem flow indent size style href
    | .lineBreak => { flow with y := flow.y + font.lineHeight size }
    | .rule => layoutRule contentW flow indent
    | .list =>
      let items := layoutItems tag children { flow with y := flow.y + 4 } indent size style 1
      { items with y := items.y + 4 }
    | .blockquote => layoutBlockquote font contentW elem flow indent size style href
    | .pre => layoutPre font contentW elem flow indent
    | .table => layoutTable font contentW elem flow indent size style
    | .flow =>
      -- The element's own text, then its children.
      let flow := if text = "" then flow
        else layoutText font contentW text flow indent size style (if href = "" then black else linkColor) href
      layoutChildren children flow indent size style href
where
  /-- The children of the default flow, top to bottom. -/
  layoutChildren : List Element → Flow → Int → Nat → Nat → String → Flow
    | [], flow, _, _, _, _ => flow
    | child :: rest, flow, indent, size, style, href =>
      layoutChildren rest (layoutElement font contentW child flow indent size style href) indent size style href
  /-- The `li` children of a list: a bullet, the item's children and text, at least one line each. -/
  layoutItems (listTag : String) : List Element → Flow → Int → Nat → Nat → Nat → Flow
    | [], flow, _, _, _, _ => flow
    | ⟨itemTag, _, itemChildren, itemText⟩ :: rest, flow, indent, size, style, listNum =>
      if itemTag = "li" then
        let block := bulletBlock font listTag listNum flow.y indent size style
        let flow := layoutChildren itemChildren { flow with blocks := flow.blocks ++ [block] }
          (indent + 40) size style ""
        layoutItems listTag rest (itemTail font contentW itemText block.y indent size style flow) indent size style
          (listNum + 1)
      else layoutItems listTag rest flow indent size style listNum

/--
`Browser.layout_document`: the body (or the root) laid out from `y = MARGIN`, with the doubled height.

`find_element`, `layout_element` and `get_all_text` recurse once per nesting level of the tree, and the model counts
no stack for them: it is the code on trees nested less deeply than the interpreter's stack allows, where the code
raises `RecursionError` instead.
-/
def layoutDocument (font : Font) (contentW : Int) (root : Element) : List TextBlock × List Link × Int :=
  let body := (findElement "body" root).getD root
  let flow := layoutElement font contentW body ⟨[], [], margin⟩ 0 16 0 ""
  let maxBottom := flow.blocks.foldl (fun m b => if b.y + b.h > m then b.y + b.h else m) flow.y
  (flow.blocks, flow.links, (maxBottom + margin) * 2)

end Kivi
