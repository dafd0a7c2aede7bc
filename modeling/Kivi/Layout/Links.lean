import Kivi.Layout.Wrap

/-! Link regions: every layout path records one region per linked block, with that block's own box. -/

namespace Kivi

/-- The link region of a block: its box and its target, when it carries a link. -/
def linkOf (b : TextBlock) : Option Link :=
  if b.href = "" then none else some ⟨b.x, b.y, b.w, b.h, b.href⟩

/-- A block without a link has no region. -/
@[simp] theorem linkOf_plain {b : TextBlock} (plain : b.href = "") : linkOf b = none := by
  simp [linkOf, plain]

/-- A block with a link has its own box as its region. -/
theorem linkOf_linked {b : TextBlock} (linked : b.href ≠ "") : linkOf b = some ⟨b.x, b.y, b.w, b.h, b.href⟩ :=
  if_neg linked

namespace Flow

/-- The link regions of a flow are those of its blocks, in block order. -/
def Linked (flow : Flow) : Prop :=
  flow.links = flow.blocks.filterMap linkOf

/-- Moving the pen keeps the regions. -/
@[simp] theorem linked_with_y {flow : Flow} (y : Int) : Linked { flow with y := y } ↔ flow.Linked :=
  Iff.rfl

/-- Appending blocks without links keeps the regions. -/
theorem linked_append_plain {flow : Flow} (linked : flow.Linked) (more : List TextBlock)
    (plain : ∀ b ∈ more, b.href = "") : Linked { flow with blocks := flow.blocks ++ more } := by
  -- None of the new blocks has a region.
  have none : more.filterMap linkOf = [] :=
    List.filterMap_eq_nil_iff.mpr fun b mem => linkOf_plain (plain b mem)
  simp only [Linked, List.filterMap_append, none, List.append_nil]
  exact linked

end Flow

open Flow

section Layout

variable (font : Font) (contentW : Int)

/-! ## Text lines -/

/-- One line of `layout_text` records the region of its block, with the block's box. -/
theorem textLine_linked (x : Int) (size style fg : Nat) (href : String) {flow : Flow}
    (linked : flow.Linked) (lineWords : List String) :
    (textLine font x size style fg href flow lineWords).Linked := by
  -- The region is added exactly when the block has a link.
  by_cases plain : href = "" <;> simp [Linked, textLine, textLineBy, linkOf, plain, linked.symm]

/-- `layout_text` keeps a flow's regions those of its blocks. -/
theorem layoutText_linked {flow : Flow} (linked : flow.Linked) (text : String) (indent : Int)
    (size style fg : Nat) (href : String) :
    (layoutText font contentW text flow indent size style fg href).Linked := by
  -- It is a sequence of lines.
  obtain ⟨lines, -, laid⟩ := layoutText_lines font contentW size style fg href text flow indent
  rw [laid]
  exact List.foldlRecOn (motive := Linked) lines (textLine font (margin + indent) size style fg href) flow linked
    fun _ before line _ => textLine_linked font _ size style fg href before line

/-- `layout_text` only appends blocks. -/
theorem layoutText_blocks_prefix (flow : Flow) (text : String) (indent : Int) (size style fg : Nat)
    (href : String) : flow.blocks <+: (layoutText font contentW text flow indent size style fg href).blocks := by
  -- It is a sequence of lines.
  obtain ⟨lines, -, laid⟩ := layoutText_lines font contentW size style fg href text flow indent
  rw [laid]
  exact List.foldlRecOn (motive := fun f => flow.blocks <+: f.blocks) lines
    (textLine font (margin + indent) size style fg href) flow (List.prefix_refl _)
    fun _ before _ _ => before.trans (List.prefix_append _ _)

/-! ## Inline flow -/

/-- A placed word records its region with the word's box. -/
theorem inlineWord_linked (indent : Int) (size curStyle : Nat) (curHref : String) (curFg : Nat)
    {pen : Flow × Int} (linked : pen.1.Linked) (word : String) :
    (inlineWord font contentW indent size curStyle curHref curFg pen word).1.Linked := by
  -- An empty word places nothing; otherwise the block and its region share one box.
  unfold inlineWord
  split
  · exact linked
  · by_cases plain : curHref = "" <;> simp [Linked, linkOf, plain, linked.symm]

mutual

/-- `process` keeps the regions of every word it places, in the element and below it. -/
theorem inlineElement_linked (indent : Int) (size : Nat) :
    ∀ (elem : Element) (curStyle : Nat) (curHref : String) (pen : Flow × Int), pen.1.Linked →
      (inlineElement font contentW indent size elem curStyle curHref pen).1.Linked
  | ⟨tag, attrs, children, text⟩, curStyle, curHref, pen, linked => by
    -- The element's own words, then its children.
    rw [inlineElement]
    refine inlineChildren_linked indent size children _ _ _ ?_
    split
    · exact linked
    · exact List.foldlRecOn (motive := fun pen => pen.1.Linked) _ _ pen linked fun _ before word _ =>
        inlineWord_linked font contentW indent size _ _ _ before word

/-- The children of an element, left to right. -/
theorem inlineChildren_linked (indent : Int) (size : Nat) :
    ∀ (children : List Element) (curStyle : Nat) (curHref : String) (pen : Flow × Int), pen.1.Linked →
      (inlineElement.inlineChildren font contentW indent size children curStyle curHref pen).1.Linked
  | [], _, _, _, linked => linked
  | child :: rest, curStyle, curHref, pen, linked =>
    inlineChildren_linked indent size rest curStyle curHref _
      (inlineElement_linked indent size child curStyle curHref pen linked)

end

/-- `layout_inline` keeps the regions. -/
theorem layoutInline_linked (elem : Element) {flow : Flow} (linked : flow.Linked) (indent : Int)
    (size style : Nat) (href : String) : (layoutInline font contentW elem flow indent size style href).Linked :=
  inlineElement_linked font contentW indent size elem style href (flow, margin + indent) linked

/-! ## Tables and block elements -/

/-- A table cell adds a border and a text block, neither of which links. -/
theorem tableCell_regions (size style : Nat) (colWidth rowHeight y : Int) (acc : List TextBlock × Int)
    (cell : String × String) :
    (tableCell font size style colWidth rowHeight y acc cell).1.filterMap linkOf = acc.1.filterMap linkOf := by
  simp [tableCell]

/-- A row of cells adds no region. -/
theorem foldl_tableCell_regions (size style : Nat) (colWidth rowHeight y : Int) (row : List (String × String))
    (acc : List TextBlock × Int) :
    (row.foldl (tableCell font size style colWidth rowHeight y) acc).1.filterMap linkOf = acc.1.filterMap linkOf :=
  List.foldlRecOn (motive := fun cells => cells.1.filterMap linkOf = acc.1.filterMap linkOf) row _ acc rfl
    fun cells kept cell _ => (tableCell_regions font size style _ _ _ cells cell).trans kept

/-- `layout_table` adds no region and no linked block. -/
theorem layoutTable_linked (table : Element) {flow : Flow} (linked : flow.Linked) (indent : Int)
    (size style : Nat) : (layoutTable font contentW table flow indent size style).Linked := by
  unfold layoutTable
  dsimp only
  split
  · exact linked
  · -- Every row leaves the regions of the blocks as they were.
    exact linked.trans (List.foldlRecOn (motive := fun acc => flow.blocks.filterMap linkOf = acc.1.filterMap linkOf)
      _ (tableRowStep font size style _ _ _) _ rfl fun acc before row _ =>
        before.trans (foldl_tableCell_regions font size style _ _ _ row (acc.1, margin + indent)).symm)

/-- A heading keeps the regions. -/
theorem layoutHeading_linked (elem : Element) {flow : Flow} (linked : flow.Linked) (indent : Int)
    (size style : Nat) (href : String) : (layoutHeading font contentW elem flow indent size style href).Linked := by
  -- Only the pen moves around the heading's text.
  dsimp only [layoutHeading]
  apply layoutText_linked
  exact linked

/-- A paragraph keeps the regions. -/
theorem layoutParagraph_linked (elem : Element) {flow : Flow} (linked : flow.Linked) (indent : Int)
    (size style : Nat) (href : String) :
    (layoutParagraph font contentW elem flow indent size style href).Linked := by
  -- Only the pen moves around the paragraph's inline flow.
  dsimp only [layoutParagraph]
  apply layoutInline_linked
  exact linked

/-- A rule adds one block, which does not link. -/
theorem layoutRule_linked {flow : Flow} (linked : flow.Linked) (indent : Int) :
    (layoutRule contentW flow indent).Linked := by
  simp [Linked, layoutRule, linked.symm]

/-- A blockquote's marker, set to its final height, still does not link. -/
theorem layoutBlockquote_linked (elem : Element) {flow : Flow} (linked : flow.Linked) (indent : Int)
    (size style : Nat) (href : String) :
    (layoutBlockquote font contentW elem flow indent size style href).Linked := by
  unfold layoutBlockquote
  dsimp only
  -- The text is laid out after the marker, which stays at its index.
  generalize markerAt : (⟨margin + indent, flow.y + 8, "__BQ_START__", 0, 0, gray, "", contentW - indent, 0⟩ :
    TextBlock) = marker
  have start : Linked { flow with blocks := flow.blocks ++ [marker], y := flow.y + 8 } :=
    linked_append_plain linked [marker] (by simp [← markerAt])
  obtain ⟨more, grown⟩ := layoutText_blocks_prefix font contentW
    { flow with
      blocks := flow.blocks ++ [marker]
      y := flow.y + 8 } (getAllText elem) (indent + 20) size (style ||| font.italic) black href
  have body := layoutText_linked font contentW start (getAllText elem) (indent + 20) size
    (style ||| font.italic) black href
  unfold Linked at body ⊢
  dsimp only at grown ⊢
  rw [body, ← grown]
  simp [List.set_append_right, ← markerAt]

/-- Preformatted text keeps the regions. -/
theorem layoutPre_linked (elem : Element) {flow : Flow} (linked : flow.Linked) (indent : Int) :
    (layoutPre font contentW elem flow indent).Linked :=
  List.foldlRecOn (motive := Linked) _ _ _ linked fun _ before line _ => by
    -- A blank line is skipped; any other is laid out as text.
    split
    · exact before
    · exact layoutText_linked font contentW before _ indent 14 0 black ""

/-- The end of a list item keeps the regions. -/
theorem itemTail_linked (itemText : String) (top indent : Int) (size style : Nat) {flow : Flow}
    (linked : flow.Linked) : (itemTail font contentW itemText top indent size style flow).Linked := by
  -- The item's text, if any, then possibly one more line.
  have text : Linked (if itemText = "" then flow
      else layoutText font contentW itemText flow (indent + 40) size style black "") := by
    split
    · exact linked
    · exact layoutText_linked font contentW linked _ _ _ _ _ _
  unfold itemTail
  generalize (if itemText = "" then flow
    else layoutText font contentW itemText flow (indent + 40) size style black "") = laid at text ⊢
  dsimp only
  split <;> exact text

/-! ## Elements -/

mutual

/-- `layout_element` keeps a flow's regions those of its blocks, on every path. -/
theorem layoutElement_linked :
    ∀ (elem : Element) {flow : Flow} (indent : Int) (size style : Nat) (href : String), flow.Linked →
      (layoutElement font contentW elem flow indent size style href).Linked
  | ⟨tag, attrs, children, text⟩, flow, indent, size, style, href, linked => by
    rw [layoutElement]
    cases blockKind tag
    · exact layoutHeading_linked font contentW _ linked indent _ _ _
    · exact layoutParagraph_linked font contentW _ linked indent _ _ _
    · exact linked
    · exact layoutRule_linked contentW linked indent
    · exact layoutItems_linked tag children indent _ _ 1 linked
    · exact layoutBlockquote_linked font contentW _ linked indent _ _ _
    · exact layoutPre_linked font contentW _ linked indent
    · exact layoutTable_linked font contentW _ linked indent _ _
    · -- The default flow: the element's own text, then its children.
      dsimp only
      split
      · exact layoutChildren_linked children indent _ _ _ linked
      · exact layoutChildren_linked children indent _ _ _ (layoutText_linked font contentW linked _ _ _ _ _ _)

/-- The children of the default flow, top to bottom. -/
theorem layoutChildren_linked :
    ∀ (children : List Element) {flow : Flow} (indent : Int) (size style : Nat) (href : String), flow.Linked →
      (layoutElement.layoutChildren font contentW children flow indent size style href).Linked
  | [], _, _, _, _, _, linked => linked
  | child :: rest, _, indent, size, style, href, linked =>
    layoutChildren_linked rest indent size style href (layoutElement_linked child indent size style href linked)

/-- The items of a list: a bullet that does not link, then the item's children and text. -/
theorem layoutItems_linked (listTag : String) :
    ∀ (items : List Element) {flow : Flow} (indent : Int) (size style listNum : Nat), flow.Linked →
      (layoutElement.layoutItems font contentW listTag items flow indent size style listNum).Linked
  | [], _, _, _, _, _, linked => linked
  | ⟨itemTag, attrs, itemChildren, itemText⟩ :: rest, flow, indent, size, style, listNum, linked => by
    rw [layoutElement.layoutItems]
    split
    · exact layoutItems_linked listTag rest indent size style _ (itemTail_linked font contentW itemText _ indent
        size style (layoutChildren_linked itemChildren (indent + 40) size style ""
          (linked_append_plain linked _ (by simp [bulletBlock]))))
    · exact layoutItems_linked listTag rest indent size style listNum linked

end

/-- The link regions `layout_document` returns are exactly the boxes of its linked blocks, in order. -/
theorem layoutDocument_links (root : Element) :
    (layoutDocument font contentW root).2.1 = (layoutDocument font contentW root).1.filterMap linkOf :=
  layoutElement_linked font contentW _ 0 16 0 "" (rfl : Linked ⟨[], [], margin⟩)

end Layout

end Kivi
