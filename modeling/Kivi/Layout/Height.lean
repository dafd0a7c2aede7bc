import Kivi.Layout.Wrap

/-! The pen never moves up: with non-negative line heights every layout path ends at or below its start. -/

namespace Kivi

/-- A font whose line height is non-negative at every size, as ascent, descent and gap metrics give. -/
def Font.Upright (font : Font) : Prop :=
  ∀ size, 0 ≤ font.lineHeight size

/-- The fixed-pitch font has lines of sixteen pixels. -/
theorem fixed_upright : Font.fixed.Upright :=
  fun _ => show (0 : Int) ≤ 16 by decide

section Layout

variable {font : Font}

/-! ## Text -/

/-- A line moves the pen down by the line height. -/
theorem textLine_y_le (upright : font.Upright) (x : Int) (size style fg : Nat) (href : String) (flow : Flow)
    (lineWords : List String) :
    flow.y ≤ (textLine font x size style fg href flow lineWords).y :=
  Int.le_add_of_nonneg_right (upright size)

/-- `layout_text` ends at or below where it starts. -/
theorem layoutText_y_le (upright : font.Upright) (contentW : Int) (text : String) (flow : Flow) (indent : Int)
    (size style fg : Nat) (href : String) :
    flow.y ≤ (layoutText font contentW text flow indent size style fg href).y := by
  -- It is a sequence of lines.
  obtain ⟨lines, -, laid⟩ := layoutText_lines font contentW size style fg href text flow indent
  rw [laid]
  exact List.foldlRecOn (motive := fun f => flow.y ≤ f.y) lines (textLine font (margin + indent) size style fg href)
    flow le_rfl fun f below line _ => below.trans (textLine_y_le upright _ size style fg href f line)

/-! ## Inline flow -/

/-- A placed word stays on the line or wraps below it. -/
theorem inlineWord_y_le (upright : font.Upright) (contentW : Int) (indent : Int) (size curStyle : Nat)
    (curHref : String) (curFg : Nat) (pen : Flow × Int) (word : String) :
    pen.1.y ≤ (inlineWord font contentW indent size curStyle curHref curFg pen word).1.y := by
  -- The pen moves by a line exactly when the word wraps.
  unfold inlineWord
  split
  · exact le_rfl
  · dsimp only
    split
    · exact Int.le_add_of_nonneg_right (upright size)
    · exact le_rfl

mutual

/-- `process` ends at or below where it starts. -/
theorem inlineElement_y_le (upright : font.Upright) (contentW : Int) (indent : Int) (size : Nat) :
    ∀ (elem : Element) (curStyle : Nat) (curHref : String) (pen : Flow × Int),
      pen.1.y ≤ (inlineElement font contentW indent size elem curStyle curHref pen).1.y
  | ⟨tag, attrs, children, text⟩, curStyle, curHref, pen => by
    -- The element's own words, then its children.
    rw [inlineElement]
    refine le_trans ?_ (inlineChildren_y_le upright contentW indent size children _ _ _)
    split
    · exact le_rfl
    · exact List.foldlRecOn (motive := fun p => pen.1.y ≤ p.1.y) _ _ pen le_rfl fun p below word _ =>
        below.trans (inlineWord_y_le upright contentW indent size _ _ _ p word)

/-- The children of an element, left to right. -/
theorem inlineChildren_y_le (upright : font.Upright) (contentW : Int) (indent : Int) (size : Nat) :
    ∀ (children : List Element) (curStyle : Nat) (curHref : String) (pen : Flow × Int),
      pen.1.y ≤ (inlineElement.inlineChildren font contentW indent size children curStyle curHref pen).1.y
  | [], _, _, _ => le_rfl
  | child :: rest, curStyle, curHref, pen =>
    (inlineElement_y_le upright contentW indent size child curStyle curHref pen).trans
      (inlineChildren_y_le upright contentW indent size rest curStyle curHref _)

end

/-! ## Block elements -/

/-- The rows of a table move the pen down by a row height each. -/
theorem foldl_tableRowStep_y_le (upright : font.Upright) (size style : Nat) (colWidth left : Int)
    (rows : List (List (String × String))) (acc : List TextBlock × Int) :
    acc.2 ≤ (rows.foldl (tableRowStep font size style colWidth (font.lineHeight size + 8) left) acc).2 :=
  List.foldlRecOn (motive := fun placed => acc.2 ≤ placed.2) rows _ acc le_rfl fun placed below _ _ => by
    have line := upright size
    dsimp only [tableRowStep] at below ⊢
    omega

/-- A table ends below its rows. -/
theorem layoutTable_y_le (upright : font.Upright) (contentW : Int) (table : Element) (flow : Flow) (indent : Int)
    (size style : Nat) :
    flow.y ≤ (layoutTable font contentW table flow indent size style).y := by
  unfold layoutTable
  dsimp only
  split
  · exact le_rfl
  · have rows := foldl_tableRowStep_y_le upright size style
      ((contentW - indent - margin).fdiv (((tableRows table).map List.length).foldl max 0 : Nat)) (margin + indent)
      (tableRows table) (flow.blocks, flow.y + 4)
    dsimp only at rows ⊢
    omega

/-- A heading ends below its text. -/
theorem layoutHeading_y_le (upright : font.Upright) (contentW : Int) (elem : Element) (flow : Flow) (indent : Int)
    (size style : Nat) (href : String) :
    flow.y ≤ (layoutHeading font contentW elem flow indent size style href).y := by
  -- Half a line, the text, then a quarter line.
  have half := Int.fdiv_nonneg (upright size) (by decide : (0 : Int) ≤ 2)
  have quarter := Int.fdiv_nonneg (upright size) (by decide : (0 : Int) ≤ 4)
  have text := layoutText_y_le upright contentW (getAllText elem)
    { flow with y := flow.y + (font.lineHeight size).fdiv 2 } indent size (style ||| font.bold) black href
  dsimp only [layoutHeading] at text ⊢
  omega

/-- A paragraph ends below its inline flow. -/
theorem layoutParagraph_y_le (upright : font.Upright) (contentW : Int) (elem : Element) (flow : Flow) (indent : Int)
    (size style : Nat) (href : String) :
    flow.y ≤ (layoutParagraph font contentW elem flow indent size style href).y := by
  -- A quarter line, the inline flow and its last line, then a quarter line.
  have quarter := Int.fdiv_nonneg (upright size) (by decide : (0 : Int) ≤ 4)
  have inline := inlineElement_y_le upright contentW indent size elem style href
    ({ flow with y := flow.y + (font.lineHeight size).fdiv 4 }, margin + indent)
  have last := upright size
  dsimp only [layoutParagraph, layoutInline] at inline ⊢
  omega

/-- A blockquote ends below its text. -/
theorem layoutBlockquote_y_le (upright : font.Upright) (contentW : Int) (elem : Element) (flow : Flow)
    (indent : Int) (size style : Nat) (href : String) :
    flow.y ≤ (layoutBlockquote font contentW elem flow indent size style href).y := by
  have text := layoutText_y_le upright contentW (getAllText elem)
    { flow with
      blocks := flow.blocks ++ [⟨margin + indent, flow.y + 8, "__BQ_START__", 0, 0, gray, "", contentW - indent, 0⟩]
      y := flow.y + 8 } (indent + 20) size (style ||| font.italic) black href
  dsimp only [layoutBlockquote] at text ⊢
  omega

/-- Preformatted text ends below its lines. -/
theorem layoutPre_y_le (upright : font.Upright) (contentW : Int) (elem : Element) (flow : Flow) (indent : Int) :
    flow.y ≤ (layoutPre font contentW elem flow indent).y := by
  have lines := List.foldlRecOn (motive := fun f => flow.y + 4 ≤ f.y) ((getAllText elem).data.splitOn '\n')
    (fun flow line => if line = [] then flow else layoutText font contentW ⟨line⟩ flow indent 14 0 black "")
    { flow with y := flow.y + 4 } le_rfl fun f below line _ => by
      -- A blank line is skipped; any other is laid out as text.
      dsimp only
      split
      · exact below
      · exact below.trans (layoutText_y_le upright contentW _ f indent 14 0 black "")
  dsimp only [layoutPre] at lines ⊢
  omega

/-- The end of a list item is at or below the item's children. -/
theorem itemTail_y_le (upright : font.Upright) (contentW : Int) (itemText : String) (top indent : Int)
    (size style : Nat) (flow : Flow) :
    flow.y ≤ (itemTail font contentW itemText top indent size style flow).y := by
  have text : flow.y ≤ (if itemText = "" then flow
      else layoutText font contentW itemText flow (indent + 40) size style black "").y := by
    split
    · exact le_rfl
    · exact layoutText_y_le upright contentW _ flow _ _ _ _ _
  unfold itemTail
  generalize (if itemText = "" then flow
    else layoutText font contentW itemText flow (indent + 40) size style black "") = laid at text ⊢
  dsimp only
  split
  · exact text.trans (Int.le_add_of_nonneg_right (upright size))
  · exact text

/-! ## Elements -/

mutual

/-- `layout_element` ends at or below where it starts, on every path. -/
theorem layoutElement_y_le (upright : font.Upright) (contentW : Int) :
    ∀ (elem : Element) (flow : Flow) (indent : Int) (size style : Nat) (href : String),
      flow.y ≤ (layoutElement font contentW elem flow indent size style href).y
  | ⟨tag, attrs, children, text⟩, flow, indent, size, style, href => by
    rw [layoutElement]
    cases blockKind tag
    · exact layoutHeading_y_le upright contentW _ flow indent _ _ _
    · exact layoutParagraph_y_le upright contentW _ flow indent _ _ _
    · exact Int.le_add_of_nonneg_right (upright _)
    · show flow.y ≤ flow.y + 4 + 8
      omega
    · -- The list's items between two four-pixel gaps.
      have items := layoutItems_y_le upright contentW tag children { flow with y := flow.y + 4 } indent (tagSize tag size)
        (tagStyle font tag style) 1
      dsimp only at items ⊢
      omega
    · exact layoutBlockquote_y_le upright contentW _ flow indent _ _ _
    · exact layoutPre_y_le upright contentW _ flow indent
    · exact layoutTable_y_le upright contentW _ flow indent _ _
    · -- The default flow: the element's own text, then its children.
      dsimp only
      split
      · exact layoutChildren_y_le upright contentW children flow indent _ _ _
      · exact (layoutText_y_le upright contentW _ flow _ _ _ _ _).trans (layoutChildren_y_le upright contentW children _ indent _ _ _)

/-- The children of the default flow, top to bottom. -/
theorem layoutChildren_y_le (upright : font.Upright) (contentW : Int) :
    ∀ (children : List Element) (flow : Flow) (indent : Int) (size style : Nat) (href : String),
      flow.y ≤ (layoutElement.layoutChildren font contentW children flow indent size style href).y
  | [], _, _, _, _, _ => le_rfl
  | child :: rest, flow, indent, size, style, href =>
    (layoutElement_y_le upright contentW child flow indent size style href).trans
      (layoutChildren_y_le upright contentW rest _ indent size style href)

/-- The items of a list, top to bottom. -/
theorem layoutItems_y_le (upright : font.Upright) (contentW : Int) (listTag : String) :
    ∀ (items : List Element) (flow : Flow) (indent : Int) (size style listNum : Nat),
      flow.y ≤ (layoutElement.layoutItems font contentW listTag items flow indent size style listNum).y
  | [], _, _, _, _, _ => le_rfl
  | ⟨itemTag, attrs, itemChildren, itemText⟩ :: rest, flow, indent, size, style, listNum => by
    rw [layoutElement.layoutItems]
    split
    · -- The bullet leaves the pen where it is; the children and the item's end move it down.
      dsimp only
      exact ((layoutChildren_y_le upright contentW itemChildren
        { flow with blocks := flow.blocks ++ [bulletBlock font listTag listNum flow.y indent size style] }
        (indent + 40) size style "").trans
        (itemTail_y_le upright contentW itemText _ indent size style _)).trans
        (layoutItems_y_le upright contentW listTag rest _ indent size style _)
    · exact layoutItems_y_le upright contentW listTag rest flow indent size style listNum

end

/-- A laid-out document is at least twice two margins high: the pen starts at the margin and never rises. -/
theorem layoutDocument_height_ge (upright : font.Upright) (contentW : Int) (root : Element) :
    40 ≤ (layoutDocument font contentW root).2.2 := by
  have pen := layoutElement_y_le upright contentW ((findElement "body" root).getD root) ⟨[], [], margin⟩ 0 16 0 ""
  dsimp only [layoutDocument] at pen ⊢
  generalize layoutElement font contentW ((findElement "body" root).getD root) ⟨[], [], margin⟩ 0 16 0 "" = flow
    at pen ⊢
  -- The lowest block bottom is at least the final pen position.
  have bottom := List.foldlRecOn (motive := fun (m : Int) => flow.y ≤ m) flow.blocks
    (fun m (b : TextBlock) => if b.y + b.h > m then b.y + b.h else m) flow.y le_rfl fun m below b _ => by
      dsimp only at below ⊢
      split <;> omega
  simp only [margin] at pen ⊢
  omega

/-- The lowest bottom `layout_document` keeps is at least where it starts and at least every block's bottom. -/
theorem foldl_bottom_ge (blocks : List TextBlock) (m : Int) :
    m ≤ blocks.foldl (fun m b => if b.y + b.h > m then b.y + b.h else m) m ∧
      ∀ b ∈ blocks, b.y + b.h ≤ blocks.foldl (fun m b => if b.y + b.h > m then b.y + b.h else m) m := by
  induction blocks generalizing m with
  | nil => exact ⟨le_rfl, nofun⟩
  | cons b rest ih =>
    obtain ⟨start, later⟩ := ih (if b.y + b.h > m then b.y + b.h else m)
    rw [List.foldl_cons]
    refine ⟨le_trans (by split <;> omega) start, fun c member => ?_⟩
    rcases List.mem_cons.mp member with rfl | inner
    · exact le_trans (by split <;> omega) start
    · exact later c inner

/-- Every block a document lays out ends above the document's height. -/
theorem layoutDocument_bottom_le (upright : font.Upright) (contentW : Int) (root : Element) :
    ∀ b ∈ (layoutDocument font contentW root).1, b.y + b.h ≤ (layoutDocument font contentW root).2.2 := by
  have pen := layoutElement_y_le upright contentW ((findElement "body" root).getD root) ⟨[], [], margin⟩ 0 16 0 ""
  dsimp only [layoutDocument] at pen ⊢
  generalize layoutElement font contentW ((findElement "body" root).getD root) ⟨[], [], margin⟩ 0 16 0 "" = flow
    at pen ⊢
  -- The height doubles the lowest bottom and a margin, and the lowest bottom is below the first margin.
  obtain ⟨start, each⟩ := foldl_bottom_ge flow.blocks flow.y
  intro b member
  have := each b member
  simp only [margin] at pen ⊢
  omega

end Layout

end Kivi
