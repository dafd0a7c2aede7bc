import Kivi.Layout.Height

/-! Where `layout_element` puts its blocks: between its start and its end, each ending by the end unless it is a bullet. -/

namespace Kivi

section Bounds

/-- A list item's bullet block, on whatever line it was placed. -/
def IsBullet (font : Font) (b : TextBlock) : Prop :=
  ∃ listTag listNum indent size style, b = bulletBlock font listTag listNum b.y indent size style

/--
A flow that continues `f`: its pen no higher, and every block it appends placed between the two pens and
ending by the second pen lowered by `below`, unless it is a bullet.
-/
def Extends (font : Font) (below : Int) (f g : Flow) : Prop :=
  f.y ≤ g.y ∧ ∃ added, g.blocks = f.blocks ++ added ∧
    ∀ b ∈ added, f.y ≤ b.y ∧ b.y ≤ g.y ∧ (b.y + b.h ≤ g.y + below ∨ IsBullet font b)

variable {font : Font} {below : Int}

/-- A flow continues itself. -/
theorem Extends.refl (f : Flow) : Extends font below f f :=
  ⟨le_rfl, [], by simp, nofun⟩

/-- A continuation of a continuation continues the first flow. -/
theorem Extends.trans {f g h : Flow} (first : Extends font below f g) (second : Extends font below g h) :
    Extends font below f h := by
  obtain ⟨down, added, blocks, within⟩ := first
  obtain ⟨down', added', blocks', within'⟩ := second
  refine ⟨down.trans down', added ++ added', by rw [blocks', blocks, List.append_assoc], ?_⟩
  simp only [List.mem_append]
  rintro b (old | new)
  · obtain ⟨top, bottom, ends⟩ := within b old
    exact ⟨top, bottom.trans down', ends.imp_left fun ended => by omega⟩
  · obtain ⟨top, bottom, ends⟩ := within' b new
    exact ⟨down.trans top, bottom, ends⟩

/-- Lowering the pen by a gap that covers `below` leaves every block ending by the pen. -/
theorem Extends.lower {gap : Int} {f g : Flow} (laid : Extends font below f g) (nonneg : 0 ≤ gap)
    (covers : below ≤ gap) :
    Extends font 0 f { g with y := g.y + gap } := by
  obtain ⟨down, added, blocks, within⟩ := laid
  refine ⟨by dsimp only; omega, added, blocks, fun b member => ?_⟩
  obtain ⟨top, bottom, ends⟩ := within b member
  exact ⟨top, by dsimp only; omega, ends.imp_left fun ended => by dsimp only; omega⟩

/-- A gap before a layout appends nothing. -/
theorem Extends.skip {gap : Int} (f : Flow) (nonneg : 0 ≤ gap) : Extends font 0 f { f with y := f.y + gap } :=
  (Extends.refl f).lower nonneg le_rfl

/-! ## Text -/

/-- A line of text is one block on the pen's line, as high as the pen moves. -/
theorem textLine_extends (upright : font.Upright) (x : Int) (size style fg : Nat) (href : String) (flow : Flow)
    (lineWords : List String) :
    Extends font 0 flow (textLine font x size style fg href flow lineWords) := by
  have high := upright size
  refine ⟨by dsimp only [textLine, textLineBy]; omega, _, rfl, ?_⟩
  simp only [List.mem_singleton]
  rintro _ rfl
  exact ⟨le_rfl, by dsimp only [textLine, textLineBy]; omega, .inl (by dsimp only [textLine, textLineBy]; omega)⟩

/-- `layout_text` is a sequence of lines. -/
theorem layoutText_extends (upright : font.Upright) (contentW : Int) (text : String) (flow : Flow) (indent : Int)
    (size style fg : Nat) (href : String) :
    Extends font 0 flow (layoutText font contentW text flow indent size style fg href) := by
  obtain ⟨lines, -, laid⟩ := layoutText_lines font contentW size style fg href text flow indent
  rw [laid]
  exact List.foldlRecOn (motive := fun f => Extends font 0 flow f) lines _ flow (.refl flow)
    fun f before line _ => before.trans (textLine_extends upright _ size style fg href f line)

/-! ## Inline flow -/

/-- A placed word stands on the pen's line, one line high. -/
theorem inlineWord_extends (upright : font.Upright) (contentW indent : Int) (size curStyle : Nat) (curHref : String)
    (curFg : Nat) (pen : Flow × Int) (word : String) :
    Extends font (font.lineHeight size) pen.1 (inlineWord font contentW indent size curStyle curHref curFg pen word).1 := by
  have high := upright size
  unfold inlineWord
  split
  · exact .refl _
  · refine ⟨?_, _, rfl, ?_⟩
    · dsimp only
      split <;> omega
    · simp only [List.mem_singleton]
      rintro _ rfl
      dsimp only
      split <;> exact ⟨by omega, le_rfl, .inl le_rfl⟩

mutual

/-- `process` places its words, then its children's, each on the pen's line. -/
theorem inlineElement_extends (upright : font.Upright) (contentW indent : Int) (size : Nat) :
    ∀ (elem : Element) (curStyle : Nat) (curHref : String) (pen : Flow × Int),
      Extends font (font.lineHeight size) pen.1 (inlineElement font contentW indent size elem curStyle curHref pen).1
  | ⟨tag, attrs, children, text⟩, curStyle, curHref, pen => by
    rw [inlineElement]
    refine Extends.trans ?_ (inlineChildren_extends upright contentW indent size children _ _ _)
    split
    · exact .refl _
    · exact List.foldlRecOn (motive := fun p => Extends font (font.lineHeight size) pen.1 p.1) _ _ pen (.refl _)
        fun p before word _ => before.trans (inlineWord_extends upright contentW indent size _ _ _ p word)

/-- The children of an element, left to right. -/
theorem inlineChildren_extends (upright : font.Upright) (contentW indent : Int) (size : Nat) :
    ∀ (children : List Element) (curStyle : Nat) (curHref : String) (pen : Flow × Int),
      Extends font (font.lineHeight size) pen.1
        (inlineElement.inlineChildren font contentW indent size children curStyle curHref pen).1
  | [], _, _, _ => .refl _
  | child :: rest, curStyle, curHref, pen =>
    (inlineElement_extends upright contentW indent size child curStyle curHref pen).trans
      (inlineChildren_extends upright contentW indent size rest curStyle curHref _)

end

/-- `layout_inline` ends a line below its last line, so every word ends by its end. -/
theorem layoutInline_extends (upright : font.Upright) (contentW : Int) (elem : Element) (flow : Flow) (indent : Int)
    (size style : Nat) (href : String) :
    Extends font 0 flow (layoutInline font contentW elem flow indent size style href) :=
  (inlineElement_extends upright contentW indent size elem style href (flow, margin + indent)).lower (upright size) le_rfl

/-! ## Block elements -/

/-- A heading: half a line, its text, a quarter line. -/
theorem layoutHeading_extends (upright : font.Upright) (contentW : Int) (elem : Element) (flow : Flow) (indent : Int)
    (size style : Nat) (href : String) : Extends font 0 flow (layoutHeading font contentW elem flow indent size style href) :=
  have quarter := Int.fdiv_nonneg (upright size) (by decide : (0 : Int) ≤ 4)
  ((Extends.skip flow (Int.fdiv_nonneg (upright size) (by decide))).trans
    (layoutText_extends upright contentW _ _ indent size _ _ href)).lower quarter quarter

/-- A paragraph: a quarter line, its inline flow, a quarter line. -/
theorem layoutParagraph_extends (upright : font.Upright) (contentW : Int) (elem : Element) (flow : Flow) (indent : Int)
    (size style : Nat) (href : String) :
    Extends font 0 flow (layoutParagraph font contentW elem flow indent size style href) :=
  have quarter := Int.fdiv_nonneg (upright size) (by decide : (0 : Int) ≤ 4)
  ((Extends.skip flow quarter).trans (layoutInline_extends upright contentW elem _ indent size style href)).lower
    quarter quarter

/-- A rule is one pixel high, four pixels below the pen, which moves twelve. -/
theorem layoutRule_extends (contentW : Int) (flow : Flow) (indent : Int) :
    Extends font 0 flow (layoutRule contentW flow indent) := by
  refine ⟨by dsimp only [layoutRule]; omega, _, rfl, ?_⟩
  simp only [List.mem_singleton]
  rintro _ rfl
  exact ⟨by dsimp only; omega, by dsimp only [layoutRule]; omega, .inl (by dsimp only [layoutRule]; omega)⟩

/-- A blockquote's marker reaches from eight pixels below the pen to its end, around the quoted text. -/
theorem layoutBlockquote_extends (upright : font.Upright) (contentW : Int) (elem : Element) (flow : Flow)
    (indent : Int) (size style : Nat) (href : String) :
    Extends font 0 flow (layoutBlockquote font contentW elem flow indent size style href) := by
  obtain ⟨down, added, blocks, within⟩ := layoutText_extends upright contentW (getAllText elem)
    { flow with
      blocks := flow.blocks ++ [⟨margin + indent, flow.y + 8, "__BQ_START__", 0, 0, gray, "", contentW - indent, 0⟩]
      y := flow.y + 8 } (indent + 20) size (style ||| font.italic) black href
  dsimp only at down blocks within
  unfold layoutBlockquote
  dsimp only
  generalize layoutText font contentW (getAllText elem) _ (indent + 20) size (style ||| font.italic) black href = body
    at down blocks within ⊢
  -- The marker is set in place, with the height the quoted text gives it.
  rw [blocks, List.append_assoc, List.singleton_append, List.set_append_right _ _ (le_refl _), Nat.sub_self,
    List.set_cons_zero]
  refine ⟨show flow.y ≤ body.y + 8 by omega, _, rfl, ?_⟩
  simp only [List.mem_cons, forall_eq_or_imp]
  refine ⟨⟨show flow.y ≤ flow.y + 8 by omega, show flow.y + 8 ≤ body.y + 8 by omega,
    .inl (show flow.y + 8 + (body.y - (flow.y + 8) + 8) ≤ body.y + 8 + 0 by omega)⟩, fun b quoted => ?_⟩
  obtain ⟨top, bottom, ends⟩ := within b quoted
  exact ⟨by omega, show b.y ≤ body.y + 8 by omega, ends.imp_left fun ended => show b.y + b.h ≤ body.y + 8 + 0 by omega⟩

/-- Preformatted text: four pixels, its non-empty lines, four pixels. -/
theorem layoutPre_extends (upright : font.Upright) (contentW : Int) (elem : Element) (flow : Flow) (indent : Int) :
    Extends font 0 flow (layoutPre font contentW elem flow indent) :=
  ((Extends.skip flow (by decide : (0 : Int) ≤ 4)).trans
    (List.foldlRecOn (motive := fun f => Extends font 0 { flow with y := flow.y + 4 } f) _ _ _ (.refl _)
      fun f before line _ => before.trans (by
        -- A blank line is skipped; any other is laid out as text.
        split
        · exact .refl f
        · exact layoutText_extends upright contentW _ f indent 14 0 black ""))).lower (by decide) (by decide)

/-- A cell is a border on the row's line as high as the row, and its text four pixels lower and eight less high. -/
theorem tableCell_heights (size style : Nat) (colWidth rowHeight y : Int) (acc : List TextBlock × Int)
    (cell : String × String) :
    ∃ border text : TextBlock, (tableCell font size style colWidth rowHeight y acc cell).1 = acc.1 ++ [border, text] ∧
      border.y = y ∧ border.h = rowHeight ∧ text.y = y + 4 ∧ text.h = rowHeight - 8 :=
  ⟨_, _, rfl, rfl, rfl, rfl, rfl⟩

/-- The cells of a row: borders on the row's line as high as the row, texts four pixels lower and eight less high. -/
theorem foldl_tableCell_heights (size style : Nat) (colWidth rowHeight y : Int) :
    ∀ (cells : List (String × String)) (acc : List TextBlock × Int), ∃ added,
      (cells.foldl (tableCell font size style colWidth rowHeight y) acc).1 = acc.1 ++ added ∧
        ∀ b ∈ added, b.y = y ∧ b.h = rowHeight ∨ b.y = y + 4 ∧ b.h = rowHeight - 8
  | [], acc => ⟨[], by simp, nofun⟩
  | cell :: rest, acc => by
    obtain ⟨border, text, placed, borderY, borderH, textY, textH⟩ := tableCell_heights size style colWidth rowHeight y acc cell
    obtain ⟨added, laid, heights⟩ := foldl_tableCell_heights size style colWidth rowHeight y rest
      (tableCell font size style colWidth rowHeight y acc cell)
    refine ⟨[border, text] ++ added, by rw [List.foldl_cons, laid, placed, List.append_assoc], ?_⟩
    simp only [List.mem_append, List.mem_cons, List.mem_singleton, List.not_mem_nil, or_false]
    rintro b ((rfl | rfl) | later)
    · exact .inl ⟨borderY, borderH⟩
    · exact .inr ⟨textY, textH⟩
    · exact heights b later

/-- The rows of a table, each a row height below the one before, with every block inside its row. -/
theorem foldl_tableRowStep_extends (upright : font.Upright) (size style : Nat) (colWidth left : Int) :
    ∀ (rows : List (List (String × String))) (acc : List TextBlock × Int),
      acc.2 ≤ (rows.foldl (tableRowStep font size style colWidth (font.lineHeight size + 8) left) acc).2 ∧
      ∃ added, (rows.foldl (tableRowStep font size style colWidth (font.lineHeight size + 8) left) acc).1 =
          acc.1 ++ added ∧
        ∀ b ∈ added, acc.2 ≤ b.y ∧
          b.y ≤ (rows.foldl (tableRowStep font size style colWidth (font.lineHeight size + 8) left) acc).2 ∧
          b.y + b.h ≤ (rows.foldl (tableRowStep font size style colWidth (font.lineHeight size + 8) left) acc).2
  | [], acc => ⟨le_rfl, [], by simp, nofun⟩
  | row :: rest, acc => by
    have high := upright size
    obtain ⟨cells, laid, heights⟩ := foldl_tableCell_heights size style colWidth (font.lineHeight size + 8) acc.2 row
      (acc.1, left)
    obtain ⟨down, added, laid', within⟩ := foldl_tableRowStep_extends upright size style colWidth left rest
      (tableRowStep font size style colWidth (font.lineHeight size + 8) left acc row)
    -- The row's cells, then the rows below it.
    have placed : (tableRowStep font size style colWidth (font.lineHeight size + 8) left acc row).1 = acc.1 ++ cells :=
      laid
    have lowered : (tableRowStep font size style colWidth (font.lineHeight size + 8) left acc row).2 =
        acc.2 + (font.lineHeight size + 8) := rfl
    rw [placed] at laid'
    rw [lowered] at down within
    rw [List.foldl_cons]
    refine ⟨by omega, cells ++ added, by rw [laid', List.append_assoc], ?_⟩
    simp only [List.mem_append]
    rintro b (cell | later)
    · rcases heights b cell with ⟨y, h⟩ | ⟨y, h⟩ <;> omega
    · obtain ⟨top, bottom, ends⟩ := within b later
      exact ⟨by omega, bottom, ends⟩

/-- A table: four pixels, its rows, four pixels. -/
theorem layoutTable_extends (upright : font.Upright) (contentW : Int) (table : Element) (flow : Flow) (indent : Int)
    (size style : Nat) : Extends font 0 flow (layoutTable font contentW table flow indent size style) := by
  unfold layoutTable
  dsimp only
  split
  · exact .refl flow
  · obtain ⟨down, added, laid, within⟩ := foldl_tableRowStep_extends upright size style
      ((contentW - indent - margin).fdiv (((tableRows table).map List.length).foldl max 0 : Nat)) (margin + indent)
      (tableRows table) (flow.blocks, flow.y + 4)
    refine ⟨show flow.y ≤ _ + 4 by omega, added, laid, fun b member => ?_⟩
    obtain ⟨top, bottom, ends⟩ := within b member
    exact ⟨by omega, show b.y ≤ _ + 4 by omega, .inl (show b.y + b.h ≤ _ + 4 + 0 by omega)⟩

/-- The end of a list item: its text, and a line when nothing moved the pen. -/
theorem itemTail_extends (upright : font.Upright) (contentW : Int) (itemText : String) (top indent : Int)
    (size style : Nat) (flow : Flow) : Extends font 0 flow (itemTail font contentW itemText top indent size style flow) := by
  have text : Extends font 0 flow (if itemText = "" then flow
      else layoutText font contentW itemText flow (indent + 40) size style black "") := by
    split
    · exact .refl flow
    · exact layoutText_extends upright contentW _ flow _ _ _ _ _
  unfold itemTail
  generalize (if itemText = "" then flow
    else layoutText font contentW itemText flow (indent + 40) size style black "") = laid at text ⊢
  dsimp only
  split
  · exact text.lower (upright size) (upright size)
  · exact text

/-- A bullet is placed on the pen's line without moving it. -/
theorem bullet_extends (listTag : String) (listNum : Nat) (flow : Flow) (indent : Int) (size style : Nat) :
    Extends font 0 flow { flow with blocks := flow.blocks ++ [bulletBlock font listTag listNum flow.y indent size style] } :=
  ⟨le_rfl, _, rfl, by
    simp only [List.mem_singleton]
    rintro _ rfl
    exact ⟨le_rfl, le_rfl, .inr ⟨listTag, listNum, indent, size, style, rfl⟩⟩⟩

/-! ## Elements -/

mutual

/-- `layout_element` continues the flow on every path. -/
theorem layoutElement_extends (upright : font.Upright) (contentW : Int) :
    ∀ (elem : Element) (flow : Flow) (indent : Int) (size style : Nat) (href : String),
      Extends font 0 flow (layoutElement font contentW elem flow indent size style href)
  | ⟨tag, attrs, children, text⟩, flow, indent, size, style, href => by
    rw [layoutElement]
    cases blockKind tag
    · exact layoutHeading_extends upright contentW _ flow indent _ _ _
    · exact layoutParagraph_extends upright contentW _ flow indent _ _ _
    · exact .skip flow (upright _)
    · exact layoutRule_extends contentW flow indent
    · -- The list's items between two four-pixel gaps.
      exact ((Extends.skip flow (by decide)).trans (layoutItems_extends upright contentW tag children _ indent _ _ 1)).lower
        (by decide) (by decide)
    · exact layoutBlockquote_extends upright contentW _ flow indent _ _ _
    · exact layoutPre_extends upright contentW _ flow indent
    · exact layoutTable_extends upright contentW _ flow indent _ _
    · -- The default flow: the element's own text, then its children.
      dsimp only
      split
      · exact layoutChildren_extends upright contentW children flow indent _ _ _
      · exact (layoutText_extends upright contentW _ flow _ _ _ _ _).trans
          (layoutChildren_extends upright contentW children _ indent _ _ _)

/-- The children of the default flow, top to bottom. -/
theorem layoutChildren_extends (upright : font.Upright) (contentW : Int) :
    ∀ (children : List Element) (flow : Flow) (indent : Int) (size style : Nat) (href : String),
      Extends font 0 flow (layoutElement.layoutChildren font contentW children flow indent size style href)
  | [], _, _, _, _, _ => .refl _
  | child :: rest, flow, indent, size, style, href =>
    (layoutElement_extends upright contentW child flow indent size style href).trans
      (layoutChildren_extends upright contentW rest _ indent size style href)

/-- The items of a list: a bullet, the item's children, its end; then the next item. -/
theorem layoutItems_extends (upright : font.Upright) (contentW : Int) (listTag : String) :
    ∀ (items : List Element) (flow : Flow) (indent : Int) (size style listNum : Nat),
      Extends font 0 flow (layoutElement.layoutItems font contentW listTag items flow indent size style listNum)
  | [], _, _, _, _, _ => .refl _
  | ⟨itemTag, attrs, itemChildren, itemText⟩ :: rest, flow, indent, size, style, listNum => by
    rw [layoutElement.layoutItems]
    split
    · dsimp only
      exact (((bullet_extends listTag listNum flow indent size style).trans
        (layoutChildren_extends upright contentW itemChildren _ (indent + 40) size style "")).trans
        (itemTail_extends upright contentW itemText _ indent size style _)).trans
        (layoutItems_extends upright contentW listTag rest _ indent size style _)
    · exact layoutItems_extends upright contentW listTag rest flow indent size style listNum

end

end Bounds

/--
With non-negative line heights, `layout_element` ends at or below where it starts, and every block it appends
lies between the two: placed at or below the start and at or above the end, and ending by the end unless it is
a list item's bullet, which is a line high whatever the item's content.
-/
theorem layoutElement_blocks_between (font : Font) (upright : font.Upright) (contentW : Int) (elem : Element)
    (flow : Flow) (indent : Int) (size style : Nat) (href : String) :
    flow.y ≤ (layoutElement font contentW elem flow indent size style href).y ∧
      ∃ added, (layoutElement font contentW elem flow indent size style href).blocks = flow.blocks ++ added ∧
        ∀ b ∈ added, flow.y ≤ b.y ∧ b.y ≤ (layoutElement font contentW elem flow indent size style href).y ∧
          (b.y + b.h ≤ (layoutElement font contentW elem flow indent size style href).y ∨
            ∃ listTag listNum indent size style, b = bulletBlock font listTag listNum b.y indent size style) := by
  obtain ⟨down, added, blocks, within⟩ := layoutElement_extends upright contentW elem flow indent size style href
  exact ⟨down, added, blocks, fun b member => by simpa [IsBullet] using within b member⟩

/-- The tree of `<ul><li><pre></pre></li></ul>`: a list whose one item holds an empty `pre`. -/
def emptyPreList : Element :=
  ⟨"ul", [], [⟨"li", [], [⟨"pre", [], [], ""⟩], ""⟩], ""⟩

/--
With non-negative line heights every block `layout_element` appends ends by the point where the element ends, except
a list item's bullet, which is a line high whatever the item's content, and the list adds a line only after an item
that did not move the pen at all. An item holding only an empty `pre` moves the pen eight pixels, less than its
sixteen-pixel bullet: the bullet runs from 4 to 20, past the list's end at 16, where whatever follows is drawn over it.
-/
theorem layoutElement_bullet_overhangs :
    (∀ (font : Font), font.Upright → ∀ (contentW : Int) (elem : Element) (flow : Flow) (indent : Int) (size style : Nat)
      (href : String),
      flow.y ≤ (layoutElement font contentW elem flow indent size style href).y ∧
        ∃ added, (layoutElement font contentW elem flow indent size style href).blocks = flow.blocks ++ added ∧
          ∀ b ∈ added, flow.y ≤ b.y ∧ b.y ≤ (layoutElement font contentW elem flow indent size style href).y ∧
            (b.y + b.h ≤ (layoutElement font contentW elem flow indent size style href).y ∨
              ∃ listTag listNum indent size style, b = bulletBlock font listTag listNum b.y indent size style)) ∧
      (layoutElement Font.fixed 608 emptyPreList ⟨[], [], 0⟩ 0 16 0 "").y = 16 ∧
      (layoutElement Font.fixed 608 emptyPreList ⟨[], [], 0⟩ 0 16 0 "").blocks.map (fun b => (b.text, b.y, b.h)) =
        [("* ", 4, 16)] :=
  ⟨layoutElement_blocks_between, by decide, by decide⟩

end Kivi
