import Kivi.Browser.Invariants
import Kivi.Layout.Links

/-! Clicks in the content area: a click follows the first drawn block with a link under the pointer. -/

namespace Kivi

namespace Browser

/-- The link of the first block whose box, as `render` draws it at the scroll offset, holds the point. -/
def blockAt (blocks : List TextBlock) (scrollY contentY x y : Int) : Option String :=
  (blocks.find? fun b => b.href ≠ "" ∧ b.x ≤ x ∧ x < b.x + b.w ∧ b.y - scrollY + contentY ≤ y ∧
    y < b.y - scrollY + contentY + b.h).map (·.href)

/-- Hit-testing the regions of the linked blocks in content coordinates is hit-testing the drawn blocks. -/
theorem linkAt_filterMap (scrollY contentY x y : Int) : ∀ blocks : List TextBlock,
    linkAt (blocks.filterMap linkOf) x (y - contentY + scrollY) = blockAt blocks scrollY contentY x y
  | [] => rfl
  | b :: rest => by
    have shift : (b.y - scrollY + contentY ≤ y ∧ y < b.y - scrollY + contentY + b.h) ↔
        (b.y ≤ y - contentY + scrollY ∧ y - contentY + scrollY < b.y + b.h) := by omega
    have ih := linkAt_filterMap scrollY contentY x y rest
    unfold linkAt blockAt at ih ⊢
    by_cases plain : b.href = ""
    · -- A block without a link has no region and is never hit.
      rw [List.filterMap_cons_none (linkOf_plain plain), List.find?_cons_of_neg _ (by simp [plain])]
      exact ih
    · -- A linked block's region is its box, shifted by the scroll and the content top.
      rw [List.filterMap_cons_some (linkOf_linked plain)]
      by_cases hit : b.x ≤ x ∧ x < b.x + b.w ∧ b.y ≤ y - contentY + scrollY ∧ y - contentY + scrollY < b.y + b.h
      · rw [List.find?_cons_of_pos _ (by exact decide_eq_true hit),
          List.find?_cons_of_pos _ (by exact decide_eq_true ⟨plain, hit.1, hit.2.1, shift.mpr hit.2.2⟩)]
        rfl
      · rw [List.find?_cons_of_neg _ (by exact fun found => hit (of_decide_eq_true found)),
          List.find?_cons_of_neg _ (by exact fun found =>
            let ⟨_, left, right, rows⟩ := of_decide_eq_true found; hit ⟨left, right, shift.mp rows⟩)]
        exact ih
/-- The chrome geometry `__init__` sets: content below the kiosk buttons or below the address bar. -/
def Chrome (s : Browser) : Prop :=
  s.contentY = if s.kioskMode then 20 else addressBarH + 2

/-- No event moves the content area's top or changes the mode. -/
theorem step_chrome {font : Font} {fetch : String → Except PyError (Int × String)} {depth : Nat} {s s' : Browser}
    {e : Event} (ran : step font fetch depth s e = .ok s') (chrome : Chrome s) : Chrome s' := by
  have window : SameWindow s s' ∨ s'.contentY = s.contentY ∧ s'.kioskMode = s.kioskMode := by
    rcases step_moves ran with move | ⟨w, h, -, resized⟩
    · cases move with
      | navigated went => exact .inl went.window
      | edited same => exact .inl same.window
      | scrolled _ => exact .inl ⟨rfl, rfl, rfl, rfl, rfl, rfl⟩
    · -- A resize writes the window size and the content height and width only.
      rcases handleResize_ok resized with ⟨-, rfl⟩ | ⟨-, rfl⟩
      · exact .inr ⟨rfl, rfl⟩
      · unfold clampScroll
        split <;> exact .inr ⟨rfl, rfl⟩
  unfold Chrome at chrome ⊢
  rcases window with same | ⟨top, mode⟩
  · rw [same.contentY, same.kioskMode]
    exact chrome
  · rw [top, mode]
    exact chrome

/-- Every state a run reaches from a new browser has the chrome geometry of `__init__`. -/
theorem run_chrome {font : Font} {admits : Browser → Event → Prop} {kioskMode : Bool} {s : Browser}
    (run : Reaches font admits (Browser.new kioskMode) s) : Chrome s :=
  run.invariant (by cases kioskMode <;> rfl) fun _ _ _ _ _ chrome _ ran => step_chrome ran chrome

/-- Below the chrome and left of the scrollbar, a click only hit-tests the link regions. -/
theorem clickAction_content {s : Browser} (chrome : Chrome s) {x y : Int} (below : s.contentY ≤ y)
    (left : x < s.winW - scrollbarW) :
    s.clickAction x y = match linkAt s.links x (y - s.contentY + s.scrollY) with
      | some href => .follow href
      | none => .ignore := by
  unfold Chrome at chrome
  unfold clickAction
  -- Neither row of buttons nor the scrollbar is under the pointer.
  have buttons : ¬(s.kioskMode ∧ y < 20) := by
    rintro ⟨kiosk, above⟩
    simp only [kiosk, if_true] at chrome
    omega
  have bar : ¬(!s.kioskMode ∧ y < addressBarH) := by
    rintro ⟨plain, above⟩
    simp only [Bool.not_eq_true'] at plain
    simp [plain, addressBarH] at chrome above
    omega
  have scrollbar : ¬(x ≥ s.winW - scrollbarW ∧ y ≥ s.contentY) := by omega
  rw [if_neg buttons]
  dsimp only
  rw [if_neg bar]
  dsimp only
  exact if_neg scrollbar

/-- A click that decides to follow a link navigates to it. -/
theorem handleClick_follow {font : Font} {fetch : String → Except PyError (Int × String)} {depth : Nat}
    {s : Browser} {x y : Int} {href : String} (follows : s.clickAction x y = .follow href) :
    handleClick font fetch depth s x y = navigate font fetch depth s href false false := by
  unfold handleClick
  rw [follows]

/--
For any document, width, font, scroll offset and click below the chrome and left of the scrollbar,
`handle_click` follows `h` exactly when the first drawn block with a link under the pointer links to `h`,
and it then navigates to `h`; the link regions of `layout_document` are the boxes of its linked blocks,
in order.
-/
theorem click_follows_first_linked_block (font : Font) (root : Element) (s : Browser)
    (laid : s.blocks = (layoutDocument font s.contentW root).1 ∧ s.links = (layoutDocument font s.contentW root).2.1)
    (chrome : Chrome s) (x y : Int) (below : s.contentY ≤ y) (left : x < s.winW - scrollbarW) (h : String) :
    (s.clickAction x y = .follow h ↔ blockAt s.blocks s.scrollY s.contentY x y = some h) ∧
      (blockAt s.blocks s.scrollY s.contentY x y = some h →
        ∀ fetch depth, handleClick font fetch depth s x y = navigate font fetch depth s h false false) ∧
      (layoutDocument font s.contentW root).2.1 = (layoutDocument font s.contentW root).1.filterMap linkOf := by
  -- The regions on show are those of the blocks on show, so hit-testing either is the same.
  have regions : s.links = s.blocks.filterMap linkOf := by
    rw [laid.1, laid.2]
    exact layoutDocument_links font s.contentW root
  have decide : s.clickAction x y = .follow h ↔ blockAt s.blocks s.scrollY s.contentY x y = some h := by
    rw [clickAction_content chrome below left, regions, linkAt_filterMap]
    cases blockAt s.blocks s.scrollY s.contentY x y <;> simp
  exact ⟨decide, fun hit _ _ => handleClick_follow (decide.mpr hit), layoutDocument_links font s.contentW root⟩

/-- A page holding one link, clicked on its text. -/
theorem click_follows_first_linked_block_link :
    let s := (Browser.new false).load Font.fixed "<a href=x>go</a>"
    let root := parseHtml "<a href=x>go</a>"
    ((s.blocks = (layoutDocument Font.fixed s.contentW root).1 ∧
        s.links = (layoutDocument Font.fixed s.contentW root).2.1) ∧
      Chrome s ∧ s.contentY ≤ 40 ∧ 12 < s.winW - scrollbarW) ∧
    (s.clickAction 12 40 = .follow "x" ↔ blockAt s.blocks s.scrollY s.contentY 12 40 = some "x") ∧
      (blockAt s.blocks s.scrollY s.contentY 12 40 = some "x" →
        ∀ fetch depth, handleClick Font.fixed fetch depth s 12 40 = navigate Font.fixed fetch depth s "x" false false) ∧
      (layoutDocument Font.fixed s.contentW root).2.1 = (layoutDocument Font.fixed s.contentW root).1.filterMap linkOf :=
  ⟨⟨⟨rfl, rfl⟩, rfl, by decide, by decide⟩, click_follows_first_linked_block Font.fixed (parseHtml "<a href=x>go</a>")
    ((Browser.new false).load Font.fixed "<a href=x>go</a>") ⟨rfl, rfl⟩ rfl 12 40 (by decide) (by decide) "x"⟩

end Browser

end Kivi
