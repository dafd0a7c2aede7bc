import Kivi.Layout.Engine
import Kivi.Net.Fetch

/-! The navigation controller `Browser`: its state, its operations and its event handlers. -/

namespace Kivi

/-- The fields of a `Browser` instance; the window handle and the title are left to the platform. -/
structure Browser where
  url : String
  history : List String
  forwardHistory : List String
  blocks : List TextBlock
  links : List Link
  scrollY : Int
  maxScroll : Int
  contentHeight : Int
  addressText : String
  editingUrl : Bool
  cursorPos : Int
  kioskMode : Bool
  winW : Int
  winH : Int
  contentY : Int
  contentH : Int
  contentW : Int
  scrollbarDragging : Bool
  scrollbarDragStartY : Int
  scrollbarDragStartScroll : Int
  /-- The last body laid out, kept for relayout on resize. -/
  currentHtml : String

namespace Browser

/-- `Browser.__init__`. -/
def new (kioskMode : Bool) : Browser :=
  { url := "", history := [], forwardHistory := [], blocks := [], links := [], scrollY := 0,
    maxScroll := 0, contentHeight := 0, addressText := "", editingUrl := false, cursorPos := 0,
    kioskMode := kioskMode, winW := Kivi.winW, winH := Kivi.winH,
    contentY := if kioskMode then 20 else addressBarH + 2,
    contentH := if kioskMode then Kivi.winH - 20 else Kivi.winH - (addressBarH + 2),
    contentW := Kivi.winW - margin * 2 - scrollbarW, scrollbarDragging := false,
    scrollbarDragStartY := 0, scrollbarDragStartScroll := 0, currentHtml := "" }

/-- `draw_scrollbar`, of which only the two floor divisions can fail. -/
def drawScrollbar (s : Browser) : Except PyError Unit :=
  if s.maxScroll ≤ 0 then pure ()
  else do
    let thumbH := max 20 (← pyFloorDiv (s.contentH * s.contentH) s.contentHeight)
    let _ ← pyFloorDiv ((s.contentH - thumbH) * s.scrollY) s.maxScroll
    pure ()

/-- `draw`: the address bar and the blocks are drawn without failing, then the scrollbar. -/
def draw (s : Browser) : Except PyError Unit :=
  s.drawScrollbar

/-- The page `navigate` lays out in place of a body whose status is not 200. -/
def errorPage (status : Int) (body : String) : String :=
  "<html><body><h1>Error " ++ toString status ++ "</h1><p>" ++ body ++ "</p></body></html>"

/-- The layout of a body at the current width, with the scroll range it gives. -/
@[simps]
def relayout (font : Font) (s : Browser) (html : String) : Browser :=
  { s with
    blocks := (layoutDocument font s.contentW (parseHtml html)).1
    links := (layoutDocument font s.contentW (parseHtml html)).2.1
    contentHeight := (layoutDocument font s.contentW (parseHtml html)).2.2
    maxScroll := max 0 ((layoutDocument font s.contentW (parseHtml html)).2.2 - s.contentH) }

/-- The history bookkeeping at the start of `navigate`, before the new URL is set. -/
def record (s : Browser) (fromBack fromForward : Bool) : Browser :=
  if s.url = "" then s
  else if fromForward then { s with forwardHistory := s.forwardHistory ++ [s.url] }
  else if !fromBack then { s with history := s.history ++ [s.url], forwardHistory := [] }
  else s

/-- The state `navigate` fetches in: the history recorded, the new URL shown, the page at its top. -/
@[simps]
def enter (s : Browser) (url : String) (fromBack fromForward : Bool) : Browser :=
  { s.record fromBack fromForward with url := url, addressText := url, scrollY := 0, editingUrl := false }

/-- The state `navigate` ends in: the body kept as `current_html` and laid out. -/
@[simps]
def load (font : Font) (s : Browser) (body : String) : Browser :=
  { s.relayout font body with currentHtml := body }

variable (font : Font) (fetch : String → Except PyError (Int × String))

/--
`navigate(url, from_back, from_forward)`, with `depth` the nested calls the stack still allows.

A redirect calls `navigate` again on the location, with both flags cleared. Only this recursion counts against
`depth`: the layout of the page recurses once per nesting level too, and `layoutDocument` counts no stack for it, so
on a page nested too deeply for the stack left the code raises `RecursionError` where the model returns.
-/
def navigate : Nat → Browser → String → Bool → Bool → Except PyError Browser
  | 0, _, _, _, _ => .error .recursionError
  | depth + 1, s, target, fromBack, fromForward => do
    let url ← resolveUrl s.url target
    let s := s.enter url fromBack fromForward
    let (status, body) ← fetch url
    if status ∈ redirectStatuses then navigate depth s body false false
    else
      let s := s.load font (if status ≠ 200 then errorPage status body else body)
      s.draw
      pure s

/-- `back`: the current URL moves to the forward stack and the last back entry is navigated to. -/
def back (depth : Nat) (s : Browser) : Except PyError Browser :=
  match s.history.getLast? with
  | none => pure s
  | some url =>
    navigate font fetch depth
      { s with forwardHistory := s.forwardHistory ++ [s.url], history := s.history.dropLast, url := "" } url
      true false

/-- `forward`: the current URL moves to the back stack and the last forward entry is navigated to. -/
def forward (depth : Nat) (s : Browser) : Except PyError Browser :=
  match s.forwardHistory.getLast? with
  | none => pure s
  | some url =>
    navigate font fetch depth
      { s with history := s.history ++ [s.url], forwardHistory := s.forwardHistory.dropLast, url := "" }
      url false true

/-- `refresh`: the current URL is cleared so that it is not recorded, and navigated to again. -/
def refresh (depth : Nat) (s : Browser) : Except PyError Browser :=
  if s.url = "" then pure s else navigate font fetch depth { s with url := "" } s.url false false

/-- The new window size and content area of `handle_resize`. -/
@[simps]
def resizeWindow (s : Browser) (newW newH : Int) : Browser :=
  { s with
    winW := newW, winH := newH
    contentH := if s.kioskMode then newH - 20 else newH - s.contentY
    contentW := newW - margin * 2 - scrollbarW }

/-- `if self.scroll_y > self.max_scroll: self.scroll_y = self.max_scroll`. -/
def clampScroll (s : Browser) : Browser :=
  if s.scrollY > s.maxScroll then { s with scrollY := s.maxScroll } else s

/-- `handle_resize`: the new window, and a relayout with the scroll clamped when a body is kept. -/
def handleResize (s : Browser) (newW newH : Int) : Except PyError Browser :=
  let s := s.resizeWindow newW newH
  if s.currentHtml = "" then pure s
  else do
    let s := (s.relayout font s.currentHtml).clampScroll
    s.draw
    pure s

/-- What a click does, in the order `handle_click` tests for it. -/
inductive ClickAction where
  | back
  | forward
  | refresh
  | editAddress
  | startDrag
  | follow (href : String)
  | ignore
  deriving DecidableEq, Repr

/-- The first link region containing a point in content coordinates. -/
def linkAt (links : List Link) (x contentY : Int) : Option String :=
  (links.find? fun l => l.x ≤ x ∧ x < l.x + l.w ∧ l.y ≤ contentY ∧ contentY < l.y + l.h).map (·.href)

/-- The decision of `handle_click`: chrome buttons, address bar, scrollbar, then link regions. -/
def clickAction (s : Browser) (x y : Int) : ClickAction :=
  if s.kioskMode ∧ y < 20 then
    if x ≥ 4 ∧ x < 20 ∧ y ≥ 2 ∧ y < 18 then .back
    else if x ≥ 24 ∧ x < 40 ∧ y ≥ 2 ∧ y < 18 then .forward
    else .ignore
  else
    let toolbar : Option ClickAction :=
      if !s.kioskMode ∧ y < addressBarH then
        if x ≥ 4 ∧ x < 20 ∧ y ≥ 4 ∧ y < 20 then some .back
        else if x ≥ 24 ∧ x < 40 ∧ y ≥ 4 ∧ y < 20 then some .forward
        else if x ≥ 44 ∧ x < 60 ∧ y ≥ 4 ∧ y < 20 then some .refresh
        else if x ≥ 64 then some .editAddress
        else none
      else none
    match toolbar with
    | some action => action
    | none =>
      if x ≥ s.winW - scrollbarW ∧ y ≥ s.contentY then .startDrag
      else match linkAt s.links x (y - s.contentY + s.scrollY) with
        | some href => .follow href
        | none => .ignore

/-- `handle_click`: the decided action carried out. -/
def handleClick (depth : Nat) (s : Browser) (x y : Int) : Except PyError Browser :=
  match s.clickAction x y with
  | .back => back font fetch depth s
  | .forward => forward font fetch depth s
  | .refresh => refresh font fetch depth s
  | .editAddress => pure { s with editingUrl := true, cursorPos := s.addressText.length }
  | .startDrag =>
    pure { s with scrollbarDragging := true, scrollbarDragStartY := y, scrollbarDragStartScroll := s.scrollY }
  | .follow href => navigate font fetch depth s href false false
  | .ignore => pure s

/-- `handle_mouse_up`. -/
def handleMouseUp (s : Browser) : Browser :=
  { s with scrollbarDragging := false }

/-- `handle_mouse_move`: a drag moves the scroll in proportion to the track, clamped to the range. -/
def handleMouseMove (s : Browser) (y : Int) : Except PyError Browser :=
  if s.scrollbarDragging ∧ s.maxScroll > 0 then do
    let thumbH := max 20 (← pyFloorDiv (s.contentH * s.contentH) s.contentHeight)
    let trackRange := s.contentH - thumbH
    if trackRange > 0 then
      let delta ← pyFloorDiv ((y - s.scrollbarDragStartY) * s.maxScroll) trackRange
      let newScroll := max 0 (min s.maxScroll (s.scrollbarDragStartScroll + delta))
      if newScroll ≠ s.scrollY then
        let s := { s with scrollY := newScroll }
        s.draw
        pure s
      else pure s
    else pure s
  else pure s

/-- A new scroll position, drawn. -/
def scrollTo (s : Browser) (scrollY : Int) : Except PyError Browser := do
  let s := { s with scrollY := scrollY }
  s.draw
  pure s

/-- `handle_key`: address editing while the bar has focus, otherwise the scroll keys. -/
def handleKey (depth : Nat) (s : Browser) (key : Int) : Except PyError Browser :=
  if s.editingUrl then
    if key = 13 ∨ key = 10 then navigate font fetch depth { s with editingUrl := false } s.addressText false false
    else if key = 27 then pure { s with editingUrl := false, addressText := s.url }
    else if key = 8 ∨ key = 127 then
      if s.cursorPos > 0 then
        pure { s with
          addressText := ⟨sliceTo s.addressText.data (s.cursorPos - 1) ++ sliceFrom s.addressText.data s.cursorPos⟩
          cursorPos := s.cursorPos - 1 }
      else pure s
    else if key ≥ 32 ∧ key < 127 then
      pure { s with
        addressText := ⟨sliceTo s.addressText.data s.cursorPos ++ [Char.ofNat key.toNat] ++
          sliceFrom s.addressText.data s.cursorPos⟩
        cursorPos := s.cursorPos + 1 }
    else pure s
  else if key = 0x100 then s.scrollTo (max 0 (s.scrollY - 20))
  else if key = 0x101 then s.scrollTo (min s.maxScroll (s.scrollY + 20))
  else if key = 0x109 then s.scrollTo (max 0 (s.scrollY - s.contentH))
  else if key = 0x10A then s.scrollTo (min s.maxScroll (s.scrollY + s.contentH))
  else pure s

end Browser

/-- The events `run` dispatches, and a call of the public `navigate`. -/
inductive Event where
  | close
  | mouseDown (x y : Int)
  | mouseUp (x y : Int)
  | mouseMove (x y : Int)
  | key (code : Int)
  | resize (w h : Int)
  | navigate (url : String)
  deriving DecidableEq, Repr

namespace Browser

variable (font : Font) (fetch : String → Except PyError (Int × String))

/-- One iteration of the event loop of `run`, the platform answering fetches as `fetch` does. -/
def step (depth : Nat) (s : Browser) : Event → Except PyError Browser
  | .close => pure s
  | .mouseDown x y => handleClick font fetch depth s x y
  | .mouseUp _ _ => pure s.handleMouseUp
  | .mouseMove _ y => s.handleMouseMove y
  | .key code => handleKey font fetch depth s code
  | .resize w h => handleResize font s w h
  | .navigate url => navigate font fetch depth s url false false

end Browser

end Kivi
