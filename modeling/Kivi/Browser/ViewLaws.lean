import Kivi.Browser.View
import Kivi.Browser.Click

/-!
The view over whole runs: a scroll key and the opposite key, a drag of the scrollbar back to where it was grabbed,
and a resize back to the window's size each return the browser to where it was, and the page keys reach both ends
of the page.
-/

namespace Kivi

namespace Browser

variable {font : Font}

/-! ## The scroll keys -/

/-- Over a page with a range only when tall enough, moving the offset draws without failing. -/
theorem scrollTo_eq {s : Browser} (tall : TallWhenScrolling s) (v : Int) :
    s.scrollTo v = .ok { s with scrollY := v } := by
  have drawn : ({ s with scrollY := v } : Browser).drawScrollbar = .ok () := drawScrollbar_ok tall
  simp only [scrollTo, draw, drawn]
  rfl

/-- Outside the address bar, the arrow and page keys move the offset a line or a page, clamped to the range. -/
theorem handleKey_scrollKeys (font : Font) (fetch : String → Except PyError (Int × String)) (depth : Nat)
    {s : Browser} (idle : s.editingUrl = false) :
    handleKey font fetch depth s 0x100 = s.scrollTo (max 0 (s.scrollY - 20)) ∧
      handleKey font fetch depth s 0x101 = s.scrollTo (min s.maxScroll (s.scrollY + 20)) ∧
      handleKey font fetch depth s 0x109 = s.scrollTo (max 0 (s.scrollY - s.contentH)) ∧
      handleKey font fetch depth s 0x10A = s.scrollTo (min s.maxScroll (s.scrollY + s.contentH)) := by
  simp only [handleKey, idle, Bool.false_eq_true, ↓reduceIte, Int.reduceEq, and_self]

/--
In every state a run reaches in which no resize hides the content area, outside the address bar each scroll key
moves the offset by its step and the opposite key moves it back, whenever the step stays within the range: a line
is 20 pixels, a page the content area's height.
-/
theorem run_scroll_keys_undo (font : Font) (upright : font.Upright) (fetch : String → Except PyError (Int × String))
    (depth : Nat) (kioskMode : Bool) (s : Browser) (run : Reaches font KeepsChrome (Browser.new kioskMode) s)
    (idle : s.editingUrl = false) (key opposite delta : Int)
    (paired : (key, opposite, delta) ∈
      [(0x100, 0x101, -20), (0x101, 0x100, 20), (0x109, 0x10A, -s.contentH), (0x10A, 0x109, s.contentH)])
    (room : 0 ≤ s.scrollY + delta ∧ s.scrollY + delta ≤ s.maxScroll) :
    handleKey font fetch depth s key = .ok { s with scrollY := s.scrollY + delta } ∧
      handleKey font fetch depth { s with scrollY := s.scrollY + delta } opposite = .ok s := by
  have ok := run.invariant (new_scrollOk kioskMode) fun _ _ _ _ _ ok admitted ran => step_scrollOk admitted ran ok
  have tall := run.invariant (new_tall kioskMode) fun _ _ _ _ _ tall _ ran => step_tall upright ran tall
  -- Either key scrolls to an offset in the range, so neither clamps, and both draw.
  have undo : ∀ a b, a = s.scrollY + delta → b = s.scrollY →
      s.scrollTo a = .ok { s with scrollY := s.scrollY + delta } ∧
        ({ s with scrollY := s.scrollY + delta } : Browser).scrollTo b = .ok s := by
    rintro a b rfl rfl
    exact ⟨scrollTo_eq tall _, scrollTo_eq (show TallWhenScrolling { s with scrollY := s.scrollY + delta } from tall) _⟩
  have := ok.nonneg
  have := ok.le_max
  obtain ⟨up, down, pageUp, pageDown⟩ := handleKey_scrollKeys font fetch depth idle
  obtain ⟨up', down', pageUp', pageDown'⟩ := handleKey_scrollKeys font fetch depth
    (show ({ s with scrollY := s.scrollY + delta } : Browser).editingUrl = false from idle)
  simp only [List.mem_cons, Prod.mk.injEq, List.mem_singleton, List.not_mem_nil, or_false] at paired
  rcases paired with ⟨rfl, rfl, rfl⟩ | ⟨rfl, rfl, rfl⟩ | ⟨rfl, rfl, rfl⟩ | ⟨rfl, rfl, rfl⟩ <;>
    simp only [up, down, pageUp, pageDown, up', down', pageUp', pageDown'] <;>
    exact undo _ _ (by omega) (by omega)

unseal parseFrom in
/-- A window 30 high, then a page with an empty body: a line down, then a line up. -/
theorem run_scroll_keys_undo_line :
    let fetch : String → Except PyError (Int × String) := fun _ => .ok (200, "")
    let s := (((Browser.new false).resizeWindow 640 30).enter "http://a.com/" false false).load Font.fixed ""
    Font.fixed.Upright ∧ Reaches Font.fixed KeepsChrome (Browser.new false) s ∧ s.editingUrl = false ∧
      ((0x101, 0x100, 20) : Int × Int × Int) ∈
        [(0x100, 0x101, -20), (0x101, 0x100, 20), (0x109, 0x10A, -s.contentH), (0x10A, 0x109, s.contentH)] ∧
      (0 ≤ s.scrollY + 20 ∧ s.scrollY + 20 ≤ s.maxScroll) ∧
      handleKey Font.fixed fetch 1 s 0x101 = .ok { s with scrollY := s.scrollY + 20 } ∧
        handleKey Font.fixed fetch 1 { s with scrollY := s.scrollY + 20 } 0x100 = .ok s := by
  intro fetch s
  have run : Reaches Font.fixed KeepsChrome (Browser.new false) s :=
    .step fetch 1 (.navigate "http://a.com/")
      (.step fetch 1 (.resize 640 30) .refl (show 0 ≤ ((Browser.new false).resizeWindow 640 30).contentH by decide) rfl)
      trivial rfl
  have line : ((0x101, 0x100, 20) : Int × Int × Int) ∈
      [(0x100, 0x101, -20), (0x101, 0x100, 20), (0x109, 0x10A, -s.contentH), (0x10A, 0x109, s.contentH)] :=
    List.mem_cons_of_mem _ (List.mem_cons_self _ _)
  have room : 0 ≤ s.scrollY + 20 ∧ s.scrollY + 20 ≤ s.maxScroll := by decide
  exact ⟨fixed_upright, run, rfl, line, room,
    run_scroll_keys_undo Font.fixed fixed_upright fetch 1 false s run rfl 0x101 0x100 20 line room⟩

/-- Over a page with a range only when tall enough, Page Down presses add a page each, up to the largest offset. -/
theorem foldlM_pageDown {s : Browser} (tall : TallWhenScrolling s) (idle : s.editingUrl = false)
    (area : 0 ≤ s.contentH) (font : Font) (fetch : String → Except PyError (Int × String)) (depth : Nat) :
    ∀ (n : Nat) (v : Int), v ≤ s.maxScroll → (List.replicate n 0x10A).foldlM (handleKey font fetch depth)
      { s with scrollY := v } = .ok { s with scrollY := min s.maxScroll (v + n * s.contentH) }
  | 0, v, below => by rw [Nat.cast_zero, zero_mul, add_zero, min_eq_right below]; rfl
  | n + 1, v, _ => by
    have pressed := (handleKey_scrollKeys font fetch depth
      (show ({ s with scrollY := v } : Browser).editingUrl = false from idle)).2.2.2
    -- A page more from a clamped offset is the clamp of a page more.
    have more : min s.maxScroll (min s.maxScroll (v + s.contentH) + n * s.contentH) =
        min s.maxScroll (v + ((n + 1 : Nat) : Int) * s.contentH) := by
      rw [Nat.cast_succ, add_mul, one_mul]
      have := Int.mul_nonneg (Int.ofNat_nonneg n) area
      omega
    rw [List.replicate_succ, List.foldlM_cons, pressed,
      scrollTo_eq (show TallWhenScrolling { s with scrollY := v } from tall), ← more]
    exact foldlM_pageDown tall idle area font fetch depth n _ (min_le_left _ _)

/-- Page Up presses take a page off each, down to the top. -/
theorem foldlM_pageUp {s : Browser} (tall : TallWhenScrolling s) (idle : s.editingUrl = false)
    (area : 0 ≤ s.contentH) (font : Font) (fetch : String → Except PyError (Int × String)) (depth : Nat) :
    ∀ (n : Nat) (v : Int), 0 ≤ v → (List.replicate n 0x109).foldlM (handleKey font fetch depth)
      { s with scrollY := v } = .ok { s with scrollY := max 0 (v - n * s.contentH) }
  | 0, v, above => by rw [Nat.cast_zero, zero_mul, sub_zero, max_eq_right above]; rfl
  | n + 1, v, _ => by
    have pressed := (handleKey_scrollKeys font fetch depth
      (show ({ s with scrollY := v } : Browser).editingUrl = false from idle)).2.2.1
    have less : max 0 (max 0 (v - s.contentH) - n * s.contentH) = max 0 (v - ((n + 1 : Nat) : Int) * s.contentH) := by
      rw [Nat.cast_succ, add_mul, one_mul]
      have := Int.mul_nonneg (Int.ofNat_nonneg n) area
      omega
    rw [List.replicate_succ, List.foldlM_cons, pressed,
      scrollTo_eq (show TallWhenScrolling { s with scrollY := v } from tall), ← less]
    exact foldlM_pageUp tall idle area font fetch depth n _ (le_max_left _ _)

/--
In every state a run reaches in which no resize hides the content area, outside the address bar, as many Page Down
presses as it takes pages to cover the scroll range bring the page to its largest offset, and as many Page Up
presses bring it to the top: each press moves a whole content area, clamped to the range.
-/
theorem run_page_keys_reach_ends (font : Font) (upright : font.Upright)
    (fetch : String → Except PyError (Int × String)) (depth : Nat) (kioskMode : Bool) (s : Browser)
    (run : Reaches font KeepsChrome (Browser.new kioskMode) s) (idle : s.editingUrl = false) (n : Nat)
    (enough : s.maxScroll ≤ n * s.contentH) :
    (List.replicate n 0x10A).foldlM (handleKey font fetch depth) s = .ok { s with scrollY := s.maxScroll } ∧
      (List.replicate n 0x109).foldlM (handleKey font fetch depth) s = .ok { s with scrollY := 0 } := by
  have ok := run.invariant (new_scrollOk kioskMode) fun _ _ _ _ _ ok admitted ran => step_scrollOk admitted ran ok
  have tall := run.invariant (new_tall kioskMode) fun _ _ _ _ _ tall _ ran => step_tall upright ran tall
  have := ok.nonneg
  have := ok.le_max
  have down := foldlM_pageDown tall idle ok.area font fetch depth n s.scrollY ok.le_max
  have up := foldlM_pageUp tall idle ok.area font fetch depth n s.scrollY ok.nonneg
  -- The presses cover the range from wherever the offset stands in it.
  rw [min_eq_left (by omega)] at down
  rw [max_eq_left (by omega)] at up
  exact ⟨down, up⟩

unseal parseFrom in
/-- A window 30 high, then a page with an empty body: a range of 36 over pages of 4, covered in nine presses. -/
theorem run_page_keys_reach_ends_nine :
    let fetch : String → Except PyError (Int × String) := fun _ => .ok (200, "")
    let s := (((Browser.new false).resizeWindow 640 30).enter "http://a.com/" false false).load Font.fixed ""
    Font.fixed.Upright ∧ Reaches Font.fixed KeepsChrome (Browser.new false) s ∧ s.editingUrl = false ∧
      s.maxScroll ≤ (9 : Nat) * s.contentH ∧
      (List.replicate 9 0x10A).foldlM (handleKey Font.fixed fetch 1) s = .ok { s with scrollY := s.maxScroll } ∧
        (List.replicate 9 0x109).foldlM (handleKey Font.fixed fetch 1) s = .ok { s with scrollY := 0 } := by
  intro fetch s
  have run : Reaches Font.fixed KeepsChrome (Browser.new false) s :=
    .step fetch 1 (.navigate "http://a.com/")
      (.step fetch 1 (.resize 640 30) .refl (show 0 ≤ ((Browser.new false).resizeWindow 640 30).contentH by decide) rfl)
      trivial rfl
  have enough : s.maxScroll ≤ (9 : Nat) * s.contentH := by decide
  exact ⟨fixed_upright, run, rfl, enough,
    run_page_keys_reach_ends Font.fixed fixed_upright fetch 1 false s run rfl 9 enough⟩

/-! ## Dragging back to the grab -/

/-- Below the chrome, a click on the scrollbar's column grabs the scrollbar. -/
theorem clickAction_scrollbar {s : Browser} (chrome : Chrome s) {x y : Int} (below : s.contentY ≤ y)
    (onBar : s.winW - scrollbarW ≤ x) : s.clickAction x y = .startDrag := by
  unfold Chrome at chrome
  unfold clickAction
  -- Neither row of buttons is under the pointer.
  have buttons : ¬(s.kioskMode ∧ y < 20) := by
    rintro ⟨kiosk, above⟩
    simp only [kiosk, if_true] at chrome
    omega
  have bar : ¬(!s.kioskMode ∧ y < addressBarH) := by
    rintro ⟨plain, above⟩
    simp only [Bool.not_eq_true'] at plain
    simp [plain, addressBarH] at chrome above
    omega
  rw [if_neg buttons]
  dsimp only
  rw [if_neg bar]
  exact if_pos ⟨onBar, below⟩

/--
During a grab, a mouse move leaves the grabbed state as it was but for the offset: where the drag asks over a
track, or where it was.
-/
theorem handleMouseMove_grabbed {t : Browser} (tall : TallWhenScrolling t) (v y : Int) :
    ({ t with scrollY := v } : Browser).handleMouseMove y =
      .ok { t with
        scrollY := (if t.scrollbarDragging = true ∧ 0 < t.maxScroll ∧ 0 < dragTrack t then dragOffset t y else v) } := by
  obtain ⟨u, ran⟩ := handleMouseMove_ok (show TallWhenScrolling { t with scrollY := v } from tall) y
  have scrolled := handleMouseMove_scrollY ran
  have shape : u = { t with scrollY := u.scrollY } := by
    rcases handleMouseMove_eq ran with rfl | ⟨w, -, rfl⟩ <;> rfl
  rw [ran, shape, scrolled]
  rfl

/-- Mouse moves during a grab change only the offset, and not even that when the drag has no track. -/
theorem foldlM_handleMouseMove_grabbed {t : Browser} (tall : TallWhenScrolling t) :
    ∀ (ys : List Int) (v : Int), ∃ w, ys.foldlM (fun u y => u.handleMouseMove y) { t with scrollY := v } =
      .ok { t with scrollY := w } ∧ (¬(t.scrollbarDragging = true ∧ 0 < t.maxScroll ∧ 0 < dragTrack t) → w = v)
  | [], v => ⟨v, rfl, fun _ => rfl⟩
  | y :: ys, v => by
    obtain ⟨w, ran, still⟩ := foldlM_handleMouseMove_grabbed tall ys
      (if t.scrollbarDragging = true ∧ 0 < t.maxScroll ∧ 0 < dragTrack t then dragOffset t y else v)
    refine ⟨w, ?_, fun idle => by rw [still idle, if_neg idle]⟩
    rw [List.foldlM_cons, handleMouseMove_grabbed tall]
    exact ran

/--
In every state a run reaches in which no resize hides the content area, grabbing the scrollbar below the chrome,
dragging it anywhere and bringing the pointer back to the row it was grabbed at leaves the browser as the grab
left it: the drag measures the pointer from the grab, so at the grab's row it asks for the offset the grab kept.
-/
theorem run_drag_back_restores (font : Font) (upright : font.Upright)
    (fetch : String → Except PyError (Int × String)) (depth : Nat) (kioskMode : Bool) (s : Browser)
    (run : Reaches font KeepsChrome (Browser.new kioskMode) s) (x y : Int)
    (onBar : s.winW - scrollbarW ≤ x ∧ s.contentY ≤ y) (ys : List Int) :
    (handleClick font fetch depth s x y >>= fun t => (ys ++ [y]).foldlM (fun u y' => u.handleMouseMove y') t) =
      .ok { s with scrollbarDragging := true, scrollbarDragStartY := y, scrollbarDragStartScroll := s.scrollY } := by
  have ok := run.invariant (new_scrollOk kioskMode) fun _ _ _ _ _ ok admitted ran => step_scrollOk admitted ran ok
  have tall := run.invariant (new_tall kioskMode) fun _ _ _ _ _ tall _ ran => step_tall upright ran tall
  have grabbed : handleClick font fetch depth s x y =
      .ok { s with scrollbarDragging := true, scrollbarDragStartY := y, scrollbarDragStartScroll := s.scrollY } := by
    unfold handleClick
    rw [clickAction_scrollbar (run_chrome run) onBar.2 onBar.1]
    rfl
  rw [grabbed]
  generalize held :
    ({ s with scrollbarDragging := true, scrollbarDragStartY := y, scrollbarDragStartScroll := s.scrollY } : Browser) = t
  have tall' : TallWhenScrolling t := held ▸ tall
  obtain ⟨w, moved, still⟩ := foldlM_handleMouseMove_grabbed tall' ys t.scrollY
  -- At the grab's row the drag asks for the offset kept at the grab, which is in the range.
  have back : (if t.scrollbarDragging = true ∧ 0 < t.maxScroll ∧ 0 < dragTrack t then dragOffset t y else w) =
      t.scrollY := by
    split
    · have := ok.nonneg
      have := ok.le_max
      subst held
      simp only [dragOffset, sub_self, zero_mul, Int.zero_fdiv, add_zero]
      omega
    · next idle => exact still idle
  show (ys ++ [y]).foldlM (fun u y' => u.handleMouseMove y') t = .ok t
  rw [List.foldlM_append, show t = { t with scrollY := t.scrollY } from rfl, moved]
  show ({ t with scrollY := w } : Browser).handleMouseMove y >>= pure = _
  rw [handleMouseMove_grabbed tall', back]
  rfl

unseal parseFrom decodeFrom in
/--
A page 88 pixels high in a content area 30 high, grabbed at the scrollbar's row 30: dragged down to 60 it scrolls to
the end, 58, and dragged back to 30 it is back at the top.
-/
theorem run_drag_back_restores_page :
    let fetch : String → Except PyError (Int × String) := fun _ => .ok (200, "<p>hi</p>")
    let s := (((Browser.new false).resizeWindow 640 56).enter "http://a.com/" false false).load Font.fixed "<p>hi</p>"
    0 < s.maxScroll ∧ 0 < dragTrack s ∧
      (handleClick Font.fixed fetch 1 s 635 30 >>= fun t => [60].foldlM (fun u y' => u.handleMouseMove y') t) =
        .ok { s with scrollbarDragging := true, scrollbarDragStartY := 30, scrollbarDragStartScroll := 0, scrollY := 58 } ∧
      Font.fixed.Upright ∧ Reaches Font.fixed KeepsChrome (Browser.new false) s ∧
      (s.winW - scrollbarW ≤ 635 ∧ s.contentY ≤ 30) ∧
      (handleClick Font.fixed fetch 1 s 635 30 >>= fun t => ([60] ++ [30]).foldlM (fun u y' => u.handleMouseMove y') t) =
        .ok { s with scrollbarDragging := true, scrollbarDragStartY := 30, scrollbarDragStartScroll := s.scrollY } := by
  intro fetch s
  have run : Reaches Font.fixed KeepsChrome (Browser.new false) s :=
    .step fetch 1 (.navigate "http://a.com/")
      (.step fetch 1 (.resize 640 56) .refl (show 0 ≤ ((Browser.new false).resizeWindow 640 56).contentH by decide) rfl)
      trivial rfl
  have onBar : s.winW - scrollbarW ≤ 635 ∧ s.contentY ≤ 30 := by decide
  exact ⟨by decide, by decide, rfl, fixed_upright, run, onBar,
    run_drag_back_restores Font.fixed fixed_upright fetch 1 false s run 635 30 onBar [60]⟩

/-! ## Resizing back -/

/-- The content area `__init__` and `handle_resize` give a window: its height below the chrome, and its width less
the margins and the scrollbar. -/
def Sized (s : Browser) : Prop :=
  s.contentH = (if s.kioskMode then s.winH - 20 else s.winH - s.contentY) ∧ s.contentW = s.winW - margin * 2 - scrollbarW

/-- A new browser's content area is that of its window. -/
theorem new_sized (kioskMode : Bool) : Sized (Browser.new kioskMode) := by
  cases kioskMode <;> exact ⟨rfl, rfl⟩

/-- Every event keeps the content area that of the window: only a resize moves either, and it moves both. -/
theorem step_sized {fetch : String → Except PyError (Int × String)} {depth : Nat} {s s' : Browser} {e : Event}
    (ran : step font fetch depth s e = .ok s') (sized : Sized s) : Sized s' := by
  rcases step_moves ran with move | ⟨w, h, -, resized⟩
  · have window : SameWindow s s' := by
      cases move with
      | navigated went => exact went.window
      | edited same => exact same.window
      | scrolled _ => exact ⟨rfl, rfl, rfl, rfl, rfl, rfl⟩
    unfold Sized
    rw [window.contentH, window.kioskMode, window.winH, window.contentY, window.contentW, window.winW]
    exact sized
  · rcases handleResize_ok resized with ⟨-, rfl⟩ | ⟨-, rfl⟩
    · exact ⟨rfl, rfl⟩
    · rw [clampScroll_eq]
      exact ⟨rfl, rfl⟩

/-- Resizing a window to its own size changes nothing. -/
theorem resizeWindow_self {s : Browser} (sized : Sized s) : s.resizeWindow s.winW s.winH = s := by
  unfold resizeWindow
  rw [← sized.1, ← sized.2]

/-- A layout on show, with the range it gives, is what laying the kept body out again at the same width gives. -/
theorem relayout_self {s : Browser} (laid : Laid font s) (range : s.maxScroll = max 0 (s.contentHeight - s.contentH)) :
    s.relayout font s.currentHtml = s := by
  unfold relayout
  rw [← laid, ← range]

/-- The layout on show is that of the kept body, once there is one. -/
def KeptLaid (font : Font) (s : Browser) : Prop :=
  s.currentHtml ≠ "" → Laid font s

/-- Every event keeps a kept body's layout on show: a navigation lays one out, and no other event drops one. -/
theorem step_keptLaid {fetch : String → Except PyError (Int × String)} {depth : Nat} {s s' : Browser} {e : Event}
    (ran : step font fetch depth s e = .ok s') (laid : KeptLaid font s) : KeptLaid font s' := by
  rcases step_moves ran with move | ⟨w, h, -, resized⟩
  · cases move with
    | navigated went =>
      obtain ⟨t, body, -, -, -, rfl⟩ := went
      exact fun _ => load_laid font t body
    | edited same => exact fun kept => (Moves.edited same).laid (laid (same.currentHtml ▸ kept))
    | scrolled move => exact fun kept => (Moves.scrolled move).laid (laid kept)
  · intro kept
    rcases handleResize_ok resized with ⟨empty, rfl⟩ | ⟨-, rfl⟩
    · exact absurd empty kept
    · exact handleResize_laid resized (laid (by rw [clampScroll_eq] at kept; exact kept))

/--
In every state a run reaches in which no resize hides the content area, resizing the window and resizing it back to
its size leaves the browser as it was but for the offset, which can only have moved up the page: the window, the
layout and the range are those of the size, and only the clamp at the other size is kept.
-/
theorem run_resize_back_restores (font : Font) (upright : font.Upright) (kioskMode : Bool) (s : Browser)
    (run : Reaches font KeepsChrome (Browser.new kioskMode) s) (w h : Int) :
    ∃ v, 0 ≤ v ∧ v ≤ s.scrollY ∧
      (handleResize font s w h >>= fun t => handleResize font t s.winW s.winH) = .ok { s with scrollY := v } := by
  have ok := run.invariant (new_scrollOk kioskMode) fun _ _ _ _ _ ok admitted ran => step_scrollOk admitted ran ok
  have tall := run.invariant (new_tall kioskMode) fun _ _ _ _ _ tall _ ran => step_tall upright ran tall
  have sized := run.invariant (new_sized kioskMode) fun _ _ _ _ _ sized _ ran => step_sized ran sized
  have laid := run.invariant (fun kept => absurd rfl kept : KeptLaid font (Browser.new kioskMode))
    fun _ _ _ _ _ laid _ ran => step_keptLaid ran laid
  have := ok.nonneg
  by_cases empty : s.currentHtml = ""
  · -- Without a body only the window changes, and it changes back.
    refine ⟨s.scrollY, ok.nonneg, le_rfl, ?_⟩
    rw [handleResize_empty empty]
    exact (handleResize_empty empty _ _).trans (congrArg Except.ok (resizeWindow_self sized))
  · -- With a body, the second layout is at the window's own width: the one on show.
    rw [handleResize_kept upright empty, clampScroll_eq]
    generalize clamped : min ((s.resizeWindow w h).relayout font s.currentHtml).scrollY
      ((s.resizeWindow w h).relayout font s.currentHtml).maxScroll = v
    have within : 0 ≤ v ∧ v ≤ s.scrollY := by
      rw [← clamped, relayout_scrollY, relayout_maxScroll, resizeWindow_scrollY]
      exact ⟨le_min ok.nonneg (le_max_left _ _), min_le_left _ _⟩
    refine ⟨v, within.1, within.2, ?_⟩
    show handleResize font { (s.resizeWindow w h).relayout font s.currentHtml with scrollY := v } s.winW s.winH = _
    have within' : v ≤ s.maxScroll := within.2.trans ok.le_max
    rw [handleResize_kept upright (show ({ (s.resizeWindow w h).relayout font s.currentHtml with scrollY := v } :
      Browser).currentHtml ≠ "" from empty)]
    calc _ = Except.ok ({ (s.resizeWindow s.winW s.winH).relayout font s.currentHtml with scrollY := v } :
          Browser).clampScroll := rfl
      _ = .ok { s with scrollY := v } := by
        rw [resizeWindow_self sized, relayout_self (laid empty) (ok.range empty), clampScroll_eq]
        dsimp only
        rw [min_eq_left within']

unseal parseFrom decodeFrom in
/-- A page with a paragraph, resized to 320 by 200 and back. -/
theorem run_resize_back_restores_page :
    let s := ((Browser.new false).enter "http://a.com/" false false).load Font.fixed "<p>hi</p>"
    Font.fixed.Upright ∧ Reaches Font.fixed KeepsChrome (Browser.new false) s ∧
      ∃ v, 0 ≤ v ∧ v ≤ s.scrollY ∧
        (handleResize Font.fixed s 320 200 >>= fun t => handleResize Font.fixed t s.winW s.winH) =
          .ok { s with scrollY := v } :=
  have run : Reaches Font.fixed KeepsChrome (Browser.new false)
      (((Browser.new false).enter "http://a.com/" false false).load Font.fixed "<p>hi</p>") :=
    .step (fun _ => .ok (200, "<p>hi</p>")) 1 (.navigate "http://a.com/") .refl trivial rfl
  ⟨fixed_upright, run, run_resize_back_restores Font.fixed fixed_upright false _ run 320 200⟩

end Browser

end Kivi
