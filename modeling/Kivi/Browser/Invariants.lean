import Kivi.Browser.Steps
import Kivi.Layout.Height
import Kivi.Python.StrLaws

/-!
What holds in every state a run of the event loop reaches: the scroll range, the scrollbar's divisors, and the layout
on show.
-/

namespace Kivi

namespace Browser

/--
The states runs of the event loop reach from `s`: each event is answered by fetches and a stack depth
of its own, and is one that `admits` allows in the state it arrives in.
-/
inductive Reaches (font : Font) (admits : Browser → Event → Prop) (s : Browser) : Browser → Prop
  | refl : Reaches font admits s s
  | step {t u : Browser} (fetch : String → Except PyError (Int × String)) (depth : Nat) (e : Event) :
      Reaches font admits s t → admits t e → step font fetch depth t e = .ok u → Reaches font admits s u

/-- Every event is admitted. -/
def anyEvent (_ : Browser) (_ : Event) : Prop :=
  True

/-- A property that holds at the start and that every admitted event keeps holds all along a run. -/
theorem Reaches.invariant {font : Font} {admits : Browser → Event → Prop} {P : Browser → Prop} {s u : Browser}
    (start : P s) (keeps : ∀ t u fetch depth e, P t → admits t e → Browser.step font fetch depth t e = .ok u → P u)
    (run : Reaches font admits s u) : P u := by
  induction run with
  | refl => exact start
  | step fetch depth e _ admitted ran held => exact keeps _ _ fetch depth e held admitted ran

variable {font : Font}

/-! ## The scroll range -/

/-- The scroll invariant: the offset in its range, a content area of no negative height, and the range
that of the layout once a body is kept. -/
structure ScrollOk (s : Browser) : Prop where
  nonneg : 0 ≤ s.scrollY
  le_max : s.scrollY ≤ s.maxScroll
  area : 0 ≤ s.contentH
  range : s.currentHtml ≠ "" → s.maxScroll = max 0 (s.contentHeight - s.contentH)

/-- Resizes that leave the content area at least zero high: the window at least as high as the chrome. -/
def KeepsChrome (s : Browser) : Event → Prop
  | .resize w h => 0 ≤ (s.resizeWindow w h).contentH
  | _ => True

/-- A new browser shows nothing from the top of an empty range. -/
theorem new_scrollOk (kioskMode : Bool) : ScrollOk (Browser.new kioskMode) :=
  ⟨le_rfl, le_rfl, by cases kioskMode <;> decide, fun kept => absurd rfl kept⟩

/-- Navigation, editing and scrolling keep the offset in range. -/
theorem Moves.scrollOk {s s' : Browser} (move : Moves font s s') (ok : ScrollOk s) : ScrollOk s' := by
  cases move with
  | navigated went =>
    -- A fresh layout from the top, in the same content area.
    obtain ⟨t, body, window, top, -, rfl⟩ := went
    have area := window.contentH ▸ ok.area
    exact ⟨top.ge, by simp [top], area, fun _ => rfl⟩
  | edited same =>
    obtain ⟨window, -, -, -, -, -, scroll, range, height, html⟩ := same
    exact ⟨scroll ▸ ok.nonneg, scroll ▸ range ▸ ok.le_max, window.contentH ▸ ok.area,
      fun kept => by rw [range, height, window.contentH]; exact ok.range (html ▸ kept)⟩
  | scrolled move =>
    -- Every key and the drag clamp the offset on the side it moves to.
    have := ok.nonneg
    have := ok.le_max
    have := ok.area
    cases move <;> exact ⟨by dsimp only; omega, by dsimp only; omega, ok.area, ok.range⟩

/-- A resize that keeps the content area keeps the offset in range. -/
theorem handleResize_scrollOk {s s' : Browser} {w h : Int} (ran : handleResize font s w h = .ok s')
    (area : 0 ≤ (s.resizeWindow w h).contentH) (ok : ScrollOk s) : ScrollOk s' := by
  rcases handleResize_ok ran with ⟨empty, rfl⟩ | ⟨-, rfl⟩
  · -- Without a body the offset and range stay, and the range says nothing.
    exact ⟨ok.nonneg, ok.le_max, area, fun kept => absurd empty kept⟩
  · -- The new range is clamped to, from a non-negative offset.
    have := ok.nonneg
    unfold clampScroll
    split
    · exact ⟨by simp, le_rfl, area, fun _ => rfl⟩
    · exact ⟨ok.nonneg, by simp only [relayout_scrollY] at *; omega, area, fun _ => rfl⟩

/-- Every admitted event that returns keeps the offset in range. -/
theorem step_scrollOk {fetch : String → Except PyError (Int × String)} {depth : Nat} {s s' : Browser} {e : Event}
    (admitted : KeepsChrome s e) (ran : step font fetch depth s e = .ok s') (ok : ScrollOk s) : ScrollOk s' := by
  rcases step_moves ran with move | ⟨w, h, rfl, resized⟩
  · exact move.scrollOk ok
  · exact handleResize_scrollOk resized admitted ok

/--
In every run from a new browser in which no resize makes the content area negative, the offset stays
between 0 and the largest offset, and once a body is kept the largest offset is that of its layout.
-/
theorem run_scroll_in_range (font : Font) (kioskMode : Bool) (s : Browser)
    (run : Reaches font KeepsChrome (Browser.new kioskMode) s) :
    0 ≤ s.scrollY ∧ s.scrollY ≤ s.maxScroll ∧
      (s.currentHtml ≠ "" → s.maxScroll = max 0 (s.contentHeight - s.contentH)) := by
  have ok := run.invariant (new_scrollOk kioskMode) fun _ _ _ _ _ ok admitted ran => step_scrollOk admitted ran ok
  exact ⟨ok.nonneg, ok.le_max, ok.range⟩

unseal parseFrom decodeFrom in
/-- A page 88 pixels high in a content area 30 high, paged down with End twice: to 30, then clamped to 58. -/
theorem run_scroll_in_range_end_twice :
    let s₁ := ((Browser.new false).resizeWindow 640 56).enter "http://a.com/" false false
    let s := { s₁.load Font.fixed "<p>hi</p>" with scrollY := 58 }
    Reaches Font.fixed KeepsChrome (Browser.new false) s ∧
      0 ≤ s.scrollY ∧ s.scrollY ≤ s.maxScroll ∧
      (s.currentHtml ≠ "" → s.maxScroll = max 0 (s.contentHeight - s.contentH)) := by
  intro s₁ s
  -- A resize to a 30-pixel content area, a page 88 pixels high, and End twice.
  let fetch : String → Except PyError (Int × String) := fun _ => .ok (200, "<p>hi</p>")
  have run : Reaches Font.fixed KeepsChrome (Browser.new false) s :=
    .step fetch 1 (.key 0x10A) (.step fetch 1 (.key 0x10A) (.step fetch 1 (.navigate "http://a.com/")
      (.step fetch 1 (.resize 640 56) .refl (show 0 ≤ ((Browser.new false).resizeWindow 640 56).contentH by decide) rfl)
      trivial rfl) trivial rfl) trivial rfl
  exact ⟨run, run_scroll_in_range Font.fixed false s run⟩

/-- Resizes to any window of no negative size. -/
def NonnegSize (_ : Browser) : Event → Prop
  | .resize w h => 0 ≤ w ∧ 0 ≤ h
  | _ => True

unseal parseFrom in
/--
A window lower than its chrome breaks the range: after a page is loaded, a 50-pixel window keeps a largest
offset of 0 where the layout asks for more; before any page, End scrolls to a negative offset in a 0-pixel one.
-/
theorem scroll_range_fails_on_short_windows :
    (∃ s, Reaches Font.fixed NonnegSize (Browser.new false) s ∧ s.maxScroll ≠ max 0 (s.contentHeight - s.contentH)) ∧
      ∃ s, Reaches Font.fixed NonnegSize (Browser.new false) s ∧ s.scrollY < 0 := by
  constructor
  · refine ⟨_, .step (fun _ => .ok (200, "")) 1 (.resize 640 50)
      (.step (fun _ => .ok (200, "")) 1 (.navigate "http://a.com/") .refl trivial rfl) ⟨by decide, by decide⟩ rfl, ?_⟩
    decide
  · refine ⟨_, .step (fun _ => .ok (200, "")) 1 (.key 0x10A)
      (.step (fun _ => .ok (200, "")) 1 (.resize 640 0) .refl ⟨by decide, by decide⟩ rfl) trivial rfl, ?_⟩
    decide

/-! ## The scrollbar's divisors -/

/-- A scroll range only over a page at least four margins high, the height the scrollbar divides by. -/
def TallWhenScrolling (s : Browser) : Prop :=
  0 < s.maxScroll → 4 * margin ≤ s.contentHeight

/-- Over a page with a range, the scrollbar's first divisor, the page's height, is not zero. -/
theorem TallWhenScrolling.height_ne_zero {s : Browser} (tall : TallWhenScrolling s) (positive : 0 < s.maxScroll) :
    s.contentHeight ≠ 0 := by
  have high := tall positive
  unfold margin at high
  omega

/-- `draw_scrollbar` returns: it divides by the page's height and by the range only when the range is positive. -/
theorem drawScrollbar_ok {s : Browser} (tall : TallWhenScrolling s) : s.drawScrollbar = .ok () := by
  unfold drawScrollbar
  split
  · rfl
  · rename_i empty
    rw [pyFloorDiv_of_ne_zero _ (tall.height_ne_zero (by omega))]
    dsimp only [bind, Except.bind]
    rw [pyFloorDiv_of_ne_zero _ (by omega : s.maxScroll ≠ 0)]
    rfl

/-- `handle_mouse_move` returns: a drag divides by the page's height, and by the track only when it is positive. -/
theorem handleMouseMove_ok {s : Browser} (tall : TallWhenScrolling s)
    (y : Int) : ∃ s', s.handleMouseMove y = .ok s' := by
  unfold handleMouseMove
  split
  · rename_i dragging
    rw [pyFloorDiv_of_ne_zero _ (tall.height_ne_zero dragging.2)]
    dsimp only [bind, Except.bind]
    split
    · rename_i track
      rw [pyFloorDiv_of_ne_zero _ (ne_of_gt track)]
      dsimp only
      split
      · -- The moved state keeps the range and the height, so it draws.
        have drawn : ∀ v, ({ s with scrollY := v } : Browser).drawScrollbar = .ok () := fun _ => drawScrollbar_ok tall
        rw [draw, drawn]
        exact ⟨_, rfl⟩
      · exact ⟨_, rfl⟩
    · exact ⟨_, rfl⟩
  · exact ⟨_, rfl⟩

/-- A new browser has no range. -/
theorem new_tall (kioskMode : Bool) : TallWhenScrolling (Browser.new kioskMode) :=
  fun positive => absurd positive (lt_irrefl 0)

/-- With non-negative line heights, every laid-out page is at least four margins high. -/
theorem relayout_tall (upright : font.Upright) (s : Browser) (html : String) :
    TallWhenScrolling (s.relayout font html) :=
  fun _ => layoutDocument_height_ge upright _ _

/-- Navigation lays a page out, and editing and scrolling keep the range and the height. -/
theorem Moves.tall (upright : font.Upright) {s s' : Browser} (move : Moves font s s') (tall : TallWhenScrolling s) :
    TallWhenScrolling s' := by
  cases move with
  | navigated went =>
    obtain ⟨t, body, -, -, -, rfl⟩ := went
    exact relayout_tall upright t body
  | edited same =>
    unfold TallWhenScrolling
    rw [same.maxScroll, same.contentHeight]
    exact tall
  | scrolled _ => exact tall

/-- A resize keeps the range and the height, or lays the page out again. -/
theorem handleResize_tall (upright : font.Upright) {s s' : Browser} {w h : Int} (ran : handleResize font s w h = .ok s')
    (tall : TallWhenScrolling s) : TallWhenScrolling s' := by
  rcases handleResize_ok ran with ⟨-, rfl⟩ | ⟨-, rfl⟩
  · exact tall
  · unfold clampScroll
    split <;> exact relayout_tall upright _ _

/-- Every event that returns keeps a range only over a page at least four margins high. -/
theorem step_tall (upright : font.Upright) {fetch : String → Except PyError (Int × String)} {depth : Nat}
    {s s' : Browser} {e : Event} (ran : step font fetch depth s e = .ok s') (tall : TallWhenScrolling s) :
    TallWhenScrolling s' := by
  rcases step_moves ran with move | ⟨w, h, -, resized⟩
  · exact move.tall upright tall
  · exact handleResize_tall upright resized tall

/-- Clamping the offset puts it at most at the largest offset. -/
theorem clampScroll_eq (t : Browser) : t.clampScroll = { t with scrollY := min t.scrollY t.maxScroll } := by
  unfold clampScroll
  split
  · next over => rw [min_eq_right (le_of_lt over)]
  · next within => rw [min_eq_left (not_lt.mp within)]

/-- A resize without a body sets the window only. -/
theorem handleResize_empty {s : Browser} (empty : s.currentHtml = "") (w h : Int) :
    handleResize font s w h = .ok (s.resizeWindow w h) := by
  unfold handleResize
  dsimp only
  rw [resizeWindow_currentHtml, if_pos empty]
  rfl

/-- With non-negative line heights, a resize with a body lays it out at the new width and clamps the offset. -/
theorem handleResize_kept (upright : font.Upright) {s : Browser} (kept : s.currentHtml ≠ "") (w h : Int) :
    handleResize font s w h = .ok ((s.resizeWindow w h).relayout font s.currentHtml).clampScroll := by
  have drawn : ((s.resizeWindow w h).relayout font s.currentHtml).clampScroll.draw = .ok () := by
    rw [clampScroll_eq]
    exact drawScrollbar_ok (relayout_tall upright (s.resizeWindow w h) s.currentHtml)
  unfold handleResize
  dsimp only
  rw [resizeWindow_currentHtml, if_neg kept, drawn]
  rfl

/-- The blocks, link regions and height on show are the layout of the kept body at the current width. -/
def Laid (font : Font) (s : Browser) : Prop :=
  (s.blocks, s.links, s.contentHeight) = layoutDocument font s.contentW (parseHtml s.currentHtml)

/-- A loaded body is laid out at the width of the state it is loaded in. -/
theorem load_laid (font : Font) (t : Browser) (body : String) : Laid font (t.load font body) :=
  rfl

/-- Without a body, the page is the same empty layout at every width. -/
theorem layoutDocument_parse_empty (font : Font) (contentW : Int) :
    layoutDocument font contentW (parseHtml "") = ([], [], 40) := by
  rw [parseHtml, parseFrom.eq_1]
  rfl

/-- No move other than a resize leaves a stale layout. -/
theorem Moves.laid {s s' : Browser} (move : Moves font s s') (laid : Laid font s) : Laid font s' := by
  cases move with
  | navigated went =>
    obtain ⟨t, body, -, -, -, rfl⟩ := went
    exact load_laid font t body
  | edited same =>
    unfold Laid at laid ⊢
    rw [same.blocks, same.links, same.contentHeight, same.window.contentW, same.currentHtml]
    exact laid
  | scrolled _ => exact laid

/-- A resize lays the body out again at the new width, and an absent body looks the same at every width. -/
theorem handleResize_laid {s s' : Browser} {w h : Int} (ran : handleResize font s w h = .ok s')
    (laid : Laid font s) : Laid font s' := by
  rcases handleResize_ok ran with ⟨empty, rfl⟩ | ⟨-, rfl⟩
  · unfold Laid at laid ⊢
    simp only [resizeWindow_blocks, resizeWindow_links, resizeWindow_contentHeight, resizeWindow_currentHtml,
      empty, layoutDocument_parse_empty] at laid ⊢
    exact laid
  · -- Clamping the scroll touches nothing that is laid out.
    unfold clampScroll
    split <;> rfl

/-- Every event that returns keeps the layout on show current. -/
theorem step_laid {fetch : String → Except PyError (Int × String)} {depth : Nat} {s s' : Browser} {e : Event}
    (ran : step font fetch depth s e = .ok s') (laid : Laid font s) : Laid font s' := by
  rcases step_moves ran with move | ⟨w, h, -, resized⟩
  · exact move.laid laid
  · exact handleResize_laid resized laid

/--
After a `navigate` returns, every state the event loop reaches shows the layout of the kept body at the
current width, whatever the later events, fetches and redirects.
-/
theorem run_shows_current_layout (font : Font) (fetch : String → Except PyError (Int × String)) (depth : Nat)
    (s₀ s₁ s : Browser) (url : String) (fromBack fromForward : Bool)
    (first : navigate font fetch depth s₀ url fromBack fromForward = .ok s₁) (run : Reaches font anyEvent s₁ s) :
    (s.blocks, s.links, s.contentHeight) = layoutDocument font s.contentW (parseHtml s.currentHtml) := by
  -- The first navigation lays a body out; every later event keeps it current.
  obtain ⟨t, body, -, -, -, rfl⟩ := navigate_ok first
  exact run.invariant (load_laid font t body) fun _ _ _ _ _ laid _ ran => step_laid ran laid

unseal parseFrom decodeFrom in
/-- A first page with a paragraph, a link followed to a second one, a line down, and a resize that lays it out again. -/
theorem run_shows_current_layout_resized :
    let fetch : String → Except PyError (Int × String) := fun _ => .ok (200, "<p>hi</p>")
    let s₁ := ((Browser.new false).enter "http://a.com/" false false).load Font.fixed "<p>hi</p>"
    let s₂ := (s₁.enter "http://a.com/b.html" false false).load Font.fixed "<p>hi</p>"
    let s₃ := { s₂ with scrollY := min s₂.maxScroll (s₂.scrollY + 20) }
    let s := ((s₃.resizeWindow 320 200).relayout Font.fixed s₃.currentHtml).clampScroll
    (navigate Font.fixed fetch 1 (Browser.new false) "http://a.com/" false false = .ok s₁ ∧
      Reaches Font.fixed anyEvent s₁ s) ∧
    (s.blocks, s.links, s.contentHeight) = layoutDocument Font.fixed s.contentW (parseHtml s.currentHtml) := by
  intro fetch s₁ s₂ s₃ s
  have first : navigate Font.fixed fetch 1 (Browser.new false) "http://a.com/" false false = .ok s₁ := rfl
  have run : Reaches Font.fixed anyEvent s₁ s :=
    .step fetch 1 (.resize 320 200)
      (.step fetch 1 (.key 0x101) (.step fetch 1 (.navigate "b.html") .refl trivial rfl) trivial rfl) trivial
      (show handleResize Font.fixed s₃ 320 200 = .ok s from
        handleResize_kept fixed_upright (show s₃.currentHtml ≠ "" by decide) 320 200)
  exact ⟨⟨first, run⟩, run_shows_current_layout Font.fixed fetch 1 _ _ _ _ _ _ first run⟩

end Browser

end Kivi
