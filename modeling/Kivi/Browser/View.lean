import Kivi.Browser.Invariants

/-!
The view over the page: every block on show can be scrolled into view, dragging the scrollbar further down never
scrolls back up, and a second resize to the same size changes nothing.
-/

namespace Kivi

namespace Browser

variable {font : Font}

/-! ## Every block within reach -/

/--
What the scroll range lets the reader see: every block on show ends above the bottom of the view at the largest
offset, and nothing is on show before a body is kept.
-/
structure InReach (s : Browser) : Prop where
  /-- Nothing is on show without a body. -/
  empty : s.currentHtml = "" → s.blocks = []
  /-- At the largest offset, the bottom of the view is below every block. -/
  reach : ∀ b ∈ s.blocks, b.y + b.h ≤ s.maxScroll + s.contentH

/-- A new browser shows nothing. -/
theorem new_inReach (kioskMode : Bool) : InReach (Browser.new kioskMode) :=
  ⟨fun _ => rfl, nofun⟩

/-- A layout's blocks end above its height, so above the bottom of the view at the largest offset it gives. -/
theorem relayout_reach (upright : font.Upright) (s : Browser) (html : String) :
    ∀ b ∈ (s.relayout font html).blocks, b.y + b.h ≤ (s.relayout font html).maxScroll + (s.relayout font html).contentH := by
  intro b member
  have := layoutDocument_bottom_le upright s.contentW (parseHtml html) b member
  simp only [relayout_maxScroll, relayout_contentH]
  omega

/-- A body laid out and kept is within reach; an empty one shows nothing. -/
theorem load_inReach (upright : font.Upright) (t : Browser) (body : String) : InReach (t.load font body) := by
  refine ⟨fun empty => ?_, relayout_reach upright t body⟩
  rw [load_currentHtml] at empty
  rw [load_blocks, empty, relayout_blocks, layoutDocument_parse_empty]

/-- Navigation, editing and scrolling keep every block within reach. -/
theorem Moves.inReach (upright : font.Upright) {s s' : Browser} (move : Moves font s s') (inReach : InReach s) :
    InReach s' := by
  cases move with
  | navigated went =>
    obtain ⟨t, body, -, -, -, rfl⟩ := went
    exact load_inReach upright t body
  | edited same =>
    obtain ⟨window, -, -, -, blocks, -, -, range, -, html⟩ := same
    refine ⟨fun empty => blocks ▸ inReach.empty (html ▸ empty), fun b member => ?_⟩
    rw [range, window.contentH]
    exact inReach.reach b (blocks ▸ member)
  | scrolled _ => exact ⟨inReach.empty, inReach.reach⟩

/-- A resize keeps every block within reach: a kept body is laid out again, with the range of the new layout. -/
theorem handleResize_inReach (upright : font.Upright) {s s' : Browser} {w h : Int}
    (ran : handleResize font s w h = .ok s') (inReach : InReach s) : InReach s' := by
  rcases handleResize_ok ran with ⟨empty, rfl⟩ | ⟨kept, rfl⟩
  · -- Without a body nothing is on show, at any size.
    have nothing : s.blocks = [] := inReach.empty empty
    exact ⟨fun _ => nothing, fun b member => absurd (show b ∈ s.blocks from member) (nothing ▸ List.not_mem_nil b)⟩
  · have laid := relayout_reach upright (s.resizeWindow w h) s.currentHtml
    unfold clampScroll
    split <;> exact ⟨fun empty => absurd empty kept, laid⟩

/-- Every event keeps every block within reach. -/
theorem step_inReach (upright : font.Upright) {fetch : String → Except PyError (Int × String)} {depth : Nat}
    {s s' : Browser} {e : Event} (ran : step font fetch depth s e = .ok s') (inReach : InReach s) : InReach s' := by
  rcases step_moves ran with move | ⟨w, h, -, resized⟩
  · exact move.inReach upright inReach
  · exact handleResize_inReach upright resized inReach

/--
With non-negative line heights, in every state a run from a new browser reaches, whatever the events and the
fetches, every block on show can be scrolled into view: at the largest offset, the bottom of the view is below it.
-/
theorem run_blocks_in_reach (font : Font) (upright : font.Upright) (kioskMode : Bool) (s : Browser)
    (run : Reaches font anyEvent (Browser.new kioskMode) s) : ∀ b ∈ s.blocks, b.y + b.h ≤ s.maxScroll + s.contentH :=
  (run.invariant (new_inReach kioskMode) fun _ _ _ _ _ inReach _ ran => step_inReach upright ran inReach).reach

unseal parseFrom decodeFrom in
/-- The fixed-pitch font, after one page with a paragraph. -/
theorem run_blocks_in_reach_page :
    let s := ((Browser.new false).enter "http://a.com/" false false).load Font.fixed "<p>hi</p>"
    Font.fixed.Upright ∧ Reaches Font.fixed anyEvent (Browser.new false) s ∧
      ∀ b ∈ s.blocks, b.y + b.h ≤ s.maxScroll + s.contentH :=
  have run : Reaches Font.fixed anyEvent (Browser.new false)
      (((Browser.new false).enter "http://a.com/" false false).load Font.fixed "<p>hi</p>") :=
    .step (fun _ => .ok (200, "<p>hi</p>")) 1 (.navigate "http://a.com/") .refl trivial rfl
  ⟨fixed_upright, run, run_blocks_in_reach Font.fixed fixed_upright false _ run⟩

/-! ## Dragging the scrollbar -/

/-- The track the scrollbar's thumb moves along: the content height less the thumb's, the thumb at least 20 high. -/
def dragTrack (s : Browser) : Int :=
  s.contentH - max 20 ((s.contentH * s.contentH).fdiv s.contentHeight)

/-- The offset a drag to `y` asks for: the grab's offset moved in proportion to the pointer, clamped to the range. -/
def dragOffset (s : Browser) (y : Int) : Int :=
  max 0 (min s.maxScroll (s.scrollbarDragStartScroll + ((y - s.scrollbarDragStartY) * s.maxScroll).fdiv (dragTrack s)))

/-- Where a mouse move leaves the offset: during a drag over a track, where the drag asks; otherwise where it was. -/
theorem handleMouseMove_scrollY {s s' : Browser} {y : Int} (ran : s.handleMouseMove y = .ok s') :
    s'.scrollY =
      if s.scrollbarDragging = true ∧ 0 < s.maxScroll ∧ 0 < dragTrack s then dragOffset s y else s.scrollY := by
  unfold handleMouseMove at ran
  split at ran
  · next dragging =>
    obtain ⟨thumbH, got, rest⟩ := bind_eq_ok.mp ran
    have height : s.contentHeight ≠ 0 := fun zero => by rw [zero] at got; cases got
    rw [pyFloorDiv_of_ne_zero _ height] at got
    cases got
    dsimp only at rest
    split at rest
    · next long =>
      -- The pointer's distance, scaled to the range, moves the grab's offset.
      obtain ⟨delta, found, rest⟩ := bind_eq_ok.mp rest
      rw [pyFloorDiv_of_ne_zero _ (by omega)] at found
      cases found
      rw [if_pos ⟨dragging.1, dragging.2, long⟩]
      split at rest
      · obtain ⟨_, -, shown⟩ := bind_eq_ok.mp rest
        cases shown
        rfl
      · next same =>
        cases rest
        exact (not_not.mp same).symm
    · next short =>
      cases rest
      exact (if_neg fun held => short held.2.2).symm
  · next idle =>
    cases ran
    exact (if_neg fun held => idle ⟨held.1, held.2.1⟩).symm

/-- A drag to a lower pointer asks for an offset at least as large. -/
theorem dragOffset_mono {s : Browser} (positive : 0 < s.maxScroll) (track : 0 < dragTrack s) {y₁ y₂ : Int}
    (below : y₁ ≤ y₂) : dragOffset s y₁ ≤ dragOffset s y₂ := by
  have scaled : (y₁ - s.scrollbarDragStartY) * s.maxScroll ≤ (y₂ - s.scrollbarDragStartY) * s.maxScroll :=
    Int.mul_le_mul_of_nonneg_right (by omega) positive.le
  have divided := Int.ediv_le_ediv track scaled
  rw [← Int.fdiv_eq_ediv _ track.le, ← Int.fdiv_eq_ediv _ track.le] at divided
  unfold dragOffset
  omega

/--
Two mouse moves from the same state: the one to the lower pointer leaves the page scrolled at least as far. A drag
only scales the pointer's distance from the grab and clamps it, so the thumb follows the pointer without going back.
-/
theorem handleMouseMove_monotone {s s₁ s₂ : Browser} {y₁ y₂ : Int} (first : s.handleMouseMove y₁ = .ok s₁)
    (second : s.handleMouseMove y₂ = .ok s₂) (below : y₁ ≤ y₂) : s₁.scrollY ≤ s₂.scrollY := by
  rw [handleMouseMove_scrollY first, handleMouseMove_scrollY second]
  split
  · next dragging => exact dragOffset_mono dragging.2.1 dragging.2.2 below
  · exact le_rfl

/-- A drag over a page of 1000 pixels with a range of 100, the pointer moved to 50 and then to 60. -/
theorem handleMouseMove_monotone_drag :
    let s := { Browser.new false with scrollbarDragging := true, maxScroll := 100, contentHeight := 1000 }
    let s₁ := (s.handleMouseMove 50).toOption.getD s
    let s₂ := (s.handleMouseMove 60).toOption.getD s
    s.handleMouseMove 50 = .ok s₁ ∧ s.handleMouseMove 60 = .ok s₂ ∧ (50 : Int) ≤ 60 ∧ s₁.scrollY ≤ s₂.scrollY := by
  intro s s₁ s₂
  have first : s.handleMouseMove 50 = .ok s₁ := rfl
  have second : s.handleMouseMove 60 = .ok s₂ := rfl
  exact ⟨first, second, by decide, handleMouseMove_monotone first second (by decide)⟩

/-! ## Resizing twice -/

/--
A second resize to the size a resize has just set changes nothing: the window and the content area are those it
sets, the kept body is laid out at the same width, and the offset is already clamped to the range.
-/
theorem handleResize_again {s s' : Browser} {w h : Int} (ran : handleResize font s w h = .ok s') :
    handleResize font s' w h = .ok s' := by
  unfold handleResize at ran ⊢
  dsimp only at ran ⊢
  split at ran
  · next empty =>
    cases ran
    have window : (s.resizeWindow w h).resizeWindow w h = s.resizeWindow w h := rfl
    rw [window, if_pos empty]
    rfl
  · next kept =>
    obtain ⟨_, drawn, shown⟩ := bind_eq_ok.mp ran
    cases shown
    generalize laid : (relayout font (s.resizeWindow w h) (s.resizeWindow w h).currentHtml).clampScroll = t
      at drawn ⊢
    -- The window, the layout and the clamped offset are already those the first resize set.
    have window : t.resizeWindow w h = t := by rw [← laid, clampScroll_eq]; rfl
    have relaid : relayout font t t.currentHtml = t := by rw [← laid, clampScroll_eq]; rfl
    have clamped : t.clampScroll = t := by
      rw [← laid, clampScroll_eq, clampScroll_eq]
      dsimp only
      rw [min_eq_left (min_le_right _ _)]
    rw [window, if_neg (show ¬t.currentHtml = "" by rw [← laid, clampScroll_eq]; exact kept), relaid, clamped, drawn]
    rfl

unseal parseFrom decodeFrom in
/-- A page with a paragraph, resized to 320 by 200, then to 320 by 200 again. -/
theorem handleResize_again_page :
    let s := ((Browser.new false).enter "http://a.com/" false false).load Font.fixed "<p>hi</p>"
    let s' := (handleResize Font.fixed s 320 200).toOption.getD s
    handleResize Font.fixed s 320 200 = .ok s' ∧ handleResize Font.fixed s' 320 200 = .ok s' := by
  intro s s'
  have ran : handleResize Font.fixed s 320 200 = .ok s' := by
    show _ = .ok ((handleResize Font.fixed s 320 200).toOption.getD s)
    rw [handleResize_kept fixed_upright (show s.currentHtml ≠ "" by decide)]
    exact congrArg Except.ok Option.getD_some.symm
  exact ⟨ran, handleResize_again ran⟩

end Browser

end Kivi
