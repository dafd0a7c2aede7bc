import Kivi.Browser.Controller

/-! What one event can do to the browser: every handler's successful outcomes, said once. -/

namespace Kivi

/-- A computation that returns a value at once returns exactly it. -/
theorem pure_eq_ok {ε α : Type} {a b : α} (ran : (pure a : Except ε α) = .ok b) : b = a :=
  (Except.ok.inj ran).symm

/-- A bind that succeeds has a first step that succeeds. -/
theorem bind_eq_ok {ε α β : Type} {x : Except ε α} {f : α → Except ε β} {b : β} :
    x >>= f = .ok b ↔ ∃ a, x = .ok a ∧ f a = .ok b := by
  cases x <;> simp [bind, Except.bind]

namespace Browser

/-- Two states with the same window: mode, size and content area. -/
structure SameWindow (s t : Browser) : Prop where
  kioskMode : t.kioskMode = s.kioskMode
  winW : t.winW = s.winW
  winH : t.winH = s.winH
  contentY : t.contentY = s.contentY
  contentH : t.contentH = s.contentH
  contentW : t.contentW = s.contentW

/-- Every state has its own window. -/
theorem SameWindow.refl (s : Browser) : SameWindow s s :=
  ⟨rfl, rfl, rfl, rfl, rfl, rfl⟩

/-- Keeping the window twice keeps it. -/
theorem SameWindow.trans {s t u : Browser} (first : SameWindow s t) (second : SameWindow t u) : SameWindow s u :=
  ⟨second.1.trans first.1, second.2.trans first.2, second.3.trans first.3, second.4.trans first.4,
    second.5.trans first.5, second.6.trans first.6⟩

/-- The history bookkeeping writes the two stacks and nothing else. -/
theorem record_frame (s : Browser) (fromBack fromForward : Bool) :
    ∃ back fwd, s.record fromBack fromForward = { s with history := back, forwardHistory := fwd } := by
  unfold record
  split_ifs <;> exact ⟨_, _, rfl⟩

/-- `navigate` fetches in the window it was called in. -/
theorem enter_window (s : Browser) (url : String) (fromBack fromForward : Bool) :
    SameWindow s (s.enter url fromBack fromForward) := by
  obtain ⟨back, fwd, recorded⟩ := record_frame s fromBack fromForward
  simp only [SameWindow.refl, enter, recorded]
  exact ⟨rfl, rfl, rfl, rfl, rfl, rfl⟩

/-- A completed navigation from `s`: a body laid out at an absolute URL, in the window of `s`, at the top of the page. -/
def Navigated (font : Font) (s s' : Browser) : Prop :=
  ∃ t body, SameWindow s t ∧ t.scrollY = 0 ∧ isAbsoluteUrl t.url = true ∧ s' = t.load font body

/-- A navigation from a state in the same window is one from the first. -/
theorem Navigated.of_window {font : Font} {s t s' : Browser} (same : SameWindow s t) (went : Navigated font t s') :
    Navigated font s s' := by
  obtain ⟨u, body, window, top, shown, rfl⟩ := went
  exact ⟨u, body, same.trans window, top, shown, rfl⟩

/-- Two states that show the same page at the same place: only the address bar and the scrollbar grab differ. -/
structure SameView (s t : Browser) : Prop where
  window : SameWindow s t
  url : t.url = s.url
  history : t.history = s.history
  forwardHistory : t.forwardHistory = s.forwardHistory
  blocks : t.blocks = s.blocks
  links : t.links = s.links
  scrollY : t.scrollY = s.scrollY
  maxScroll : t.maxScroll = s.maxScroll
  contentHeight : t.contentHeight = s.contentHeight
  currentHtml : t.currentHtml = s.currentHtml

/-- Every state shows its own view. -/
theorem SameView.refl (s : Browser) : SameView s s :=
  ⟨⟨rfl, rfl, rfl, rfl, rfl, rfl⟩, rfl, rfl, rfl, rfl, rfl, rfl, rfl, rfl, rfl⟩

/-- The offsets the scroll keys and a scrollbar drag can set. -/
inductive ScrollMove (s : Browser) : Int → Prop
  | up : ScrollMove s (max 0 (s.scrollY - 20))
  | down : ScrollMove s (min s.maxScroll (s.scrollY + 20))
  | pageUp : ScrollMove s (max 0 (s.scrollY - s.contentH))
  | pageDown : ScrollMove s (min s.maxScroll (s.scrollY + s.contentH))
  | drag (target : Int) : ScrollMove s (max 0 (min s.maxScroll target))

/-- What an event other than a resize can do to the browser, whatever the platform answers. -/
inductive Moves (font : Font) (s : Browser) : Browser → Prop
  /-- A completed navigation. -/
  | navigated {t : Browser} : Navigated font s t → Moves font s t
  /-- Address editing and scrollbar grabs. -/
  | edited {t : Browser} : SameView s t → Moves font s t
  /-- A scroll key or a drag. -/
  | scrolled {v : Int} : ScrollMove s v → Moves font s { s with scrollY := v }

/-- A navigation keeps the window it started in. -/
theorem Navigated.window {font : Font} {s s' : Browser} (went : Navigated font s s') : SameWindow s s' := by
  obtain ⟨t, body, same, -, -, rfl⟩ := went
  exact same.trans ⟨rfl, rfl, rfl, rfl, rfl, rfl⟩

/-- A navigation ends at an absolute URL. -/
theorem Navigated.absolute {font : Font} {s s' : Browser}
    (went : Navigated font s s') : isAbsoluteUrl s'.url = true := by
  obtain ⟨t, body, -, -, absolute, rfl⟩ := went
  exact absolute

section Handlers

variable {font : Font} {fetch : String → Except PyError (Int × String)}

/-- A `navigate` that returns has laid out the body of the last hop, from the top, in the same window. -/
theorem navigate_ok : ∀ {depth : Nat} {s : Browser} {target : String} {fromBack fromForward : Bool} {s' : Browser},
    navigate font fetch depth s target fromBack fromForward = .ok s' → Navigated font s s'
  | 0, _, _, _, _, _, ran => by cases ran
  | depth + 1, s, target, fromBack, fromForward, s', ran => by
    rw [navigate] at ran
    obtain ⟨url, resolved, ran⟩ := bind_eq_ok.mp ran
    obtain ⟨⟨status, body⟩, -, rest⟩ := bind_eq_ok.mp ran
    dsimp only at rest
    split at rest
    · -- A redirect: the next hop starts from the state shown for this one.
      exact (navigate_ok rest).of_window (enter_window s url fromBack fromForward)
    · -- The last hop: its body is laid out, and drawing it returned.
      obtain ⟨_, -, shown⟩ := bind_eq_ok.mp rest
      cases shown
      exact ⟨_, _, enter_window s url fromBack fromForward, rfl, resolveUrl_absolute resolved, rfl⟩

/-- `back` either does nothing or navigates from a state in the same window. -/
theorem back_ok {depth : Nat} {s s' : Browser} (ran : back font fetch depth s = .ok s') :
    s' = s ∨ Navigated font s s' := by
  unfold back at ran
  split at ran
  · exact .inl (pure_eq_ok ran)
  · exact .inr ((navigate_ok ran).of_window (by exact ⟨rfl, rfl, rfl, rfl, rfl, rfl⟩))

/-- `forward` either does nothing or navigates from a state in the same window. -/
theorem forward_ok {depth : Nat} {s s' : Browser} (ran : forward font fetch depth s = .ok s') :
    s' = s ∨ Navigated font s s' := by
  unfold forward at ran
  split at ran
  · exact .inl (pure_eq_ok ran)
  · exact .inr ((navigate_ok ran).of_window (by exact ⟨rfl, rfl, rfl, rfl, rfl, rfl⟩))

/-- `refresh` either does nothing or navigates from a state in the same window. -/
theorem refresh_ok {depth : Nat} {s s' : Browser} (ran : refresh font fetch depth s = .ok s') :
    s' = s ∨ Navigated font s s' := by
  unfold refresh at ran
  split at ran
  · exact .inl (pure_eq_ok ran)
  · exact .inr ((navigate_ok ran).of_window (by exact ⟨rfl, rfl, rfl, rfl, rfl, rfl⟩))

/-- A drawn scroll position is the requested one. -/
theorem scrollTo_ok {s s' : Browser} {v : Int} (ran : s.scrollTo v = .ok s') : s' = { s with scrollY := v } := by
  obtain ⟨_, -, shown⟩ := bind_eq_ok.mp ran
  exact (Except.ok.inj shown).symm

/-- A click moves the browser by navigating, editing or grabbing. -/
theorem handleClick_moves {depth : Nat} {s s' : Browser} {x y : Int}
    (ran : handleClick font fetch depth s x y = .ok s') :
    Moves font s s' := by
  have stays : s' = s ∨ Navigated font s s' → Moves font s s' := by
    rintro (rfl | went)
    · exact .edited (SameView.refl _)
    · exact .navigated went
  unfold handleClick at ran
  split at ran
  · exact stays (back_ok ran)
  · exact stays (forward_ok ran)
  · exact stays (refresh_ok ran)
  · obtain rfl := pure_eq_ok ran
    exact .edited ⟨⟨rfl, rfl, rfl, rfl, rfl, rfl⟩, rfl, rfl, rfl, rfl, rfl, rfl, rfl, rfl, rfl⟩
  · obtain rfl := pure_eq_ok ran
    exact .edited ⟨⟨rfl, rfl, rfl, rfl, rfl, rfl⟩, rfl, rfl, rfl, rfl, rfl, rfl, rfl, rfl, rfl⟩
  · exact .navigated (navigate_ok ran)
  · exact stays (.inl (pure_eq_ok ran))

/-- A mouse move leaves the browser as it is, or scrolls to a clamped offset of a drag. -/
theorem handleMouseMove_eq {s s' : Browser} {y : Int} (ran : s.handleMouseMove y = .ok s') :
    s' = s ∨ ∃ v, ScrollMove s v ∧ s' = { s with scrollY := v } := by
  unfold handleMouseMove at ran
  split at ran
  · obtain ⟨thumbH, -, rest⟩ := bind_eq_ok.mp ran
    dsimp only at rest
    split at rest
    · obtain ⟨delta, -, rest⟩ := bind_eq_ok.mp rest
      split at rest
      · -- The drag's offset, clamped to the range.
        obtain ⟨_, -, shown⟩ := bind_eq_ok.mp rest
        exact .inr ⟨_, .drag _, pure_eq_ok shown⟩
      · exact .inl (pure_eq_ok rest)
    · exact .inl (pure_eq_ok rest)
  · exact .inl (pure_eq_ok ran)

/-- A mouse move scrolls to a clamped offset, or does nothing. -/
theorem handleMouseMove_cases {s s' : Browser} {y : Int} (ran : s.handleMouseMove y = .ok s') :
    SameView s s' ∨ ∃ v, ScrollMove s v ∧ s' = { s with scrollY := v } :=
  (handleMouseMove_eq ran).imp_left fun (same : s' = s) => by rw [same]; exact SameView.refl s

/-- A mouse move moves the browser by scrolling, or not at all. -/
theorem handleMouseMove_moves {s s' : Browser} {y : Int} (ran : s.handleMouseMove y = .ok s') :
    Moves font s s' := by
  rcases handleMouseMove_cases ran with same | ⟨v, move, rfl⟩
  · exact .edited same
  · exact .scrolled move

/--
What a key does, in the order `handle_key` tests it: Enter navigates to the address being edited, Escape puts
the current URL back, Backspace deletes before a cursor past the start, a printable key is inserted at the
cursor, an arrow or page key scrolls outside the address bar, and any other key changes nothing.
-/
theorem handleKey_eq {depth : Nat} {s s' : Browser} {key : Int} (ran : handleKey font fetch depth s key = .ok s') :
    navigate font fetch depth { s with editingUrl := false } s.addressText false false = .ok s' ∨ s' = s ∨
      (∃ v, ScrollMove s v ∧ s' = { s with scrollY := v }) ∨ s' = { s with editingUrl := false, addressText := s.url } ∨
      (s.editingUrl = true ∧ s.cursorPos > 0 ∧
        s' = { s with
          addressText := ⟨sliceTo s.addressText.data (s.cursorPos - 1) ++ sliceFrom s.addressText.data s.cursorPos⟩
          cursorPos := s.cursorPos - 1 }) ∨
      (s.editingUrl = true ∧ ∃ c : Char,
        s' = { s with
          addressText := ⟨sliceTo s.addressText.data s.cursorPos ++ [c] ++ sliceFrom s.addressText.data s.cursorPos⟩
          cursorPos := s.cursorPos + 1 }) := by
  unfold handleKey at ran
  -- The branches of `handle_key` in order, each condition tested as the code tests it.
  by_cases editing : s.editingUrl = true
  · rw [if_pos editing] at ran
    by_cases enter : key = 13 ∨ key = 10
    · exact .inl (by rwa [if_pos enter] at ran)
    rw [if_neg enter] at ran
    by_cases escape : key = 27
    · rw [if_pos escape] at ran
      exact .inr (.inr (.inr (.inl (pure_eq_ok ran))))
    rw [if_neg escape] at ran
    by_cases erase : key = 8 ∨ key = 127
    · rw [if_pos erase] at ran
      by_cases movable : s.cursorPos > 0
      · rw [if_pos movable] at ran
        exact .inr (.inr (.inr (.inr (.inl ⟨editing, movable, pure_eq_ok ran⟩))))
      · rw [if_neg movable] at ran
        exact .inr (.inl (pure_eq_ok ran))
    rw [if_neg erase] at ran
    by_cases printable : key ≥ 32 ∧ key < 127
    · rw [if_pos printable] at ran
      exact .inr (.inr (.inr (.inr (.inr ⟨editing, _, pure_eq_ok ran⟩))))
    · rw [if_neg printable] at ran
      exact .inr (.inl (pure_eq_ok ran))
  · -- Outside the address bar, the arrow and page keys scroll.
    rw [if_neg editing] at ran
    by_cases up : key = 0x100
    · rw [if_pos up] at ran
      exact .inr (.inr (.inl ⟨_, .up, scrollTo_ok ran⟩))
    rw [if_neg up] at ran
    by_cases down : key = 0x101
    · rw [if_pos down] at ran
      exact .inr (.inr (.inl ⟨_, .down, scrollTo_ok ran⟩))
    rw [if_neg down] at ran
    by_cases pageUp : key = 0x109
    · rw [if_pos pageUp] at ran
      exact .inr (.inr (.inl ⟨_, .pageUp, scrollTo_ok ran⟩))
    rw [if_neg pageUp] at ran
    by_cases pageDown : key = 0x10A
    · rw [if_pos pageDown] at ran
      exact .inr (.inr (.inl ⟨_, .pageDown, scrollTo_ok ran⟩))
    · rw [if_neg pageDown] at ran
      exact .inr (.inl (pure_eq_ok ran))

/-- A key navigates to the address being edited (Enter), edits the address, or scrolls. -/
theorem handleKey_cases {depth : Nat} {s s' : Browser} {key : Int} (ran : handleKey font fetch depth s key = .ok s') :
    navigate font fetch depth { s with editingUrl := false } s.addressText false false = .ok s' ∨ SameView s s' ∨
      ∃ v, ScrollMove s v ∧ s' = { s with scrollY := v } := by
  rcases handleKey_eq ran with went | rfl | scroll | rfl | ⟨-, -, rfl⟩ | ⟨-, _, rfl⟩
  · exact .inl went
  · exact .inr (.inl (SameView.refl _))
  · exact .inr (.inr scroll)
  -- Every edit of the address bar keeps the view.
  all_goals exact .inr (.inl ⟨⟨rfl, rfl, rfl, rfl, rfl, rfl⟩, rfl, rfl, rfl, rfl, rfl, rfl, rfl, rfl, rfl⟩)

/-- A key edits the address, navigates to it, or scrolls. -/
theorem handleKey_moves {depth : Nat} {s s' : Browser} {key : Int} (ran : handleKey font fetch depth s key = .ok s') :
    Moves font s s' := by
  rcases handleKey_cases ran with went | same | ⟨v, move, rfl⟩
  · exact .navigated ((navigate_ok went).of_window (by exact ⟨rfl, rfl, rfl, rfl, rfl, rfl⟩))
  · exact .edited same
  · exact .scrolled move

/-- A resize that returns keeps the body, and lays it out again at the new width when there is one. -/
theorem handleResize_ok {s s' : Browser} {w h : Int} (ran : handleResize font s w h = .ok s') :
    s.currentHtml = "" ∧ s' = s.resizeWindow w h ∨
      s.currentHtml ≠ "" ∧ s' = ((s.resizeWindow w h).relayout font s.currentHtml).clampScroll := by
  unfold handleResize at ran
  dsimp only at ran
  split at ran
  · exact .inl ⟨‹_›, pure_eq_ok ran⟩
  · obtain ⟨_, -, shown⟩ := bind_eq_ok.mp ran
    exact .inr ⟨‹_›, pure_eq_ok shown⟩

/-- Every event that returns either moves the browser in one of three ways or is a resize. -/
theorem step_moves {depth : Nat} {s s' : Browser} {e : Event} (ran : step font fetch depth s e = .ok s') :
    Moves font s s' ∨ ∃ w h, e = .resize w h ∧ handleResize font s w h = .ok s' := by
  cases e with
  | close => exact .inl (.edited (pure_eq_ok ran ▸ SameView.refl s))
  | mouseDown x y => exact .inl (handleClick_moves ran)
  | mouseUp x y =>
    exact .inl (pure_eq_ok ran ▸ .edited ⟨⟨rfl, rfl, rfl, rfl, rfl, rfl⟩, rfl, rfl, rfl, rfl, rfl, rfl, rfl, rfl, rfl⟩)
  | mouseMove x y => exact .inl (handleMouseMove_moves ran)
  | key code => exact .inl (handleKey_moves ran)
  | resize w h => exact .inr ⟨w, h, rfl, ran⟩
  | navigate url => exact .inl (.navigated (navigate_ok ran))

end Handlers

end Browser

end Kivi
