import Kivi.Browser.Invariants

/-! The address bar while it has focus: over every run, the cursor stays inside the text it edits. -/

namespace Kivi

namespace Browser

/-- While the address bar has focus, the cursor stands inside its text: `0 <= cursor_pos <= len(address_text)`. -/
def CursorInText (s : Browser) : Prop :=
  s.editingUrl = true → 0 ≤ s.cursorPos ∧ s.cursorPos ≤ s.addressText.length

/-- Without focus on the address bar, nothing is asked of the cursor. -/
theorem CursorInText.of_not_editing {s : Browser} (idle : s.editingUrl = false) : CursorInText s :=
  fun editing => absurd (idle ▸ editing) Bool.false_ne_true

section Handlers

variable {font : Font} {fetch : String → Except PyError (Int × String)}

/-- A `navigate` that returns has left the address bar: every hop enters its URL with the bar unfocused. -/
theorem navigate_editingUrl : ∀ {depth : Nat} {s : Browser} {target : String} {fromBack fromForward : Bool}
    {s' : Browser}, navigate font fetch depth s target fromBack fromForward = .ok s' → s'.editingUrl = false
  | 0, _, _, _, _, _, ran => by cases ran
  | depth + 1, s, target, fromBack, fromForward, s', ran => by
    rw [navigate] at ran
    obtain ⟨url, -, ran⟩ := bind_eq_ok.mp ran
    obtain ⟨⟨status, body⟩, -, rest⟩ := bind_eq_ok.mp ran
    dsimp only at rest
    split at rest
    · exact navigate_editingUrl rest
    · obtain ⟨_, -, shown⟩ := bind_eq_ok.mp rest
      cases shown
      rfl

/-- A click keeps the cursor inside the text: the address bar puts it at the end, and a navigation unfocuses. -/
theorem handleClick_cursor {depth : Nat} {s s' : Browser} {x y : Int} (kept : CursorInText s)
    (ran : handleClick font fetch depth s x y = .ok s') : CursorInText s' := by
  have navigated : ∀ {t : Browser} {target : String} {fromBack fromForward : Bool},
      navigate font fetch depth t target fromBack fromForward = .ok s' → CursorInText s' :=
    fun went => .of_not_editing (navigate_editingUrl went)
  unfold handleClick at ran
  split at ran
  -- The three buttons do nothing, or navigate.
  · unfold back at ran
    split at ran
    exacts [pure_eq_ok ran ▸ kept, navigated ran]
  · unfold forward at ran
    split at ran
    exacts [pure_eq_ok ran ▸ kept, navigated ran]
  · unfold refresh at ran
    split at ran
    exacts [pure_eq_ok ran ▸ kept, navigated ran]
  · -- A click on the address bar puts the cursor after the last character.
    obtain rfl := pure_eq_ok ran
    exact fun _ => ⟨Int.ofNat_nonneg _, le_rfl⟩
  · obtain rfl := pure_eq_ok ran
    exact kept
  · exact navigated ran
  · exact pure_eq_ok ran ▸ kept

/-- A key keeps the cursor inside the text: Backspace and a printable key move it with the text they change. -/
theorem handleKey_cursor {depth : Nat} {s s' : Browser} {key : Int} (kept : CursorInText s)
    (ran : handleKey font fetch depth s key = .ok s') : CursorInText s' := by
  have length : s.addressText.length = s.addressText.data.length := rfl
  rcases handleKey_eq ran with went | rfl | ⟨v, -, rfl⟩ | rfl | ⟨editing, movable, rfl⟩ | ⟨editing, c, rfl⟩
  · exact .of_not_editing (navigate_editingUrl went)
  · exact kept
  · exact kept
  · exact .of_not_editing rfl
  · -- Backspace: the text loses the character before the cursor, and the cursor steps back over it.
    obtain ⟨nonneg, within⟩ := kept editing
    intro _
    show 0 ≤ s.cursorPos - 1 ∧ s.cursorPos - 1 ≤ ((sliceTo s.addressText.data (s.cursorPos - 1) ++
      sliceFrom s.addressText.data s.cursorPos).length : Int)
    rw [List.length_append, sliceTo_of_le (by omega) (by omega), sliceFrom_of_le nonneg (by omega),
      List.length_take, List.length_drop]
    omega
  · -- A printable key: the text gains a character at the cursor, and the cursor steps past it.
    obtain ⟨nonneg, within⟩ := kept editing
    intro _
    show 0 ≤ s.cursorPos + 1 ∧ s.cursorPos + 1 ≤ ((sliceTo s.addressText.data s.cursorPos ++ [c] ++
      sliceFrom s.addressText.data s.cursorPos).length : Int)
    rw [List.length_append, List.length_append, sliceTo_of_le nonneg (by omega),
      sliceFrom_of_le nonneg (by omega), List.length_take, List.length_drop, List.length_singleton]
    omega

/-- A resize leaves the address bar alone. -/
theorem handleResize_cursor {s s' : Browser} {w h : Int} (kept : CursorInText s)
    (ran : handleResize font s w h = .ok s') : CursorInText s' := by
  rcases handleResize_ok ran with ⟨-, rfl⟩ | ⟨-, rfl⟩
  · exact kept
  · unfold clampScroll
    split <;> exact kept

/-- Every event keeps the cursor inside the text. -/
theorem step_cursor {depth : Nat} {s s' : Browser} {e : Event} (kept : CursorInText s)
    (ran : step font fetch depth s e = .ok s') : CursorInText s' := by
  cases e with
  | close => exact pure_eq_ok ran ▸ kept
  | mouseDown x y => exact handleClick_cursor kept ran
  | mouseUp x y =>
    obtain rfl := pure_eq_ok ran
    exact kept
  | mouseMove x y => rcases handleMouseMove_eq ran with rfl | ⟨v, -, rfl⟩ <;> exact kept
  | key code => exact handleKey_cursor kept ran
  | resize w h => exact handleResize_cursor kept ran
  | navigate url => exact .of_not_editing (navigate_editingUrl ran)

end Handlers

/--
In every state a run reaches from a new browser with the address bar focused, `0 <= cursor_pos <=
len(address_text)`, so the slices of `handle_key` cut the text at the cursor: `address_text[:cursor_pos]` is its
first `cursor_pos` characters and `address_text[cursor_pos:]` the rest.
-/
theorem run_cursor_in_text (font : Font) (kioskMode : Bool) (s : Browser)
    (run : Reaches font anyEvent (Browser.new kioskMode) s) (editing : s.editingUrl = true) :
    0 ≤ s.cursorPos ∧ s.cursorPos ≤ s.addressText.length ∧
      sliceTo s.addressText.data s.cursorPos = s.addressText.data.take s.cursorPos.toNat ∧
      sliceFrom s.addressText.data s.cursorPos = s.addressText.data.drop s.cursorPos.toNat := by
  obtain ⟨nonneg, within⟩ := run.invariant (.of_not_editing rfl)
    (fun _ _ _ _ _ kept _ ran => step_cursor kept ran) editing
  exact ⟨nonneg, within, sliceTo_of_le nonneg within, sliceFrom_of_le nonneg within⟩

/-- A click on the address bar of a new browser, then the key `a`. -/
theorem run_cursor_in_text_typed :
    Reaches Font.fixed anyEvent (Browser.new false)
        { Browser.new false with editingUrl := true, addressText := "a", cursorPos := 1 } ∧
      ({ Browser.new false with editingUrl := true, addressText := "a", cursorPos := 1 } : Browser).editingUrl = true ∧
      0 ≤ (1 : Int) ∧ (1 : Int) ≤ "a".length ∧ sliceTo "a".data 1 = "a".data.take (1 : Int).toNat ∧
        sliceFrom "a".data 1 = "a".data.drop (1 : Int).toNat :=
  have run : Reaches Font.fixed anyEvent (Browser.new false)
      { Browser.new false with editingUrl := true, addressText := "a", cursorPos := 1 } :=
    .step (fun _ => .ok (200, "")) 0 (.key 97) (.step (fun _ => .ok (200, "")) 0 (.mouseDown 100 10) .refl trivial rfl)
      trivial rfl
  ⟨run, rfl, run_cursor_in_text Font.fixed false _ run rfl⟩

end Browser

end Kivi
