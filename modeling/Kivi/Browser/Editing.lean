import Kivi.Browser.Address

/-!
The address bar over whole runs: without focus it shows the current URL, kiosk mode never focuses it, the editing
keys undo one another, and Enter goes to what was typed.
-/

namespace Kivi

namespace Browser

/-- What the address bar keeps over a run: without focus it shows the current URL, and kiosk mode never focuses it. -/
structure AddressBar (s : Browser) : Prop where
  /-- Without focus, the bar shows the current URL. -/
  shown : s.editingUrl = false → s.addressText = s.url
  /-- Kiosk mode has no address bar to focus. -/
  kioskIdle : s.kioskMode = true → s.editingUrl = false

/-- A new browser shows its empty URL, unfocused. -/
theorem new_addressBar (kioskMode : Bool) : AddressBar (Browser.new kioskMode) :=
  ⟨fun _ => rfl, fun _ => rfl⟩

/-- An unfocused bar that shows the current URL is as a run keeps it. -/
theorem AddressBar.of_idle {s : Browser} (idle : s.editingUrl = false) (shown : s.addressText = s.url) :
    AddressBar s :=
  ⟨fun _ => shown, fun _ => idle⟩

/-- A focused bar outside kiosk mode is as a run keeps it, whatever it shows. -/
theorem AddressBar.of_editing {s : Browser} (editing : s.editingUrl = true) (plain : s.kioskMode = false) :
    AddressBar s :=
  ⟨fun idle => absurd (idle.symm.trans editing) Bool.false_ne_true,
    fun kiosk => absurd (plain.symm.trans kiosk) Bool.false_ne_true⟩

/-- A state with the same URL, text, focus and mode keeps the bar. -/
theorem AddressBar.of_same {s s' : Browser} (bar : AddressBar s) (url : s'.url = s.url)
    (text : s'.addressText = s.addressText) (focus : s'.editingUrl = s.editingUrl)
    (mode : s'.kioskMode = s.kioskMode) : AddressBar s' :=
  ⟨fun idle => by rw [text, url]; exact bar.shown (focus ▸ idle),
    fun kiosk => by rw [focus]; exact bar.kioskIdle (mode ▸ kiosk)⟩

/-- While the bar has focus, the browser is not in kiosk mode. -/
theorem AddressBar.plain {s : Browser} (bar : AddressBar s) (editing : s.editingUrl = true) : s.kioskMode = false :=
  Bool.eq_false_iff.mpr fun kiosk => absurd ((bar.kioskIdle kiosk).symm.trans editing) Bool.false_ne_true

/-- Only outside kiosk mode does a click focus the address bar. -/
theorem clickAction_editAddress {s : Browser} {x y : Int} (clicked : s.clickAction x y = .editAddress) :
    s.kioskMode = false := by
  cases kiosk : s.kioskMode
  · rfl
  · -- The kiosk row has two buttons, and below it the toolbar is not laid out.
    unfold clickAction at clicked
    simp only [kiosk, true_and, Bool.not_true, Bool.false_eq_true, false_and, ↓reduceIte] at clicked
    split_ifs at clicked
    split at clicked <;> cases clicked

/-- Outside kiosk mode, a click on the address bar right of the three buttons focuses it. -/
theorem clickAction_addressBar {s : Browser} {x y : Int} (plain : s.kioskMode = false)
    (onBar : 64 ≤ x ∧ y < addressBarH) : s.clickAction x y = .editAddress := by
  unfold clickAction
  rw [if_neg (by simp [plain])]
  dsimp only
  -- Right of the three buttons, the toolbar's last test is the first to hold.
  rw [if_pos (by simp [plain, onBar.2]), if_neg (by omega), if_neg (by omega), if_neg (by omega), if_pos onBar.1]

section Handlers

variable {font : Font} {fetch : String → Except PyError (Int × String)}

/-- A property of every state `navigate` can lay a body out in holds of every state it returns. -/
theorem navigate_of_enter {P : Browser → Prop} (entered : ∀ (t : Browser) (url : String) (fromBack fromForward : Bool)
    (body : String), P ((t.enter url fromBack fromForward).load font body)) :
    ∀ {depth : Nat} {s : Browser} {target : String} {fromBack fromForward : Bool} {s' : Browser},
      navigate font fetch depth s target fromBack fromForward = .ok s' → P s'
  | 0, _, _, _, _, _, ran => by cases ran
  | depth + 1, s, target, fromBack, fromForward, s', ran => by
    rw [navigate] at ran
    obtain ⟨url, -, ran⟩ := bind_eq_ok.mp ran
    obtain ⟨⟨status, body⟩, -, rest⟩ := bind_eq_ok.mp ran
    dsimp only at rest
    split at rest
    · exact navigate_of_enter entered rest
    · obtain ⟨_, -, shown⟩ := bind_eq_ok.mp rest
      cases shown
      exact entered _ _ _ _ _

/-- A `navigate` that returns shows the URL it landed on, unfocused. -/
theorem navigate_addressBar {depth : Nat} {s : Browser} {target : String} {fromBack fromForward : Bool} {s' : Browser}
    (ran : navigate font fetch depth s target fromBack fromForward = .ok s') : AddressBar s' :=
  navigate_of_enter (fun _ _ _ _ _ => .of_idle rfl rfl) ran

/-- A click keeps the bar: the buttons and links navigate, and only outside kiosk mode is the bar focused. -/
theorem handleClick_addressBar {depth : Nat} {s s' : Browser} {x y : Int} (bar : AddressBar s)
    (ran : handleClick font fetch depth s x y = .ok s') : AddressBar s' := by
  unfold handleClick at ran
  split at ran
  · unfold back at ran
    split at ran
    exacts [pure_eq_ok ran ▸ bar, navigate_addressBar ran]
  · unfold forward at ran
    split at ran
    exacts [pure_eq_ok ran ▸ bar, navigate_addressBar ran]
  · unfold refresh at ran
    split at ran
    exacts [pure_eq_ok ran ▸ bar, navigate_addressBar ran]
  · rename_i clicked
    obtain rfl := pure_eq_ok ran
    exact .of_editing rfl (clickAction_editAddress clicked)
  · obtain rfl := pure_eq_ok ran
    exact bar.of_same rfl rfl rfl rfl
  · exact navigate_addressBar ran
  · exact pure_eq_ok ran ▸ bar

/-- A key keeps the bar: Enter navigates, Escape puts the URL back, and the editing keys keep the focus. -/
theorem handleKey_addressBar {depth : Nat} {s s' : Browser} {key : Int} (bar : AddressBar s)
    (ran : handleKey font fetch depth s key = .ok s') : AddressBar s' := by
  rcases handleKey_eq ran with went | rfl | ⟨v, -, rfl⟩ | rfl | ⟨editing, -, rfl⟩ | ⟨editing, c, rfl⟩
  · exact navigate_addressBar went
  · exact bar
  · exact bar.of_same rfl rfl rfl rfl
  · exact .of_idle rfl rfl
  · exact .of_editing editing (bar.plain editing)
  · exact .of_editing editing (bar.plain editing)

/-- Every event keeps the bar. -/
theorem step_addressBar {depth : Nat} {s s' : Browser} {e : Event} (bar : AddressBar s)
    (ran : step font fetch depth s e = .ok s') : AddressBar s' := by
  cases e with
  | close => exact pure_eq_ok ran ▸ bar
  | mouseDown x y => exact handleClick_addressBar bar ran
  | mouseUp x y =>
    obtain rfl := pure_eq_ok ran
    exact bar.of_same rfl rfl rfl rfl
  | mouseMove x y => rcases handleMouseMove_eq ran with rfl | ⟨v, -, rfl⟩ <;> exact bar.of_same rfl rfl rfl rfl
  | key code => exact handleKey_addressBar bar ran
  | resize w h =>
    rcases handleResize_ok ran with ⟨-, rfl⟩ | ⟨-, rfl⟩
    · exact bar.of_same rfl rfl rfl rfl
    · unfold clampScroll
      split <;> exact bar.of_same rfl rfl rfl rfl
  | navigate url => exact navigate_addressBar ran

/-- No event changes the mode. -/
theorem step_kioskMode {depth : Nat} {s s' : Browser} {e : Event} (ran : step font fetch depth s e = .ok s') :
    s'.kioskMode = s.kioskMode := by
  rcases step_moves ran with move | ⟨w, h, -, resized⟩
  · cases move with
    | navigated went => exact went.window.kioskMode
    | edited same => exact same.window.kioskMode
    | scrolled _ => rfl
  · rcases handleResize_ok resized with ⟨-, rfl⟩ | ⟨-, rfl⟩
    · rfl
    · unfold clampScroll
      split <;> rfl

end Handlers

/-- Every state a run reaches from a new browser keeps the address bar. -/
theorem Reaches.addressBar {font : Font} {admits : Browser → Event → Prop} {kioskMode : Bool} {s : Browser}
    (run : Reaches font admits (Browser.new kioskMode) s) : AddressBar s :=
  run.invariant (new_addressBar kioskMode) fun _ _ _ _ _ bar _ ran => step_addressBar bar ran

/-- Every state a run reaches from a new browser has the cursor inside the text while the bar has focus. -/
theorem Reaches.cursorInText {font : Font} {admits : Browser → Event → Prop} {kioskMode : Bool} {s : Browser}
    (run : Reaches font admits (Browser.new kioskMode) s) : CursorInText s :=
  run.invariant (.of_not_editing rfl) fun _ _ _ _ _ kept _ ran => step_cursor kept ran

/--
In every state a run reaches from a new browser, the address bar shows the current URL whenever it does not have
focus: `navigate` writes the URL it lands on into the bar, and Escape writes the current URL back.
-/
theorem run_address_shows_url (font : Font) (kioskMode : Bool) (s : Browser)
    (run : Reaches font anyEvent (Browser.new kioskMode) s) (idle : s.editingUrl = false) :
    s.addressText = s.url :=
  run.addressBar.shown idle

/-- A click on the address bar, the key `a`, then Escape: the bar shows the empty URL again. -/
theorem run_address_shows_url_escaped :
    Reaches Font.fixed anyEvent (Browser.new false) { Browser.new false with cursorPos := 1 } ∧
      ({ Browser.new false with cursorPos := 1 } : Browser).editingUrl = false ∧
      ({ Browser.new false with cursorPos := 1 } : Browser).addressText =
        ({ Browser.new false with cursorPos := 1 } : Browser).url :=
  have run : Reaches Font.fixed anyEvent (Browser.new false) { Browser.new false with cursorPos := 1 } :=
    .step (fun _ => .ok (200, "")) 0 (.key 27)
      (.step (fun _ => .ok (200, "")) 0 (.key 97)
        (.step (fun _ => .ok (200, "")) 0 (.mouseDown 100 10) .refl trivial rfl) trivial rfl) trivial rfl
  ⟨run, rfl, run_address_shows_url Font.fixed false _ run rfl⟩

/--
In every state a run reaches from a new browser in kiosk mode, the browser is still in kiosk mode and the address
bar has never had focus: a click in the top row only hits the two buttons, and below it no toolbar is tested.
-/
theorem run_kiosk_never_edits (font : Font) (s : Browser) (run : Reaches font anyEvent (Browser.new true) s) :
    s.kioskMode = true ∧ s.editingUrl = false :=
  have kiosk : s.kioskMode = true :=
    @Reaches.invariant font anyEvent (fun t => t.kioskMode = true) _ _ rfl
      (fun _ _ _ _ _ kiosk _ ran => (step_kioskMode ran).trans kiosk) run
  ⟨kiosk, run.addressBar.kioskIdle kiosk⟩

/-- A new browser in kiosk mode, clicked where the address bar is outside kiosk mode. -/
theorem run_kiosk_never_edits_click :
    Reaches Font.fixed anyEvent (Browser.new true) (Browser.new true) ∧
      (Browser.new true).kioskMode = true ∧ (Browser.new true).editingUrl = false :=
  have run : Reaches Font.fixed anyEvent (Browser.new true) (Browser.new true) :=
    .step (fun _ => .ok (200, "")) 0 (.mouseDown 100 10) .refl trivial rfl
  ⟨run, run_kiosk_never_edits Font.fixed _ run⟩

/-- Deleting the character before a cursor just past an inserted one gives the text back. -/
theorem erase_inserted {cs : List Char} {k : Int} (nonneg : 0 ≤ k) (within : k ≤ cs.length) (c : Char) :
    sliceTo (sliceTo cs k ++ [c] ++ sliceFrom cs k) (k + 1 - 1) ++
      sliceFrom (sliceTo cs k ++ [c] ++ sliceFrom cs k) (k + 1) = cs := by
  have before : (cs.take k.toNat).length = k.toNat := List.length_take_of_le (by omega)
  have grown : ((cs.take k.toNat ++ [c] ++ cs.drop k.toNat).length : Int) = cs.length + 1 := by
    simp only [List.length_append, List.length_singleton, List.length_drop, before]
    omega
  rw [sliceTo_of_le nonneg within, sliceFrom_of_le nonneg within, Int.add_sub_cancel, sliceTo_of_le nonneg (by omega),
    sliceFrom_of_le (by omega) (by omega), List.append_assoc, List.take_left' before, ← List.append_assoc,
    List.drop_left' (by rw [List.length_append, before, List.length_singleton]; omega), List.take_append_drop]

/-- A computation that returns a value goes on with it. -/
theorem ok_bind {ε α β : Type} (a : α) (f : α → Except ε β) : (Except.ok a >>= f) = f a :=
  rfl

section Editing

variable (font : Font) (fetch : String → Except PyError (Int × String)) (depth : Nat)

/-- A printable key while the bar has focus inserts its character at the cursor and steps past it. -/
theorem handleKey_type {s : Browser} {key : Int} (editing : s.editingUrl = true) (printable : 32 ≤ key ∧ key < 127) :
    handleKey font fetch depth s key = .ok { s with
      addressText := ⟨sliceTo s.addressText.data s.cursorPos ++ [Char.ofNat key.toNat] ++
        sliceFrom s.addressText.data s.cursorPos⟩
      cursorPos := s.cursorPos + 1 } := by
  unfold handleKey
  rw [if_pos editing, if_neg (by omega), if_neg (by omega), if_neg (by omega), if_pos ⟨printable.1, printable.2⟩]
  rfl

/-- A key other than Enter and Escape, while the bar has focus, changes only the text and the cursor. -/
theorem handleKey_edit {s : Browser} {key : Int} (editing : s.editingUrl = true) (edit : key ≠ 13 ∧ key ≠ 10 ∧ key ≠ 27) :
    ∃ text cursor, handleKey font fetch depth s key = .ok { s with addressText := text, cursorPos := cursor } := by
  unfold handleKey
  rw [if_pos editing, if_neg (by omega), if_neg edit.2.2]
  split_ifs
  exacts [⟨_, _, rfl⟩, ⟨s.addressText, s.cursorPos, rfl⟩, ⟨_, _, rfl⟩, ⟨s.addressText, s.cursorPos, rfl⟩]

/-- Editing keys one after another, while the bar has focus, change only the text and the cursor. -/
theorem foldlM_handleKey_edit (keys : List Int) (edits : ∀ key ∈ keys, key ≠ 13 ∧ key ≠ 10 ∧ key ≠ 27) :
    ∀ {s : Browser}, s.editingUrl = true →
      ∃ text cursor, keys.foldlM (handleKey font fetch depth) s = .ok { s with addressText := text, cursorPos := cursor } := by
  induction keys with
  | nil => exact fun {s} _ => ⟨s.addressText, s.cursorPos, rfl⟩
  | cons key keys ih =>
    intro s editing
    obtain ⟨text, cursor, typed⟩ := handleKey_edit font fetch depth editing (edits key (List.mem_cons_self _ _))
    obtain ⟨text', cursor', rest⟩ := ih (fun k member => edits k (List.mem_cons_of_mem _ member))
      (show ({ s with addressText := text, cursorPos := cursor } : Browser).editingUrl = true from editing)
    rw [List.foldlM_cons, typed]
    exact ⟨text', cursor', rest⟩

/-- Printable characters typed with the cursor at the end of the text are appended to it, in order. -/
theorem foldlM_handleKey_append (typed : List Char) (printable : ∀ c ∈ typed, 32 ≤ c.toNat ∧ c.toNat < 127) :
    ∀ {s : Browser}, s.editingUrl = true → s.cursorPos = s.addressText.length →
      (typed.map fun c => (c.toNat : Int)).foldlM (handleKey font fetch depth) s =
        .ok { s with addressText := ⟨s.addressText.data ++ typed⟩, cursorPos := s.cursorPos + typed.length } := by
  induction typed with
  | nil =>
    intro s _ _
    simp only [List.map_nil, List.foldlM_nil, List.append_nil, List.length_nil, Nat.cast_zero, Int.add_zero]
    rfl
  | cons c typed ih =>
    intro s editing atEnd
    have atEnd' : s.cursorPos = s.addressText.data.length := atEnd
    -- The character goes in at the end: nothing of the text is after the cursor.
    have appended : sliceTo s.addressText.data s.cursorPos ++ [Char.ofNat (c.toNat : Int).toNat] ++
        sliceFrom s.addressText.data s.cursorPos = s.addressText.data ++ [c] := by
      rw [sliceTo_of_le (by omega) (by omega), sliceFrom_of_le (by omega) (by omega), atEnd', Int.toNat_natCast,
        List.take_length, List.drop_length, List.append_nil, Int.toNat_natCast, Char.ofNat_toNat]
    have rest := ih (fun d member => printable d (List.mem_cons_of_mem _ member))
      (show ({ s with addressText := ⟨s.addressText.data ++ [c]⟩, cursorPos := s.cursorPos + 1 } : Browser).editingUrl
        = true from editing)
      (by simp only [String.length, List.length_append, List.length_singleton, atEnd']; push_cast; rfl)
    rw [List.map_cons, List.foldlM_cons,
      handleKey_type font fetch depth editing (by exact_mod_cast printable c (List.mem_cons_self _ _)), appended]
    refine rest.trans ?_
    simp only [List.append_assoc, List.singleton_append, List.length_cons, Nat.cast_succ]
    congr 2
    omega

end Editing

/--
In every state a run reaches from a new browser with the address bar focused, a printable key and then Backspace
(8 or 127) give the state back: the character goes in at the cursor, and the cursor steps back over it.
-/
theorem run_type_then_erase (font : Font) (fetch : String → Except PyError (Int × String)) (depth : Nat)
    (kioskMode : Bool) (s : Browser) (run : Reaches font anyEvent (Browser.new kioskMode) s)
    (editing : s.editingUrl = true) (key erase : Int) (printable : 32 ≤ key ∧ key < 127)
    (backspace : erase = 8 ∨ erase = 127) :
    (handleKey font fetch depth s key >>= fun t => handleKey font fetch depth t erase) = .ok s := by
  obtain ⟨nonneg, within⟩ := run.cursorInText editing
  have within' : s.cursorPos ≤ s.addressText.data.length := within
  rw [handleKey_type font fetch depth editing printable, ok_bind]
  -- Backspace finds the bar focused and the cursor past the typed character.
  unfold handleKey
  dsimp only
  rw [if_pos editing, if_neg (by omega), if_neg (by omega), if_pos backspace, if_pos (by omega),
    erase_inserted nonneg within', Int.add_sub_cancel]
  rfl

/-- With the bar focused on `a`, typing `b` and erasing it gives `a` back. -/
theorem run_type_then_erase_b :
    Reaches Font.fixed anyEvent (Browser.new false)
        { Browser.new false with editingUrl := true, addressText := "a", cursorPos := 1 } ∧
      ({ Browser.new false with editingUrl := true, addressText := "a", cursorPos := 1 } : Browser).editingUrl = true ∧
      (32 ≤ (98 : Int) ∧ (98 : Int) < 127) ∧ ((8 : Int) = 8 ∨ (8 : Int) = 127) ∧
      (handleKey Font.fixed (fun _ => .ok (200, "")) 0
          { Browser.new false with editingUrl := true, addressText := "a", cursorPos := 1 } 98 >>= fun t =>
        handleKey Font.fixed (fun _ => .ok (200, "")) 0 t 8) =
        .ok { Browser.new false with editingUrl := true, addressText := "a", cursorPos := 1 } :=
  have run : Reaches Font.fixed anyEvent (Browser.new false)
      { Browser.new false with editingUrl := true, addressText := "a", cursorPos := 1 } :=
    .step (fun _ => .ok (200, "")) 0 (.key 97) (.step (fun _ => .ok (200, "")) 0 (.mouseDown 100 10) .refl trivial rfl)
      trivial rfl
  ⟨run, rfl, by decide, .inl rfl,
    run_type_then_erase Font.fixed (fun _ => .ok (200, "")) 0 false _ run rfl 98 8 (by decide) (.inl rfl)⟩

/--
From every unfocused state a run reaches outside kiosk mode, a click on the address bar, any keys other than Enter
and Escape, then Escape, give the state back with only the cursor moved: whatever was typed is dropped.
-/
theorem run_escape_cancels_edit (font : Font) (fetch : String → Except PyError (Int × String)) (depth : Nat)
    (kioskMode : Bool) (s : Browser) (run : Reaches font anyEvent (Browser.new kioskMode) s)
    (idle : s.editingUrl = false) (plain : s.kioskMode = false) (x y : Int) (onBar : 64 ≤ x ∧ y < addressBarH)
    (keys : List Int) (edits : ∀ key ∈ keys, key ≠ 13 ∧ key ≠ 10 ∧ key ≠ 27) :
    ∃ cursor, (handleClick font fetch depth s x y >>= fun t => keys.foldlM (handleKey font fetch depth) t >>= fun u =>
      handleKey font fetch depth u 27) = .ok { s with cursorPos := cursor } := by
  have clicked : handleClick font fetch depth s x y = .ok { s with editingUrl := true, cursorPos := s.addressText.length } := by
    unfold handleClick
    rw [clickAction_addressBar plain onBar]
    rfl
  obtain ⟨text, cursor, typed⟩ := foldlM_handleKey_edit font fetch depth keys edits
    (show ({ s with editingUrl := true, cursorPos := s.addressText.length } : Browser).editingUrl = true from rfl)
  refine ⟨cursor, ?_⟩
  rw [clicked, ok_bind, typed, ok_bind]
  unfold handleKey
  rw [if_pos rfl, if_neg (by omega), if_pos rfl]
  -- Escape puts back the URL, which the bar showed before the click.
  have shown := run.addressBar.shown idle
  cases s
  dsimp only at idle shown
  subst idle shown
  rfl

/-- A new browser: a click on the bar, `a`, Backspace, `b`, then Escape. -/
theorem run_escape_cancels_edit_new :
    Reaches Font.fixed anyEvent (Browser.new false) (Browser.new false) ∧ (Browser.new false).editingUrl = false ∧
      (Browser.new false).kioskMode = false ∧ (64 ≤ (100 : Int) ∧ (10 : Int) < addressBarH) ∧
      (∀ key ∈ [97, 8, 98], key ≠ (13 : Int) ∧ key ≠ 10 ∧ key ≠ 27) ∧
      ∃ cursor, (handleClick Font.fixed (fun _ => .ok (200, "")) 0 (Browser.new false) 100 10 >>= fun t =>
        [97, 8, 98].foldlM (handleKey Font.fixed (fun _ => .ok (200, "")) 0) t >>= fun u =>
          handleKey Font.fixed (fun _ => .ok (200, "")) 0 u 27) = .ok { Browser.new false with cursorPos := cursor } :=
  ⟨.refl, rfl, rfl, by decide, by decide,
    run_escape_cancels_edit Font.fixed (fun _ => .ok (200, "")) 0 false _ .refl rfl rfl 100 10 (by decide) [97, 8, 98]
      (by decide)⟩

/--
From every unfocused state a run reaches outside kiosk mode, a click on the address bar, printable characters, then
Enter (13 or 10), navigate to the URL the bar showed with the characters appended: the cursor starts at the end of
the text, so each character goes after the last.
-/
theorem run_type_then_enter (font : Font) (fetch : String → Except PyError (Int × String)) (depth : Nat)
    (kioskMode : Bool) (s : Browser) (run : Reaches font anyEvent (Browser.new kioskMode) s)
    (idle : s.editingUrl = false) (plain : s.kioskMode = false) (x y : Int) (onBar : 64 ≤ x ∧ y < addressBarH)
    (typed : List Char) (printable : ∀ c ∈ typed, 32 ≤ c.toNat ∧ c.toNat < 127) (enter : Int)
    (isEnter : enter = 13 ∨ enter = 10) :
    (handleClick font fetch depth s x y >>= fun t =>
      (typed.map fun c => (c.toNat : Int)).foldlM (handleKey font fetch depth) t >>= fun u =>
        handleKey font fetch depth u enter) =
      navigate font fetch depth
        { s with addressText := ⟨s.url.data ++ typed⟩, cursorPos := s.url.length + typed.length }
        ⟨s.url.data ++ typed⟩ false false := by
  have clicked : handleClick font fetch depth s x y = .ok { s with editingUrl := true, cursorPos := s.addressText.length } := by
    unfold handleClick
    rw [clickAction_addressBar plain onBar]
    rfl
  rw [clicked, ok_bind, foldlM_handleKey_append font fetch depth typed printable rfl rfl, ok_bind]
  unfold handleKey
  rw [if_pos rfl, if_pos isEnter]
  -- The bar showed the URL before the click.
  have shown := run.addressBar.shown idle
  cases s
  dsimp only at idle shown
  subst idle shown
  rfl

/-- A new browser: a click on the bar, `a`, then Enter. -/
theorem run_type_then_enter_a :
    Reaches Font.fixed anyEvent (Browser.new false) (Browser.new false) ∧ (Browser.new false).editingUrl = false ∧
      (Browser.new false).kioskMode = false ∧ (64 ≤ (100 : Int) ∧ (10 : Int) < addressBarH) ∧
      (∀ c ∈ ['a'], 32 ≤ c.toNat ∧ c.toNat < 127) ∧ ((13 : Int) = 13 ∨ (13 : Int) = 10) ∧
      (handleClick Font.fixed (fun _ => .ok (200, "")) 0 (Browser.new false) 100 10 >>= fun t =>
        (['a'].map fun c => (c.toNat : Int)).foldlM (handleKey Font.fixed (fun _ => .ok (200, "")) 0) t >>= fun u =>
          handleKey Font.fixed (fun _ => .ok (200, "")) 0 u 13) =
        navigate Font.fixed (fun _ => .ok (200, "")) 0
          { Browser.new false with
            addressText := ⟨(Browser.new false).url.data ++ ['a']⟩
            cursorPos := (Browser.new false).url.length + ['a'].length }
          ⟨(Browser.new false).url.data ++ ['a']⟩ false false :=
  ⟨.refl, rfl, rfl, by decide, by decide, .inl rfl,
    run_type_then_enter Font.fixed (fun _ => .ok (200, "")) 0 false _ .refl rfl rfl 100 10 (by decide) ['a']
      (by decide) 13 (.inl rfl)⟩

/-! ## What the bar shows -/

/--
The text `draw_address_bar` writes in the bar outside kiosk mode: the address, or its first
`max_chars = (win_w - 76) // 8` characters followed by `...` when it is longer.
-/
def displayUrl (winW : Int) (addressText : String) : String :=
  let maxChars := (winW - 76).fdiv 8
  if addressText.length > maxChars then ⟨sliceTo addressText.data maxChars⟩ ++ "..." else addressText

/--
In a window at least 76 wide, the text `draw_address_bar` writes from `x = 68`, 8 pixels a character, ends inside
the white box it fills (from 64, `win_w - 68` wide) exactly when the address is not cut: the cut keeps room for
`max_chars` characters but not for the three dots after them.
-/
theorem displayUrl_fits_iff (winW : Int) (text : String) (wide : 76 ≤ winW) :
    68 + 8 * ((displayUrl winW text).length : Int) ≤ 64 + (winW - 68) ↔ (text.length : Int) ≤ (winW - 76).fdiv 8 := by
  have chars : (winW - 76).fdiv 8 = (winW - 76) / 8 := Int.fdiv_eq_ediv _ (by decide)
  unfold displayUrl
  dsimp only
  rw [chars]
  split
  · next cut =>
    -- The first `max_chars` characters are kept, and three dots follow.
    have same : (text.length : Int) = text.data.length := rfl
    have kept : (sliceTo text.data ((winW - 76) / 8)).length = ((winW - 76) / 8).toNat := by
      rw [sliceTo_of_le (by omega) (by omega)]
      exact List.length_take_of_le (by omega)
    have shown : ((⟨sliceTo text.data ((winW - 76) / 8)⟩ ++ "..." : String).length : Int) = (winW - 76) / 8 + 3 := by
      rw [String.length_append, show (⟨sliceTo text.data ((winW - 76) / 8)⟩ : String).length =
        (sliceTo text.data ((winW - 76) / 8)).length from rfl, kept]
      simp only [Nat.cast_add, Int.toNat_of_nonneg (show 0 ≤ (winW - 76) / 8 by omega)]
      rfl
    rw [shown]
    omega
  · omega

/-- A window 640 wide, where 70 characters fit, and an address of 71. -/
theorem displayUrl_fits_iff_wide :
    (76 : Int) ≤ 640 ∧
      (68 + 8 * ((displayUrl 640 ⟨List.replicate 71 'a'⟩).length : Int) ≤ 64 + (640 - 68) ↔
        ((⟨List.replicate 71 'a'⟩ : String).length : Int) ≤ ((640 : Int) - 76).fdiv 8) :=
  ⟨by decide, displayUrl_fits_iff 640 ⟨List.replicate 71 'a'⟩ (by decide)⟩

end Browser

end Kivi
