import Kivi.Browser.Steps

/-!
Browser history as the navigation controller is meant to keep it: every run without redirects keeps it, where
`back()` then `forward()` returns to the same history, and a redirect breaks it.
-/

namespace Kivi

/-- The history a browser is meant to keep: the current URL, the back stack and the forward stack. -/
structure History where
  current : String
  back : List String
  forward : List String
  deriving DecidableEq, Repr

namespace History

/-- `navigate(u)`: the current URL is pushed unless empty, the forward stack is cleared, and the end of `u`'s
redirect chain becomes current. -/
def visit (h : History) (final : String) : History :=
  ⟨final, if h.current = "" then h.back else h.back ++ [h.current], []⟩

/-- `back()`: the current URL moves to the forward stack and the end of the popped entry's chain becomes current. -/
def goBack (h : History) (final : String) : History :=
  if h.back = [] then h else ⟨final, h.back.dropLast, h.forward ++ [h.current]⟩

/-- `forward()`: the current URL moves to the back stack and the end of the popped entry's chain becomes current. -/
def goForward (h : History) (final : String) : History :=
  if h.forward = [] then h else ⟨final, h.back ++ [h.current], h.forward.dropLast⟩

/-- `refresh()`: both stacks stay, and the end of the current URL's chain becomes current. -/
def reload (h : History) (final : String) : History :=
  if h.current = "" then h else ⟨final, h.back, h.forward⟩

/-- A well-kept history: every URL kept is absolute, so is the page shown, and nothing is kept while none is. -/
structure Wf (h : History) : Prop where
  /-- With no page shown, nothing is kept. -/
  empty : h.current = "" → h.back = [] ∧ h.forward = []
  /-- The page shown is absolute. -/
  current : h.current ≠ "" → isAbsoluteUrl h.current = true
  /-- Every URL kept is absolute. -/
  kept : ∀ u ∈ h.back ++ h.forward, isAbsoluteUrl u = true

/-- What one event may do to the history: nothing, or one of the four operations, ending at an absolute URL. -/
inductive Step (h : History) : History → Prop
  | stay : Step h h
  | visit {final : String} : isAbsoluteUrl final = true → Step h (h.visit final)
  | goBack {final : String} : isAbsoluteUrl final = true → Step h (h.goBack final)
  | goForward {final : String} : isAbsoluteUrl final = true → Step h (h.goForward final)
  | reload {final : String} : isAbsoluteUrl final = true → Step h (h.reload final)

/-- A history showing an absolute page, which keeps only what a well-kept one showed or kept, is well kept. -/
theorem Wf.moved {h h' : History} (wf : h.Wf) (shown : h.current ≠ "") (absolute : isAbsoluteUrl h'.current = true)
    (kept : h'.back ++ h'.forward ⊆ h.current :: (h.back ++ h.forward)) : h'.Wf :=
  ⟨fun empty => absurd empty (ne_empty_of_isAbsoluteUrl absolute), fun _ => absolute,
    fun u member => (List.mem_cons.mp (kept member)).elim (fun same => same ▸ wf.current shown) (wf.kept u)⟩

/-- Every operation keeps a history well kept. -/
theorem Step.wf {h h' : History} (step : Step h h') (wf : h.Wf) : h'.Wf := by
  cases step with
  | stay => exact wf
  | visit absolute =>
    by_cases none : h.current = ""
    · -- From no page, nothing was kept and nothing is.
      have nothing := (wf.empty none).1
      exact ⟨fun empty => absurd empty (ne_empty_of_isAbsoluteUrl absolute), fun _ => absolute,
        by simp [History.visit, none, nothing]⟩
    · exact wf.moved none absolute (by intro u; simp [History.visit, none]; tauto)
  | goBack absolute =>
    unfold History.goBack
    split
    · exact wf
    · -- The page left joins the forward stack.
      rename_i full
      exact wf.moved (fun empty => full (wf.empty empty).1) absolute fun u member => by
        simp only [List.mem_append, List.mem_singleton] at member
        simp only [List.mem_cons, List.mem_append]
        rcases member with member | member | rfl
        exacts [.inr (.inl (List.dropLast_subset _ member)), .inr (.inr member), .inl rfl]
  | goForward absolute =>
    unfold History.goForward
    split
    · exact wf
    · -- The page left joins the back stack.
      rename_i full
      exact wf.moved (fun empty => full (wf.empty empty).2) absolute fun u member => by
        simp only [List.mem_append, List.mem_singleton] at member
        simp only [List.mem_cons, List.mem_append]
        rcases member with (member | rfl) | member
        exacts [.inr (.inl member), .inl rfl, .inr (.inr (List.dropLast_subset _ member))]
  | reload absolute =>
    unfold History.reload
    split
    · exact wf
    · rename_i shown
      exact wf.moved shown absolute fun u member => List.mem_cons_of_mem _ member

/-- Going back to the last back entry, then forward to the page left, returns to the same history. -/
theorem goBack_goForward (h : History) (full : h.back ≠ []) :
    (h.goBack (h.back.getLast full)).goForward h.current = h := by
  simp [goBack, goForward, full, List.dropLast_append_getLast]

end History

/-- The history a browser state keeps: `(url, history, forward_history)`. -/
def Browser.historyOf (s : Browser) : History :=
  ⟨s.url, s.history, s.forwardHistory⟩

/-- A new browser keeps nothing and shows no page. -/
theorem new_wf (kioskMode : Bool) : (Browser.new kioskMode).historyOf.Wf :=
  ⟨fun _ => ⟨rfl, rfl⟩, fun shown => absurd rfl shown, nofun⟩

/-- Two states that show the same view keep the same history. -/
theorem Browser.SameView.historyOf {s t : Browser} (same : Browser.SameView s t) : t.historyOf = s.historyOf := by
  unfold Browser.historyOf
  rw [same.url, same.history, same.forwardHistory]

/-- A resize keeps the history. -/
theorem handleResize_history {font : Font} {s s' : Browser} {w h : Int}
    (ran : Browser.handleResize font s w h = .ok s') :
    s'.historyOf = s.historyOf := by
  rcases Browser.handleResize_ok ran with ⟨-, rfl⟩ | ⟨-, rfl⟩
  · rfl
  · unfold Browser.clampScroll
    split <;> rfl

/-- A plain navigation from a state with the history of `s`, to an absolute URL, is a visit from it. -/
theorem visit_step {s t s' : Browser} (visited : s'.historyOf = t.historyOf.visit s'.url)
    (absolute : isAbsoluteUrl s'.url = true) (same : t.historyOf = s.historyOf) : History.Step s.historyOf s'.historyOf := by
  rw [visited, same]
  exact .visit absolute

/-! ## Without redirects the code keeps the model's history -/

/-- The states runs of the event loop reach from `s` when the platform answers every fetch as `fetch` does. -/
def Browser.Runs (font : Font) (fetch : String → Except PyError (Int × String)) (s u : Browser) : Prop :=
  Relation.ReflTransGen (fun t t' => ∃ depth e, Browser.step font fetch depth t e = .ok t') s u

section Direct

variable {font : Font} {fetch : String → Except PyError (Int × String)}
  (direct : ∀ url r, fetch url = .ok r → r.1 ∉ redirectStatuses) {depth : Nat}

include direct

/-- A `navigate` whose fetches never redirect shows the resolved URL over the history its flags record. -/
theorem navigate_direct {s s' : Browser} {target : String} {fromBack fromForward : Bool}
    (ran : Browser.navigate font fetch depth s target fromBack fromForward = .ok s') :
    resolveUrl s.url target = .ok s'.url ∧
      s'.historyOf = ⟨s'.url, (s.record fromBack fromForward).history, (s.record fromBack fromForward).forwardHistory⟩ := by
  cases depth with
  | zero => cases ran
  | succ depth =>
    rw [Browser.navigate] at ran
    simp only [bind_eq_ok] at ran
    obtain ⟨url, resolved, ⟨status, body⟩, fetched, rest⟩ := ran
    dsimp only at rest
    rw [if_neg (direct url _ fetched)] at rest
    obtain ⟨_, -, shown⟩ := bind_eq_ok.mp rest
    obtain rfl := pure_eq_ok shown
    exact ⟨resolved, rfl⟩

/-- A plain navigation from a state with a current URL, or with nothing to go forward to, is a visit. -/
theorem navigate_visit {s s' : Browser} {target : String} (fresh : s.url = "" → s.forwardHistory = [])
    (ran : Browser.navigate font fetch depth s target false false = .ok s') :
    s'.historyOf = s.historyOf.visit s'.url := by
  rw [(navigate_direct direct ran).2]
  unfold Browser.record History.visit Browser.historyOf
  by_cases empty : s.url = ""
  · simp [empty, fresh empty]
  · simp [empty]

/-- `back()` is the model's, and lands where the last back entry resolves. -/
theorem back_goBack {s s' : Browser} (ran : Browser.back font fetch depth s = .ok s') :
    s'.historyOf = s.historyOf.goBack s'.url ∧ ∀ entry ∈ s.history.getLast?, resolveUrl "" entry = .ok s'.url := by
  unfold Browser.back at ran
  split at ran
  · -- An empty back stack: nothing happens.
    rename_i none
    obtain rfl := pure_eq_ok ran
    refine ⟨by simp [History.goBack, Browser.historyOf, List.getLast?_eq_none_iff.mp none], fun entry member => ?_⟩
    rw [none] at member
    cases member
  · rename_i url last
    have full : s.history ≠ [] := fun empty => by simp [empty] at last
    obtain ⟨resolved, recorded⟩ := navigate_direct direct ran
    refine ⟨by rw [recorded]; simp [Browser.record, History.goBack, Browser.historyOf, full], fun entry member => ?_⟩
    rw [last] at member
    cases member
    exact resolved

/-- `forward()` is the model's, and lands where the last forward entry resolves. -/
theorem forward_goForward {s s' : Browser} (ran : Browser.forward font fetch depth s = .ok s') :
    s'.historyOf = s.historyOf.goForward s'.url ∧
      ∀ entry ∈ s.forwardHistory.getLast?, resolveUrl "" entry = .ok s'.url := by
  unfold Browser.forward at ran
  split at ran
  · rename_i none
    obtain rfl := pure_eq_ok ran
    refine ⟨by simp [History.goForward, Browser.historyOf, List.getLast?_eq_none_iff.mp none], fun entry member => ?_⟩
    rw [none] at member
    cases member
  · rename_i url last
    have full : s.forwardHistory ≠ [] := fun empty => by simp [empty] at last
    obtain ⟨resolved, recorded⟩ := navigate_direct direct ran
    refine ⟨by rw [recorded]; simp [Browser.record, History.goForward, Browser.historyOf, full], fun entry member => ?_⟩
    rw [last] at member
    cases member
    exact resolved

/-- `refresh()` is the model's. -/
theorem refresh_reload {s s' : Browser} (ran : Browser.refresh font fetch depth s = .ok s') :
    s'.historyOf = s.historyOf.reload s'.url := by
  unfold Browser.refresh at ran
  split at ran
  · rename_i empty
    obtain rfl := pure_eq_ok ran
    simp [History.reload, Browser.historyOf, empty]
  · rename_i present
    rw [(navigate_direct direct ran).2]
    simp [Browser.record, History.reload, Browser.historyOf, present]

/-- A click goes back, forward, reloads, follows a link as a visit, or leaves the history as it was. -/
theorem handleClick_history {s s' : Browser} {x y : Int} (wf : s.historyOf.Wf)
    (ran : Browser.handleClick font fetch depth s x y = .ok s') : History.Step s.historyOf s'.historyOf := by
  unfold Browser.handleClick at ran
  split at ran
  · rcases Browser.back_ok ran with rfl | went
    · exact .stay
    · exact (back_goBack direct ran).1 ▸ .goBack went.absolute
  · rcases Browser.forward_ok ran with rfl | went
    · exact .stay
    · exact (forward_goForward direct ran).1 ▸ .goForward went.absolute
  · rcases Browser.refresh_ok ran with rfl | went
    · exact .stay
    · exact refresh_reload direct ran ▸ .reload went.absolute
  · -- Focusing the address bar and grabbing the scrollbar keep the history.
    obtain rfl := pure_eq_ok ran
    exact .stay
  · obtain rfl := pure_eq_ok ran
    exact .stay
  · exact visit_step (navigate_visit direct (fun empty => (wf.empty empty).2) ran) (Browser.navigate_ok ran).absolute rfl
  · obtain rfl := pure_eq_ok ran
    exact .stay

/-- A key visits the address being edited, or leaves the history as it was. -/
theorem handleKey_history {s s' : Browser} {key : Int} (wf : s.historyOf.Wf)
    (ran : Browser.handleKey font fetch depth s key = .ok s') : History.Step s.historyOf s'.historyOf := by
  rcases Browser.handleKey_cases ran with went | same | ⟨v, -, rfl⟩
  · exact visit_step (navigate_visit direct (by exact fun empty => (wf.empty empty).2) went)
      (Browser.navigate_ok went).absolute rfl
  · exact same.historyOf ▸ .stay
  · exact .stay

/-- Every event that returns moves the history by one of the model's operations. -/
theorem step_history {s s' : Browser} {e : Event} (wf : s.historyOf.Wf)
    (ran : Browser.step font fetch depth s e = .ok s') : History.Step s.historyOf s'.historyOf := by
  cases e with
  | close =>
    obtain rfl := pure_eq_ok ran
    exact .stay
  | mouseDown x y => exact handleClick_history direct wf ran
  | mouseUp x y =>
    obtain rfl := pure_eq_ok ran
    exact .stay
  | mouseMove x y =>
    rcases Browser.handleMouseMove_cases ran with same | ⟨v, -, rfl⟩
    · exact same.historyOf ▸ .stay
    · exact .stay
  | key code => exact handleKey_history direct wf ran
  | resize w h => exact handleResize_history ran ▸ .stay
  | navigate url =>
    exact visit_step (navigate_visit direct (fun empty => (wf.empty empty).2) ran) (Browser.navigate_ok ran).absolute rfl

/-- Without redirects, every state a run reaches from a new browser keeps a well-kept history. -/
theorem runs_historyWf (kioskMode : Bool) {s : Browser} (run : Browser.Runs font fetch (Browser.new kioskMode) s) :
    s.historyOf.Wf := by
  induction run with
  | refl => exact new_wf kioskMode
  | tail _ stepped wf =>
    obtain ⟨depth, e, ran⟩ := stepped
    exact (step_history direct wf ran).wf wf

end Direct

section Direct

variable {font : Font} {fetch : String → Except PyError (Int × String)}
  (direct : ∀ url r, fetch url = .ok r → r.1 ∉ redirectStatuses) {depth : Nat}

include direct

/-- Without redirects, `back()` and then `forward()` return a well-kept history with a back entry to where it was. -/
theorem back_forward_restores {s s₁ s₂ : Browser} {depth' : Nat} (wf : s.historyOf.Wf) (full : s.history ≠ [])
    (wentBack : Browser.back font fetch depth s = .ok s₁) (wentForward : Browser.forward font fetch depth' s₁ = .ok s₂) :
    s₂.historyOf = s.historyOf := by
  obtain ⟨backed, landed⟩ := back_goBack direct wentBack
  obtain ⟨forwarded, returned⟩ := forward_goForward direct wentForward
  -- Back lands on the last back entry, which is absolute, so resolves to itself.
  have entry : s₁.url = s.history.getLast full := by
    have itself : resolveUrl "" (s.history.getLast full) = .ok (s.history.getLast full) :=
      resolveUrl_of_absolute (wf.kept _ (List.mem_append_left _ (List.getLast_mem full))) ""
    exact Except.ok.inj ((landed _ (List.getLast?_eq_getLast s.history full)).symm.trans itself)
  -- Forward lands on the page back left, which is absolute too.
  have page : s₂.url = s.url := by
    have left : s₁.forwardHistory = s.forwardHistory ++ [s.url] := by
      simpa [History.goBack, Browser.historyOf, full] using congrArg History.forward backed
    have itself : resolveUrl "" s.url = .ok s.url := resolveUrl_of_absolute (wf.current fun empty => full (wf.empty empty).1) ""
    exact Except.ok.inj ((returned s.url (by simp [left])).symm.trans itself)
  rw [forwarded, backed, entry, page]
  exact History.goBack_goForward _ full

/--
In every state a run without redirects reaches from a new browser, `back()` and then `forward()` return the
history `(url, history, forward_history)` to where it was, whenever there is a page to go back to.
-/
theorem run_back_forward_restores (kioskMode : Bool) {s s₁ s₂ : Browser} {depth' : Nat}
    (run : Browser.Runs font fetch (Browser.new kioskMode) s) (full : s.history ≠ [])
    (wentBack : Browser.back font fetch depth s = .ok s₁) (wentForward : Browser.forward font fetch depth' s₁ = .ok s₂) :
    s₂.historyOf = s.historyOf :=
  back_forward_restores direct (runs_historyWf direct kioskMode run) full wentBack wentForward

end Direct

unseal parseFrom in
/-- Two pages opened one after the other, then back to the first and forward to the second. -/
theorem run_back_forward_restores_two_pages :
    let fetch : String → Except PyError (Int × String) := fun _ => .ok (200, "")
    let first := ((Browser.new false).enter "http://a.com/a" false false).load Font.fixed ""
    let s := (first.enter "http://a.com/b" false false).load Font.fixed ""
    let s₁ := (Browser.back Font.fixed fetch 1 s).toOption.getD s
    let s₂ := (Browser.forward Font.fixed fetch 1 s₁).toOption.getD s₁
    (∀ url r, fetch url = .ok r → r.1 ∉ redirectStatuses) ∧ Browser.Runs Font.fixed fetch (Browser.new false) s ∧
      s.history ≠ [] ∧ Browser.back Font.fixed fetch 1 s = .ok s₁ ∧ Browser.forward Font.fixed fetch 1 s₁ = .ok s₂ ∧
      s₂.historyOf = s.historyOf := by
  intro fetch first s s₁ s₂
  have direct : ∀ url r, fetch url = .ok r → r.1 ∉ redirectStatuses := fun _ _ fetched => by
    rw [← Except.ok.inj fetched]
    decide
  have run : Browser.Runs Font.fixed fetch (Browser.new false) s :=
    .tail (.single ⟨1, .navigate "http://a.com/a", rfl⟩) ⟨1, .navigate "http://a.com/b", rfl⟩
  have wentBack : Browser.back Font.fixed fetch 1 s = .ok s₁ := rfl
  have wentForward : Browser.forward Font.fixed fetch 1 s₁ = .ok s₂ := rfl
  exact ⟨direct, run, by decide, wentBack, wentForward,
    run_back_forward_restores direct false run (by decide) wentBack wentForward⟩

/-- A site whose page `/a` now redirects to `/c`; every other page answers 200. -/
def movedFetch (url : String) : Except PyError (Int × String) :=
  if url = "http://a.com/a" then .ok (302, "/c") else .ok (200, "")

unseal parseFrom in
/--
Visit `/a` and `/b` while both answer 200, then go back after `/a` has moved to `/c`: the code pushes the hop
`/a` and clears the forward stack, where the history model keeps `/b` to go forward to.
-/
theorem back_through_redirect_records_hop :
    ((Browser.navigate Font.fixed (fun _ => .ok (200, "")) 1 (Browser.new false) "http://a.com/a" false false >>=
        fun s => Browser.navigate Font.fixed (fun _ => .ok (200, "")) 1 s "http://a.com/b" false false) >>=
        Browser.back Font.fixed movedFetch 2).map Browser.historyOf =
      .ok ⟨"http://a.com/c", ["http://a.com/a"], []⟩ ∧
    (((History.mk "" [] []).visit "http://a.com/a").visit "http://a.com/b").goBack "http://a.com/c" =
      ⟨"http://a.com/c", [], ["http://a.com/b"]⟩ := by
  decide

end Kivi
