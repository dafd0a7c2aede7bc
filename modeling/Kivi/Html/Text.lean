import Kivi.Html.ParserLaws
import Kivi.Html.EntitiesLaws

/-! The texts `parse_html` leaves in its elements: one blank between words, unless a run decodes to blanks only. -/

namespace Kivi

/-- Whether a text is as `' '.join(t.split())` leaves it: no blank at either end and one blank between words. -/
def collapsed (t : String) : Bool :=
  pyJoin " " (pySplit t) = t

mutual

/-- Whether every text of a tree passes a test. -/
def textsAll (ok : String → Bool) : Element → Bool
  | ⟨_, _, children, text⟩ => ok text && textsAllOf ok children

/-- Whether every text of a list of trees passes a test. -/
def textsAllOf (ok : String → Bool) : List Element → Bool
  | [] => true
  | e :: es => textsAll ok e && textsAllOf ok es

end

/-- Whether every text of every element on the parser's stack, and below each, passes a test. -/
def Frames.TextsAll (ok : String → Bool) (frames : Frames) : Prop :=
  textsAll ok frames.top = true ∧ ∀ e ∈ frames.below, textsAll ok e = true

section Texts

variable {ok : String → Bool}

/-- A tree passes when its own text and its children do. -/
theorem textsAll_iff (e : Element) : textsAll ok e = true ↔ ok e.text = true ∧ textsAllOf ok e.children = true := by
  cases e
  simp [textsAll]

/-- A list of trees passes when each tree does. -/
theorem textsAllOf_iff : ∀ es : List Element, textsAllOf ok es = true ↔ ∀ e ∈ es, textsAll ok e = true
  | [] => by simp [textsAllOf]
  | e :: es => by simp [textsAllOf, textsAllOf_iff es]

/-- Attaching a passing child keeps a tree passing. -/
theorem textsAll_addChild {parent child : Element} (kept : textsAll ok parent = true)
    (added : textsAll ok child = true) :
    textsAll ok (parent.addChild child) = true := by
  rw [textsAll_iff, textsAllOf_iff] at kept ⊢
  simp only [Element.addChild, List.mem_append, List.mem_singleton]
  exact ⟨kept.1, fun e member => member.elim (kept.2 e) fun same => same ▸ added⟩

/-- A fresh element passes when the empty text does. -/
theorem textsAll_new (empty : ok "" = true) (tag : String) (attrs : Attrs) :
    textsAll ok (Element.new tag attrs) = true := by
  simp [Element.new, textsAll, textsAllOf, empty]

/-- Closing the top element keeps the stack passing. -/
theorem pop_texts {frames : Frames} (kept : frames.TextsAll ok) : frames.pop.TextsAll ok := by
  obtain ⟨top, below⟩ := frames
  cases below with
  | nil => exact kept
  | cons parent rest =>
    exact ⟨textsAll_addChild (kept.2 parent (by simp)) kept.1, fun e member => kept.2 e (List.mem_cons_of_mem _ member)⟩

/-- Pop after pop keeps the stack passing. -/
theorem iterate_texts {frames : Frames} (kept : frames.TextsAll ok) (n : Nat) :
    (Frames.pop^[n] frames).TextsAll ok := by
  induction n with
  | zero => exact kept
  | succ n ih => rw [Function.iterate_succ_apply']; exact pop_texts ih

/-- A tag keeps the stack passing: it opens an element with no text, or closes open ones. -/
theorem handleTag_texts (empty : ok "" = true) (content : List Char) {frames : Frames} (kept : frames.TextsAll ok) :
    (handleTag content frames).TextsAll ok := by
  rcases handleTag_cases content frames with opened | ⟨n, popped⟩
  · -- The new element is pushed, or attached to the top.
    rw [opened, openTag]
    split
    · exact ⟨textsAll_new empty _ _, fun e member => (List.mem_cons.mp member).elim (· ▸ kept.1) (kept.2 e)⟩
    · exact ⟨textsAll_addChild kept.1 (textsAll_new empty _ _), kept.2⟩
  · rw [popped]
    exact iterate_texts kept n

/-- Passing is a scan invariant when every text run the input can give keeps it. -/
theorem texts_scanInvariant (allowed : Char → Prop) (empty : ok "" = true)
    (keepsText : ∀ run frames, (∀ c ∈ run, allowed c) → Frames.TextsAll ok frames → (handleText run frames).TextsAll ok) :
    ScanInvariant allowed (Frames.TextsAll ok) :=
  ⟨fun content _ kept => handleTag_texts empty content kept, keepsText⟩

/-- Attaching every open element to the one below keeps the tree passing. -/
theorem close_texts {frames : Frames} (kept : frames.TextsAll ok) : textsAll ok frames.close = true := by
  have closed := iterate_texts kept frames.below.length
  rw [Frames.iterate_close] at closed
  exact closed.1

/-- Every text of the page passes when the empty text does and every run the input can give keeps the stack passing. -/
theorem parseHtml_texts (allowed : Char → Prop) (empty : ok "" = true)
    (keepsText : ∀ run frames, (∀ c ∈ run, allowed c) → Frames.TextsAll ok frames → (handleText run frames).TextsAll ok)
    (html : String) (chars : ∀ c ∈ html.data, allowed c) : textsAll ok (parseHtml html) = true :=
  close_texts (parseFrom_keeps (texts_scanInvariant allowed empty keepsText) html.data rootFrames chars
    ⟨textsAll_new empty _ _, nofun⟩)

end Texts

/-! ## Collapsed texts -/

/-- The joined words of a text are collapsed. -/
theorem collapsed_pyJoin_pySplit (s : String) : collapsed (pyJoin " " (pySplit s)) = true := by
  simp [collapsed, pySplit_pyJoin_pySplit]

/-- A collapsed text, one blank, and the joined words of a text with a word are collapsed together. -/
theorem collapsed_append_pyJoin {t : String} (kept : collapsed t = true) (shown : t ≠ "") {s : String}
    (worded : pySplit s ≠ []) : collapsed (t ++ " " ++ pyJoin " " (pySplit s)) = true := by
  have same : pyJoin " " (pySplit t) = t := of_decide_eq_true kept
  -- A collapsed text that is not empty has a word.
  have words : pySplit t ≠ [] := fun nothing => shown (by rw [← same, nothing]; rfl)
  have joined : pyJoin " " (pySplit t ++ pySplit s) = pyJoin " " (pySplit t) ++ " " ++ pyJoin " " (pySplit s) := by
    simp only [pyJoin, List.map_append]
    rw [joinWith_append _ (by simpa using words) (by simpa using worded)]
    rfl
  simp only [collapsed, pySplit_append_blank, pySplit_pyJoin_pySplit, joined, same, decide_True]

/-- A run with no `&` keeps every text collapsed: a run that is not blank has a word to add. -/
theorem handleText_collapsed {run : List Char} (plain : ∀ c ∈ run, c ≠ '&') {frames : Frames}
    (kept : frames.TextsAll collapsed) : (handleText run frames).TextsAll collapsed := by
  unfold handleText
  split
  · exact kept
  · rename_i solid
    have decoded : decodeEntities ⟨run⟩ = ⟨run⟩ := congrArg String.mk (decodeFrom_of_not_mem fun amp => plain _ amp rfl)
    have worded : pySplit ⟨run⟩ ≠ [] := fun nothing => solid (by
      -- A run with no word is blanks only, which `str.strip()` empties.
      have blank := blank_of_pySplit_eq_nil nothing
      simp [stripList, List.dropWhile_eq_nil_iff.mpr blank])
    have top := (textsAll_iff _).mp kept.1
    refine ⟨(textsAll_iff _).mpr ⟨?_, top.2⟩, kept.2⟩
    dsimp only
    rw [decoded]
    split
    · rename_i empty
      rw [empty, String.empty_append]
      exact collapsed_pyJoin_pySplit _
    · exact collapsed_append_pyJoin top.1 ‹_› worded

/-- Every text of a page without `&` is collapsed: no leading or trailing blank, never two blanks in a row. -/
theorem parseHtml_collapsed_of_no_reference (html : String) (plain : '&' ∉ html.data) :
    textsAll collapsed (parseHtml html) = true :=
  parseHtml_texts (· ≠ '&') (by decide) (fun _ _ chars kept => handleText_collapsed chars kept) html
    fun _ member same => plain (same ▸ member)

unseal parseFrom decodeFrom in
/-- After `a<br>`, the run `&#32;` decodes to a blank only, yet it still adds the joining blank: the root text is `a `. -/
theorem parseHtml_blank_reference_leaves_space :
    (parseHtml "a<br>&#32;").text = "a " ∧ collapsed (parseHtml "a<br>&#32;").text = false := by
  decide

end Kivi
