import Kivi.Html.Parser
import Kivi.Python.StrLaws

/-!
How the parser's scan splits at tag boundaries, what one tag can do to the stack and what a whole scan keeps,
and what a closing tag that matches nothing does.
-/

namespace Kivi

/-- Whether every `<` of a text has a `>` after it in the same text. -/
def tagsClosed : List Char → Bool
  | [] => true
  | c :: rest => (c != '<' || '>' ∈ rest) && tagsClosed rest

/-- A text whose tags are all closed has closed tags in every suffix. -/
theorem tagsClosed_of_append {pre suf : List Char} (closed : tagsClosed (pre ++ suf) = true) :
    tagsClosed suf = true := by
  -- Each character of the prefix is one conjunct to drop.
  induction pre with
  | nil => simpa using closed
  | cons c pre ih => exact ih (by simp only [List.cons_append, tagsClosed, Bool.and_eq_true] at closed; exact closed.2)

/-- Attaching a child keeps the parent's tag. -/
@[simp] theorem Element.addChild_tag (parent child : Element) : (parent.addChild child).tag = parent.tag :=
  rfl

/-- A `<` whose `>` is found is one tag, and the scan goes on after the `>`. -/
theorem parseFrom_tag {rest : List Char} {k : Nat} (found : findChar '>' rest = some k) (frames : Frames) :
    parseFrom ('<' :: rest) frames = parseFrom (rest.drop (k + 1)) (handleTag (stripList (rest.take k)) frames) := by
  rw [parseFrom.eq_2]
  simp [found]

/-- A tag whose body has no `>` is read whole, and the scan goes on right after its `>`. -/
theorem parseFrom_tag_append {body : List Char} (noGt : '>' ∉ body) (rest : List Char) (frames : Frames) :
    parseFrom ('<' :: (body ++ '>' :: rest)) frames = parseFrom rest (handleTag (stripList body) frames) := by
  have dropped : (body ++ '>' :: rest).drop (body.length + 1) = rest := by
    simp
  rw [parseFrom_tag (findChar_append_cons noGt rest), List.take_left' rfl, dropped]

/-- Any other character starts a text run that ends at the next `<`. -/
theorem parseFrom_text {c : Char} (plain : c ≠ '<') (rest : List Char) (frames : Frames) :
    parseFrom (c :: rest) frames =
      parseFrom (rest.dropWhile (· ≠ '<')) (handleText (c :: rest.takeWhile (· ≠ '<')) frames) := by
  rw [parseFrom.eq_2, if_neg plain]

/-- A text run followed by a boundary stops where it stops without it, and leaves the boundary to be read. -/
theorem run_append_boundary {rest : List Char} (boundary : rest.takeWhile (· ≠ '<') = []) (run : List Char) :
    (run ++ rest).takeWhile (· ≠ '<') = run.takeWhile (· ≠ '<') ∧
      (run ++ rest).dropWhile (· ≠ '<') = run.dropWhile (· ≠ '<') ++ rest := by
  induction run with
  | nil =>
    -- What is not taken from the boundary is all of it.
    have whole := List.takeWhile_append_dropWhile (· ≠ '<') rest
    rw [boundary, List.nil_append] at whole
    exact ⟨boundary, whole⟩
  | cons x run ih =>
    by_cases stop : x = '<'
    · -- The run stops at the `<` before the boundary.
      simp only [List.cons_append, List.takeWhile_cons, List.dropWhile_cons, stop, ne_eq, not_true_eq_false,
        decide_False, Bool.false_eq_true, ite_false, and_self]
    · simp only [List.cons_append, List.takeWhile_cons, List.dropWhile_cons, stop, ne_eq, not_false_eq_true,
        decide_True, ite_true, ih.1, ih.2, and_self]

/--
A prefix whose tags are all closed is scanned to its end before anything after it is read, when
what follows starts a tag or is empty.
-/
theorem parseFrom_append {rest : List Char} (boundary : rest.takeWhile (· ≠ '<') = []) :
    ∀ (a : List Char) (frames : Frames), tagsClosed a = true →
      parseFrom (a ++ rest) frames = parseFrom rest (parseFrom a frames) := by
  intro a frames
  induction a, frames using parseFrom.induct with
  | case1 frames => intro; rw [List.nil_append, parseFrom.eq_1]
  | case2 tail frames missing =>
    -- The prefix's own `>` is there to be found.
    intro closed
    simp [tagsClosed, findChar_eq_none.mp missing] at closed
  | case3 tail frames k found ih =>
    -- The tag lies inside the prefix, so the longer text reads the same tag.
    intro closed
    have inside := findChar_lt found
    rw [List.cons_append, parseFrom_tag (findChar_append_of_some found rest), parseFrom_tag found,
      List.take_append_of_le_length (by omega), List.drop_append_of_le_length (by omega)]
    have whole : tagsClosed (('<' :: tail.take (k + 1)) ++ tail.drop (k + 1)) = true := by
      rw [List.cons_append, List.take_append_drop]
      exact closed
    exact ih (tagsClosed_of_append whole)
  | case4 c tail frames plain ih =>
    -- The run stops inside the prefix, or at its end, where the boundary stops it.
    intro closed
    obtain ⟨taken, dropped⟩ := run_append_boundary boundary tail
    rw [List.cons_append, parseFrom_text plain, parseFrom_text plain, taken, dropped]
    obtain ⟨front, split⟩ : tail.dropWhile (· ≠ '<') <:+ tail := List.dropWhile_suffix _
    have tailClosed : tagsClosed tail = true := tagsClosed_of_append (show tagsClosed ([c] ++ tail) = true from closed)
    exact ih (tagsClosed_of_append (split ▸ tailClosed))

/-- The scan of a prefix whose tags are all closed ends where a tag after it starts. -/
theorem parseFrom_append_tag {a : List Char} (closed : tagsClosed a = true) (rest : List Char)
    (frames : Frames) :
    parseFrom (a ++ '<' :: rest) frames = parseFrom ('<' :: rest) (parseFrom a frames) :=
  parseFrom_append (by simp) a frames closed

/-! ## What a tag can do, and what a whole scan keeps -/

/-- The pop loop of a closing tag pops some number of times. -/
theorem Frames.popUntilFrom_eq_iterate (name : String) (top : Element) (below : List Element) :
    ∃ n, popUntilFrom name top below = pop^[n] ⟨top, below⟩ := by
  induction below generalizing top with
  | nil => exact ⟨0, rfl⟩
  | cons parent rest ih =>
    -- Either the top is the element looked for, or it is popped and the search goes on below it.
    unfold popUntilFrom
    split
    · exact ⟨0, rfl⟩
    · obtain ⟨n, popped⟩ := ih (parent.addChild top)
      exact ⟨n + 1, popped⟩

/-- A closing tag pops some number of times. -/
theorem closeTag_eq_iterate (name : String) (frames : Frames) : ∃ n, closeTag name frames = Frames.pop^[n] frames := by
  obtain ⟨n, popped⟩ := Frames.popUntilFrom_eq_iterate name frames.top frames.below
  exact ⟨n + 1, by rw [Function.iterate_succ_apply', closeTag, Frames.popUntil, popped]⟩

/-- A tag opens an element, or pops some number of times: a declaration pops none. -/
theorem handleTag_cases (content : List Char) (frames : Frames) :
    handleTag content frames = openTag content frames ∨ ∃ n, handleTag content frames = Frames.pop^[n] frames := by
  unfold handleTag
  split
  · exact .inr ⟨0, rfl⟩
  split
  · exact .inr (closeTag_eq_iterate _ frames)
  · exact .inl rfl

/-- Closing the stack pops it down to the root. -/
theorem Frames.iterate_close (frames : Frames) : pop^[frames.below.length] frames = ⟨frames.close, []⟩ := by
  obtain ⟨top, below⟩ := frames
  induction below generalizing top with
  | nil => rfl
  | cons parent rest ih => exact ih (parent.addChild top)

/-- A property of the stack that every tag keeps, and every text run of allowed characters. -/
structure ScanInvariant (allowed : Char → Prop) (P : Frames → Prop) : Prop where
  /-- A tag keeps it. -/
  tag : ∀ content frames, P frames → P (handleTag content frames)
  /-- A text run of allowed characters keeps it. -/
  text : ∀ run frames, (∀ c ∈ run, allowed c) → P frames → P (handleText run frames)

/-- A scan of allowed characters keeps a scan invariant: the runs it reads are read from its input. -/
theorem parseFrom_keeps {allowed : Char → Prop} {P : Frames → Prop} (inv : ScanInvariant allowed P)
    (html : List Char) (frames : Frames) (chars : ∀ c ∈ html, allowed c) (start : P frames) :
    P (parseFrom html frames) := by
  induction html, frames using parseFrom.induct with
  | case1 frames => rwa [parseFrom.eq_1]
  | case2 rest frames missing =>
    rw [parseFrom.eq_2]
    simpa [missing] using start
  | case3 rest frames k found ih =>
    rw [parseFrom_tag found]
    exact ih (fun c member => chars c (List.mem_cons_of_mem _ (List.mem_of_mem_drop member))) (inv.tag _ _ start)
  | case4 c rest frames plain ih =>
    -- The run is the character and what follows it up to the next tag.
    rw [parseFrom_text plain]
    refine ih (fun d member => chars d (List.mem_cons_of_mem _ ((List.dropWhile_suffix _).subset member)))
      (inv.text _ _ (fun d member => chars d ?_) start)
    rcases List.mem_cons.mp member with rfl | later
    · exact List.mem_cons_self _ _
    · exact List.mem_cons_of_mem _ ((List.takeWhile_prefix _).subset later)

/-- The name a closing tag `</n>` pops to: `tag_content[1:].strip().lower()` of its stripped body. -/
def closingName (n : List Char) : String :=
  pyLower (pyStrip ⟨(stripList ('/' :: n)).drop 1⟩)

/-- Stripping a body that starts with `/` keeps the `/` in front. -/
theorem stripList_slash (n : List Char) : ∃ m, stripList ('/' :: n) = '/' :: m := by
  -- Only blanks at the end can go, and the `/` is not one.
  have solid : ¬isSpace '/' = true := by decide
  rw [stripList, List.dropWhile_cons_of_neg solid, List.reverse_cons, List.dropWhile_append]
  split
  · exact ⟨[], by rw [List.dropWhile_cons_of_neg solid]; rfl⟩
  · exact ⟨_, List.reverse_append _ _⟩

/-- The body of `</n>` is a closing tag for `closingName n`. -/
theorem handleTag_close (n : List Char) (frames : Frames) :
    handleTag (stripList ('/' :: n)) frames = closeTag (closingName n) frames := by
  obtain ⟨m, stripped⟩ := stripList_slash n
  simp [handleTag, closingName, stripped, startsWith]

/-- Popping for a name no open element has closes every open element. -/
theorem popUntilFrom_unmatched (name : String) :
    ∀ (below : List Element) (top : Element), name ∉ (top :: below).dropLast.map Element.tag →
      Frames.popUntilFrom name top below = ⟨Frames.closeFrom top below, []⟩
  | [], _, _ => rfl
  | parent :: rest, top, unmatched => by
    -- The top is not the element looked for, so it is closed and the search goes on below it.
    have tags : (parent.addChild top :: rest).dropLast.map Element.tag =
        (parent :: rest).dropLast.map Element.tag := by
      simp [List.map_dropLast]
    simp only [List.dropLast_cons₂, List.map_cons, List.mem_cons, not_or] at unmatched
    rw [Frames.popUntilFrom, if_neg (Ne.symm unmatched.1),
      popUntilFrom_unmatched name rest _ (by rw [tags]; exact unmatched.2)]
    rfl

/-- A closing tag that matches no open element closes them all. -/
theorem closeTag_unmatched {name : String} {frames : Frames} (unmatched : name ∉ frames.openTags) :
    closeTag name frames = ⟨frames.close, []⟩ := by
  simp only [closeTag, Frames.popUntil, popUntilFrom_unmatched name frames.below frames.top unmatched]
  rfl

/--
A closing tag `</n>` that matches no open element after a prefix `a` is not ignored: it closes
every open element, and whatever follows is attached to the root.
-/
theorem parseHtml_unmatched_close (a n b : String) (closed : tagsClosed a.data = true)
    (noGt : '>' ∉ n.data) (unmatched : closingName n.data ∉ (parseFrom a.data rootFrames).openTags) :
    parseHtml (a ++ "</" ++ n ++ ">" ++ b) =
      (parseFrom b.data ⟨(parseFrom a.data rootFrames).close, []⟩).close := by
  -- The prefix is scanned alone, then the tag `</n>` is one step of the scan.
  have text : (a ++ "</" ++ n ++ ">" ++ b).data = a.data ++ '<' :: (('/' :: n.data) ++ '>' :: b.data) := by
    simp
  have found : findChar '>' (('/' :: n.data) ++ '>' :: b.data) = some (n.data.length + 1) := by
    rw [findChar_append_cons (by simp [noGt])]
    rfl
  have taken : (('/' :: n.data) ++ '>' :: b.data).take (n.data.length + 1) = '/' :: n.data :=
    List.take_left' (by simp)
  have dropped : (('/' :: n.data) ++ '>' :: b.data).drop (n.data.length + 1 + 1) = b.data := by
    rw [List.append_cons]
    exact List.drop_left' (by simp)
  rw [parseHtml, text, parseFrom_append_tag closed, parseFrom_tag found, taken, dropped, handleTag_close,
    closeTag_unmatched unmatched]

unseal parseFrom in
/-- After `<html><body>`, a stray `</span>` closes both, and the text after it goes to the root. -/
theorem parseHtml_unmatched_close_span :
    (tagsClosed "<html><body>".data = true ∧ '>' ∉ "span".data ∧
      closingName "span".data ∉ (parseFrom "<html><body>".data rootFrames).openTags) ∧
    parseHtml ("<html><body>" ++ "</" ++ "span" ++ ">" ++ "x") =
      (parseFrom "x".data ⟨(parseFrom "<html><body>".data rootFrames).close, []⟩).close :=
  ⟨⟨by decide, by decide, by decide⟩,
    parseHtml_unmatched_close "<html><body>" "span" "x" (by decide) (by decide) (by decide)⟩

unseal parseFrom decodeFrom in
/-- A stray `</span>` after `<html><body>` is not the ignored `<!>`: the text lands in the root. -/
theorem parseHtml_stray_close_not_ignored :
    tagsClosed "<html><body>".data = true ∧ "span" ∉ (parseFrom "<html><body>".data rootFrames).openTags ∧
      parseHtml ("<html><body>" ++ "</" ++ "span" ++ ">" ++ "x") ≠ parseHtml ("<html><body>" ++ "<!>" ++ "x") :=
  ⟨by decide, by decide, fun same => absurd (congrArg Element.text same) (by decide)⟩

end Kivi
