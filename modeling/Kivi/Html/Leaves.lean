import Kivi.Html.ParserLaws

/-!
The stack of `parse_html` never holds a void element, and the elements it attaches at once, void or self-closing,
stay leaves with no text in the tree it returns.
-/

namespace Kivi

mutual

/-- Every element of a tree: the tree itself, then the elements of its children in order. -/
def nodesOf : Element → List Element
  | ⟨tag, attrs, children, text⟩ => ⟨tag, attrs, children, text⟩ :: nodesOfAll children

/-- Every element of a list of trees, in order. -/
def nodesOfAll : List Element → List Element
  | [] => []
  | e :: es => nodesOf e ++ nodesOfAll es

end

/-- A tree's elements are itself and those of its children. -/
theorem nodesOf_eq (e : Element) : nodesOf e = e :: nodesOfAll e.children := by
  cases e
  rw [nodesOf]

/-- The elements of two lists of trees, one after the other. -/
@[simp] theorem nodesOfAll_append : ∀ es fs : List Element, nodesOfAll (es ++ fs) = nodesOfAll es ++ nodesOfAll fs
  | [], _ => rfl
  | e :: es, fs => by rw [List.cons_append, nodesOfAll, nodesOfAll, nodesOfAll_append es fs, List.append_assoc]

/-- The elements of one tree as a list. -/
@[simp] theorem nodesOfAll_singleton (e : Element) : nodesOfAll [e] = nodesOf e := by
  rw [nodesOfAll, nodesOfAll, List.append_nil]

/-- The name and attributes `parse_html` reads from the content of an opening tag. -/
def tagNamed (content : List Char) : String × Attrs :=
  match findChar ' ' content with
  | none => (pyLower ⟨(content.reverse.dropWhile (· = '/')).reverse⟩, [])
  | some space => (pyLower ⟨content.take space⟩, parseAttrs ⟨content.drop space⟩)

/-- The element an opening tag makes. -/
def tagElement (content : List Char) : Element :=
  Element.new (tagNamed content).1 (tagNamed content).2

/-- An opening tag pushes its element, unless it is void or self-closing, when it is attached at once. -/
theorem openTag_eq (content : List Char) (frames : Frames) :
    openTag content frames =
      if (tagNamed content).1 ∉ voidTags ∧ endsWith ⟨content⟩ "/" = false then
        ⟨tagElement content, frames.top :: frames.below⟩
      else ⟨frames.top.addChild (tagElement content), frames.below⟩ :=
  rfl

namespace Frames

/-- The elements closed under the stack: those of the trees already attached to an open element. -/
def closedNodes (frames : Frames) : List Element :=
  (frames.top :: frames.below).flatMap fun e => nodesOfAll e.children

/-- The bottom of the stack. -/
def bottom (frames : Frames) : Element :=
  frames.below.getLastD frames.top

/--
The stack as `parse_html` keeps it: the root at the bottom, no void element open, and every closed element with
a void tag a leaf with no text.
-/
structure Leafy (frames : Frames) : Prop where
  /-- The root stays at the bottom. -/
  rooted : frames.bottom.tag = "root"
  /-- No open element has a void tag. -/
  unvoid : ∀ e ∈ frames.top :: frames.below, e.tag ∉ voidTags
  /-- Every closed element with a void tag has no children and no text. -/
  leaves : ∀ n ∈ frames.closedNodes, n.tag ∈ voidTags → n.children = [] ∧ n.text = ""

/-- Attaching a child to the top adds the child's elements to the closed ones. -/
theorem closedNodes_addChild (top child : Element) (below : List Element) :
    (closedNodes ⟨top.addChild child, below⟩).Perm (nodesOf child ++ closedNodes ⟨top, below⟩) := by
  simp only [closedNodes, List.flatMap_cons, Element.addChild]
  rw [nodesOfAll_append, nodesOfAll_singleton, List.append_assoc]
  exact List.perm_append_comm_assoc _ _ _

/-- Attaching a child to the top loses no closed element. -/
theorem closedNodes_addChild_subperm (top child : Element) (below : List Element) :
    (closedNodes ⟨top, below⟩).Subperm (closedNodes ⟨top.addChild child, below⟩) :=
  ((List.sublist_append_right _ _).subperm).trans (closedNodes_addChild top child below).symm.subperm

/-- Popping loses no closed element. -/
theorem closedNodes_pop (frames : Frames) : frames.closedNodes.Subperm frames.pop.closedNodes := by
  obtain ⟨top, _ | ⟨parent, rest⟩⟩ := frames
  · exact List.Subperm.refl _
  · -- The top's elements were closed already; they now sit under the parent with the top itself.
    have grown : (closedNodes ⟨top, parent :: rest⟩).Sublist (nodesOf top ++ closedNodes ⟨parent, rest⟩) := by
      rw [nodesOf_eq]
      exact List.sublist_cons_self _ _
    exact grown.subperm.trans (closedNodes_addChild parent top rest).symm.subperm

/-- Replacing the top by an element of its tag keeps the stack leafy, if the closed void elements stay leaves. -/
theorem Leafy.retop {top : Element} {below : List Element} (leafy : Leafy ⟨top, below⟩) {top' : Element}
    (tag : top'.tag = top.tag)
    (leaves : ∀ n ∈ closedNodes ⟨top', below⟩, n.tag ∈ voidTags → n.children = [] ∧ n.text = "") :
    Leafy ⟨top', below⟩ := by
  obtain ⟨rooted, unvoid, _⟩ := leafy
  refine ⟨by cases below <;> simpa [bottom, tag] using rooted, fun e member => ?_, leaves⟩
  rcases List.mem_cons.mp member with rfl | lower
  · exact tag ▸ unvoid top (List.mem_cons_self _ _)
  · exact unvoid e (List.mem_cons_of_mem _ lower)

/-- Attaching to the top of a leafy stack a child whose void elements are leaves keeps it leafy. -/
theorem Leafy.addChild {top : Element} {below : List Element} (leafy : Leafy ⟨top, below⟩) (child : Element)
    (leaves : ∀ n ∈ nodesOf child, n.tag ∈ voidTags → n.children = [] ∧ n.text = "") :
    Leafy ⟨top.addChild child, below⟩ :=
  leafy.retop rfl fun n member => by
    rcases List.mem_append.mp ((closedNodes_addChild top child below).mem_iff.mp member) with fresh | old
    · exact leaves n fresh
    · exact leafy.leaves n old

/-- Popping keeps the stack leafy: the element it closes is no void element. -/
theorem Leafy.pop {frames : Frames} (leafy : frames.Leafy) : frames.pop.Leafy := by
  obtain ⟨top, _ | ⟨parent, rest⟩⟩ := frames
  · exact leafy
  · obtain ⟨rooted, unvoid, closed⟩ := leafy
    -- Below the top, the stack is leafy, and the top's own elements are closed already.
    have lower : Leafy ⟨parent, rest⟩ := ⟨by simpa only [bottom, List.getLastD_cons] using rooted,
      fun e member => unvoid e (List.mem_cons_of_mem _ member), fun n member => closed n (List.mem_append_right _ member)⟩
    refine lower.addChild top fun n member => ?_
    rw [nodesOf_eq] at member
    rcases List.mem_cons.mp member with rfl | inner
    · exact fun void => absurd void (unvoid _ (List.mem_cons_self _ _))
    · exact closed n (List.mem_append_left _ inner)

/-- Pop after pop keeps the stack leafy. -/
theorem Leafy.iterate {frames : Frames} (leafy : frames.Leafy) (n : Nat) : (Frames.pop^[n] frames).Leafy := by
  induction n with
  | zero => exact leafy
  | succ n ih => rw [Function.iterate_succ_apply']; exact ih.pop

/-- Pop after pop loses no closed element. -/
theorem closedNodes_iterate (frames : Frames) (n : Nat) : frames.closedNodes.Subperm (pop^[n] frames).closedNodes := by
  induction n with
  | zero => exact List.Subperm.refl _
  | succ n ih => rw [Function.iterate_succ_apply']; exact ih.trans (closedNodes_pop _)

end Frames

open Frames

/-- An opening tag loses no closed element; a leaf it attaches joins them. -/
theorem closedNodes_openTag (content : List Char) (frames : Frames) :
    frames.closedNodes.Subperm (openTag content frames).closedNodes := by
  rw [openTag_eq]
  split
  · exact List.Subperm.refl _
  · exact closedNodes_addChild_subperm _ _ _

/-- The element an opening tag makes is a leaf with no text. -/
theorem nodesOf_new (tag : String) (attrs : Attrs) : nodesOf (Element.new tag attrs) = [Element.new tag attrs] := by
  rw [nodesOf_eq]
  rfl

/-- The name of an opening tag is lower-cased already. -/
theorem pyLower_tagNamed (content : List Char) : pyLower (tagNamed content).1 = (tagNamed content).1 := by
  unfold tagNamed
  split <;> exact pyLower_pyLower _

/-- An opening tag keeps the stack leafy: what it pushes is not void, and what it attaches is a bare leaf. -/
theorem Frames.Leafy.openTag {frames : Frames} (leafy : frames.Leafy) (content : List Char) :
    (openTag content frames).Leafy := by
  obtain ⟨top, below⟩ := frames
  rw [openTag_eq]
  split
  · next pushed =>
    -- The pushed element is void only if its name is, and it closes nothing.
    obtain ⟨rooted, unvoid, closed⟩ := leafy
    refine ⟨by simpa only [bottom, List.getLastD_cons] using rooted, fun e member => ?_, closed⟩
    rcases List.mem_cons.mp member with rfl | lower
    · show pyLower _ ∉ voidTags
      rw [pyLower_tagNamed]
      exact pushed.1
    · exact unvoid e lower
  · refine leafy.addChild _ fun n member _ => ?_
    rw [tagElement, nodesOf_new, List.mem_singleton] at member
    subst member
    exact ⟨rfl, rfl⟩

/-- A text run changes only the top element's text. -/
theorem handleText_eq (run : List Char) (frames : Frames) :
    ∃ text, handleText run frames = ⟨{ frames.top with text := text }, frames.below⟩ := by
  unfold handleText
  split
  · exact ⟨frames.top.text, by obtain ⟨⟨⟩, _⟩ := frames; rfl⟩
  · exact ⟨_, rfl⟩

/-- A text run closes nothing. -/
theorem closedNodes_handleText (run : List Char) (frames : Frames) :
    (handleText run frames).closedNodes = frames.closedNodes := by
  obtain ⟨text, changed⟩ := handleText_eq run frames
  rw [changed]
  rfl

/-- A text run keeps the stack leafy. -/
theorem Frames.Leafy.handleText {frames : Frames} (leafy : frames.Leafy) (run : List Char) :
    (handleText run frames).Leafy := by
  obtain ⟨top, below⟩ := frames
  obtain ⟨text, changed⟩ := handleText_eq run ⟨top, below⟩
  rw [changed]
  exact leafy.retop rfl leafy.leaves

/-- A tag loses no closed element. -/
theorem closedNodes_handleTag (content : List Char) (frames : Frames) :
    frames.closedNodes.Subperm (handleTag content frames).closedNodes := by
  rcases handleTag_cases content frames with opened | ⟨n, popped⟩
  · rw [opened]
    exact closedNodes_openTag content frames
  · rw [popped]
    exact closedNodes_iterate frames n

/-- A tag keeps the stack leafy. -/
theorem Frames.Leafy.handleTag {frames : Frames} (leafy : frames.Leafy) (content : List Char) :
    (handleTag content frames).Leafy := by
  rcases handleTag_cases content frames with opened | ⟨n, popped⟩
  · rw [opened]
    exact leafy.openTag content
  · rw [popped]
    exact leafy.iterate n

/-! ## The scan -/

/-- The states the scan of `parse_html` passes through from `(html, frames)`: the input left, and the stack. -/
inductive Passes (html : List Char) (frames : Frames) : List Char → Frames → Prop
  /-- The scan starts from the whole input. -/
  | start : Passes html frames html frames
  /-- A tag `<...>` is read. -/
  | tag {rest : List Char} {k : Nat} {reached : Frames} : Passes html frames ('<' :: rest) reached →
      findChar '>' rest = some k →
      Passes html frames (rest.drop (k + 1)) (handleTag (stripList (rest.take k)) reached)
  /-- A text run up to the next `<` is read. -/
  | text {c : Char} {rest : List Char} {reached : Frames} : Passes html frames (c :: rest) reached → c ≠ '<' →
      Passes html frames (rest.dropWhile (· ≠ '<')) (handleText (c :: rest.takeWhile (· ≠ '<')) reached)

/-- The scan ends with what it would end with from any state it passes through. -/
theorem Passes.parseFrom_eq {html rest : List Char} {frames reached : Frames}
    (passes : Passes html frames rest reached) : parseFrom html frames = parseFrom rest reached := by
  induction passes with
  | start => rfl
  | tag _ found ih => rw [ih, parseFrom_tag found]
  | text _ plain ih => rw [ih, parseFrom_text plain]

/-- A scan invariant holds of every state the scan passes through. -/
theorem Passes.keeps {P : Frames → Prop} (inv : ScanInvariant (fun _ => True) P) {html rest : List Char}
    {frames reached : Frames} (passes : Passes html frames rest reached) (start : P frames) : P reached := by
  induction passes with
  | start => exact start
  | tag _ _ ih => exact inv.tag _ _ ih
  | text _ _ ih => exact inv.text _ _ (fun _ _ => trivial) ih

/-- Leafiness is a scan invariant. -/
theorem leafy_scanInvariant : ScanInvariant (fun _ => True) Frames.Leafy :=
  ⟨fun _ _ leafy => leafy.handleTag _, fun _ _ _ leafy => leafy.handleText _⟩

/-- Keeping the elements closed at some point is a scan invariant. -/
theorem closedNodes_scanInvariant (frames : Frames) :
    ScanInvariant (fun _ => True) fun reached => frames.closedNodes.Subperm reached.closedNodes :=
  ⟨fun content _ kept => kept.trans (closedNodes_handleTag content _),
    fun run reached _ kept => (closedNodes_handleText run reached).symm ▸ kept⟩

/-- The tree of a leafy stack has its void elements as bare leaves. -/
theorem Frames.Leafy.close {frames : Frames} (leafy : frames.Leafy) :
    ∀ n ∈ nodesOf frames.close, n.tag ∈ voidTags → n.children = [] ∧ n.text = "" := by
  have closed := leafy.iterate frames.below.length
  rw [iterate_close] at closed
  intro n member
  rw [nodesOf_eq] at member
  rcases List.mem_cons.mp member with rfl | inner
  · exact fun void => absurd void (closed.unvoid _ (List.mem_cons_self _ _))
  · exact closed.leaves n (List.mem_append_left _ inner)

/-- The tree of a stack holds every element closed under it. -/
theorem closedNodes_close (frames : Frames) : frames.closedNodes.Subperm (nodesOf frames.close) := by
  have kept := closedNodes_iterate frames frames.below.length
  rw [iterate_close] at kept
  have root : closedNodes ⟨frames.close, []⟩ = nodesOfAll frames.close.children := List.append_nil _
  rw [root] at kept
  rw [nodesOf_eq]
  exact kept.trans (List.sublist_cons_self _ _).subperm

/-- The stack `parse_html` starts from is leafy. -/
theorem rootFrames_leafy : rootFrames.Leafy :=
  ⟨rfl, by decide, nofun⟩

/-- An opening tag that is not pushed: its element is void or its content ends with `/`. -/
def LeafTag (content : List Char) : Prop :=
  startsWith ⟨content⟩ "!" = false ∧ startsWith ⟨content⟩ "/" = false ∧
    ((tagNamed content).1 ∈ voidTags ∨ endsWith ⟨content⟩ "/" = true)

/-- A void or self-closing tag attaches its element to the top, and pushes nothing. -/
theorem handleTag_leafTag {content : List Char} (leaf : LeafTag content) (frames : Frames) :
    handleTag content frames = ⟨frames.top.addChild (tagElement content), frames.below⟩ := by
  obtain ⟨notBang, notSlash, attached⟩ := leaf
  rw [handleTag, if_neg (by simp [notBang]), if_neg (by simp [notSlash]), openTag_eq, if_neg]
  rintro ⟨unvoid, unslashed⟩
  rcases attached with void | slashed
  · exact unvoid void
  · simp [slashed] at unslashed

/--
Every void element of the tree `parse_html` returns is a bare leaf. Every stack the scan passes through has the
root at the bottom and no void element open, and keeps its closed elements to the end. A void or self-closing
tag attaches its element to the top without pushing it, and that element is in the tree, still bare.
-/
theorem parseHtml_void_leaves (html : String) :
    (∀ n ∈ nodesOf (parseHtml html), n.tag ∈ voidTags → n.children = [] ∧ n.text = "") ∧
    (∀ rest frames, Passes html.data rootFrames rest frames →
      frames.Leafy ∧ frames.closedNodes.Subperm (nodesOf (parseHtml html))) ∧
    ∀ tail k frames, Passes html.data rootFrames ('<' :: tail) frames → findChar '>' tail = some k →
      LeafTag (stripList (tail.take k)) →
      handleTag (stripList (tail.take k)) frames =
        ⟨frames.top.addChild (tagElement (stripList (tail.take k))), frames.below⟩ ∧
      tagElement (stripList (tail.take k)) ∈ nodesOf (parseHtml html) := by
  -- Every state the scan passes through is leafy, and keeps its closed elements to the end.
  have reached : ∀ rest frames, Passes html.data rootFrames rest frames →
      frames.Leafy ∧ frames.closedNodes.Subperm (nodesOf (parseHtml html)) := by
    intro rest frames passes
    refine ⟨passes.keeps leafy_scanInvariant rootFrames_leafy, ?_⟩
    rw [parseHtml, passes.parseFrom_eq]
    exact (parseFrom_keeps (closedNodes_scanInvariant frames) rest frames (fun _ _ => trivial)
      (List.Subperm.refl _)).trans (closedNodes_close _)
  refine ⟨?_, reached, fun tail k frames passes found leaf => ⟨handleTag_leafTag leaf frames, ?_⟩⟩
  · exact (parseFrom_keeps leafy_scanInvariant html.data rootFrames (fun _ _ => trivial) rootFrames_leafy).close
  · -- The element is closed right after its tag, and closed elements stay to the end.
    have after := (reached _ _ (passes.tag found)).2
    rw [handleTag_leafTag leaf frames] at after
    refine after.subset ?_
    refine (closedNodes_addChild frames.top _ frames.below).mem_iff.mpr (List.mem_append_left _ ?_)
    rw [tagElement, nodesOf_new]
    exact List.mem_singleton_self _

end Kivi
