import Kivi.Html.Attrs
import Kivi.Html.Entities

/-! The tag-soup parser `parse_html`: one forward scan with an explicit stack of open elements. -/

namespace Kivi

/-- `Element`: a node of the document tree, with the text owned directly by it. -/
structure Element where
  /-- Lower-cased tag name; `root` for the synthetic root. -/
  tag : String
  attrs : Attrs
  children : List Element
  /-- The text runs that landed in this element, joined with one blank. -/
  text : String
  deriving Inhabited

namespace Element

/-- `Element(tag, attrs)`: a fresh element, with its tag lower-cased. -/
def new (tag : String) (attrs : Attrs) : Element :=
  { tag := pyLower tag, attrs := attrs, children := [], text := "" }

/-- `parent.children.append(child)`. -/
def addChild (parent child : Element) : Element :=
  { parent with children := parent.children ++ [child] }

end Element

/--
The open-element stack of `parse_html`, innermost first: `top` is `stack[-1]` and the root is last.

Each open element is the last child of the one below it in the code; here it is attached to
that element when it is popped, so a frame holds only the children already closed.
-/
structure Frames where
  top : Element
  below : List Element

namespace Frames

/-- `if len(stack) > 1: stack.pop()`, attaching the popped element to the one below it. -/
def pop : Frames → Frames
  | ⟨top, []⟩ => ⟨top, []⟩
  | ⟨top, parent :: rest⟩ => ⟨parent.addChild top, rest⟩

/-- `while len(stack) > 1 and stack[-1].tag != name: stack.pop()`, from a given top. -/
def popUntilFrom (name : String) (top : Element) : List Element → Frames
  | [] => ⟨top, []⟩
  | parent :: rest => if top.tag = name then ⟨top, parent :: rest⟩
    else popUntilFrom name (parent.addChild top) rest

/-- The pop loop of a closing tag. -/
def popUntil (name : String) (frames : Frames) : Frames :=
  popUntilFrom name frames.top frames.below

/-- The tree the stack stands for: every open element attached to the one below it. -/
def closeFrom (top : Element) : List Element → Element
  | [] => top
  | parent :: rest => closeFrom (parent.addChild top) rest

/-- The root with every open element attached, which is what `parse_html` returns. -/
def close (frames : Frames) : Element :=
  closeFrom frames.top frames.below

/-- The tags of the open elements other than the synthetic root, innermost first. -/
def openTags (frames : Frames) : List String :=
  (frames.top :: frames.below).dropLast.map Element.tag

end Frames

/-- The stack `parse_html` starts from: the synthetic root alone. -/
def rootFrames : Frames :=
  ⟨Element.new "root" [], []⟩

/-- `void_tags`: elements that never own children. -/
def voidTags : List String :=
  ["br", "hr", "img", "input", "meta", "link"]

/-- A closing tag: pop to the innermost element of that name, or to the root if there is none. -/
def closeTag (name : String) (frames : Frames) : Frames :=
  (frames.popUntil name).pop

/-- An opening tag: the element is attached, and pushed unless it is void or self-closing. -/
def openTag (content : List Char) (frames : Frames) : Frames :=
  let named : String × Attrs :=
    match findChar ' ' content with
    | none => (pyLower ⟨(content.reverse.dropWhile (· = '/')).reverse⟩, [])
    | some space => (pyLower ⟨content.take space⟩, parseAttrs ⟨content.drop space⟩)
  let elem := Element.new named.1 named.2
  if named.1 ∉ voidTags ∧ endsWith ⟨content⟩ "/" = false then ⟨elem, frames.top :: frames.below⟩
  else ⟨frames.top.addChild elem, frames.below⟩

/-- The body of a tag `<...>`, already stripped: a declaration, a closing tag or an opening tag. -/
def handleTag (content : List Char) (frames : Frames) : Frames :=
  if startsWith ⟨content⟩ "!" then frames
  else if startsWith ⟨content⟩ "/" then closeTag (pyLower (pyStrip ⟨content.drop 1⟩)) frames
  else openTag content frames

/-- A text run between tags: decoded, blanks collapsed, and joined to the top element's text. -/
def handleText (run : List Char) (frames : Frames) : Frames :=
  if stripList run = [] then frames
  else
    let text := pyJoin " " (pySplit (decodeEntities ⟨run⟩))
    let owner := frames.top
    let spaced := if owner.text = "" then owner.text else owner.text ++ " "
    ⟨{ owner with text := spaced ++ text }, frames.below⟩

/-- The loop of `parse_html` over the input still to read. -/
def parseFrom : List Char → Frames → Frames
  | [], frames => frames
  | c :: rest, frames =>
    if c = '<' then
      -- A `<` with no `>` after it ends the scan.
      match findChar '>' rest with
      | none => frames
      | some k => parseFrom (rest.drop (k + 1)) (handleTag (stripList (rest.take k)) frames)
    else parseFrom (rest.dropWhile (· ≠ '<')) (handleText (c :: rest.takeWhile (· ≠ '<')) frames)
termination_by cs => cs.length
decreasing_by
  all_goals simp_wf
  · omega
  · exact Nat.lt_succ_of_le (List.dropWhile_suffix _).length_le

/-- `parse_html`. -/
def parseHtml (html : String) : Element :=
  (parseFrom html.data rootFrames).close

end Kivi
