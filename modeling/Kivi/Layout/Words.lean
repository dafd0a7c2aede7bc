import Kivi.Layout.Wrap
import Kivi.Python.StrLaws

/-! The words a layout shows, its blocks read in order and split on blanks, for headings, paragraphs and flow. -/

namespace Kivi

/-- The words of a list of blocks, read in order and split on blanks. -/
def blockWords (blocks : List TextBlock) : List String :=
  blocks.flatMap fun b => pySplit b.text

@[simp] theorem blockWords_append (a b : List TextBlock) : blockWords (a ++ b) = blockWords a ++ blockWords b :=
  List.flatMap_append _ _ _

mutual

/-- The words `layout_inline` places for an element: its own, then its children's, depth first. -/
def inlineWords : Element → List String
  | ⟨_, _, children, text⟩ => pySplit text ++ inlineWordsAll children

/-- The words `layout_inline` places for a list of siblings, left to right. -/
def inlineWordsAll : List Element → List String
  | [] => []
  | e :: es => inlineWords e ++ inlineWordsAll es

end

/-- The layouts whose blocks are an element's words: headings, paragraphs and the default flow. -/
def wordKind : BlockKind → Bool
  | .heading | .paragraph | .flow => true
  | _ => false

mutual

/-- The words `layout_element` places for a heading (all its text at once), a paragraph (inline) or the flow. -/
def flowWords : Element → List String
  | ⟨tag, attrs, children, text⟩ =>
    match blockKind tag with
    | .heading => pySplit (getAllText ⟨tag, attrs, children, text⟩)
    | .paragraph => inlineWords ⟨tag, attrs, children, text⟩
    | _ => pySplit text ++ flowWordsAll children

/-- The words `layout_element` places for a list of siblings, top to bottom. -/
def flowWordsAll : List Element → List String
  | [] => []
  | e :: es => flowWords e ++ flowWordsAll es

end

mutual

/-- Whether every element of a tree is laid out as a heading, a paragraph or the default flow. -/
def wordsOnly : Element → Bool
  | ⟨tag, _, children, _⟩ => wordKind (blockKind tag) && wordsOnlyAll children

/-- Whether every element of a list of trees is laid out as a heading, a paragraph or the default flow. -/
def wordsOnlyAll : List Element → Bool
  | [] => true
  | e :: es => wordsOnly e && wordsOnlyAll es

end

/-- An element's inline words are its own, then its children's. -/
theorem inlineWords_eq (e : Element) : inlineWords e = pySplit e.text ++ inlineWordsAll e.children := by
  cases e
  rfl

/-- The inline words of siblings put side by side. -/
@[simp] theorem inlineWordsAll_append (es fs : List Element) :
    inlineWordsAll (es ++ fs) = inlineWordsAll es ++ inlineWordsAll fs := by
  induction es with
  | nil => rfl
  | cons e es ih => simp [inlineWordsAll, ih]

/-- The flow words of siblings put side by side. -/
@[simp] theorem flowWordsAll_append (es fs : List Element) :
    flowWordsAll (es ++ fs) = flowWordsAll es ++ flowWordsAll fs := by
  induction es with
  | nil => rfl
  | cons e es ih => simp [flowWordsAll, ih]

/-- Siblings put side by side are laid out as words when both lists are. -/
@[simp] theorem wordsOnlyAll_append (es fs : List Element) :
    wordsOnlyAll (es ++ fs) = (wordsOnlyAll es && wordsOnlyAll fs) := by
  induction es with
  | nil => rfl
  | cons e es ih => simp [wordsOnlyAll, ih, Bool.and_assoc]

section Reading

variable (font : Font) (contentW : Int)

/-! ## Text -/

/-- One line of `layout_text` shows its words. -/
theorem textLine_words (x : Int) (size style fg : Nat) (href : String) (flow : Flow) {lineWords : List String}
    (words : ∀ w ∈ lineWords, IsWord w.data) :
    blockWords (textLine font x size style fg href flow lineWords).blocks = blockWords flow.blocks ++ lineWords := by
  simp [textLine, textLineBy, blockWords, pySplit_pyJoin words]

/-- Lines of words laid out one after the other show the words, in order. -/
theorem foldl_textLine_words (x : Int) (size style fg : Nat) (href : String) :
    ∀ (lines : List (List String)) (flow : Flow), (∀ l ∈ lines, ∀ w ∈ l, IsWord w.data) →
      blockWords (lines.foldl (textLine font x size style fg href) flow).blocks = blockWords flow.blocks ++ lines.flatten
  | [], _, _ => by simp
  | l :: ls, flow, words => by
    rw [List.foldl_cons, foldl_textLine_words x size style fg href ls _ fun l' mem => words l' (by simp [mem]),
      textLine_words font x size style fg href flow (words l (by simp))]
    simp

/-- `layout_text` shows the text's words, in order, however it wraps them. -/
theorem layoutText_words (text : String) (flow : Flow) (indent : Int) (size style fg : Nat) (href : String) :
    blockWords (layoutText font contentW text flow indent size style fg href).blocks =
      blockWords flow.blocks ++ pySplit text := by
  obtain ⟨lines, split, laid⟩ := layoutText_lines font contentW size style fg href text flow indent
  rw [laid, foldl_textLine_words font _ size style fg href lines flow fun l mem w member =>
    isWord_of_mem_pySplit (split ▸ List.mem_flatten.mpr ⟨l, mem, member⟩), split]

/-! ## Inline flow -/

/-- A placed word shows as itself. -/
theorem inlineWord_words (indent : Int) (size curStyle : Nat) (curHref : String) (curFg : Nat) (pen : Flow × Int)
    {word : String} (isWord : IsWord word.data) :
    blockWords (inlineWord font contentW indent size curStyle curHref curFg pen word).1.blocks =
      blockWords pen.1.blocks ++ [word] := by
  have full : word ≠ "" := fun empty => isWord.1 (by simp [empty])
  simp [inlineWord, full, blockWords, pySplit_word isWord]

/-- Words placed one after the other show in order. -/
theorem foldl_inlineWord_words (indent : Int) (size curStyle : Nat) (curHref : String) (curFg : Nat) :
    ∀ (ws : List String) (pen : Flow × Int), (∀ w ∈ ws, IsWord w.data) →
      blockWords (ws.foldl (inlineWord font contentW indent size curStyle curHref curFg) pen).1.blocks =
        blockWords pen.1.blocks ++ ws
  | [], _, _ => by simp
  | w :: ws, pen, words => by
    rw [List.foldl_cons, foldl_inlineWord_words indent size curStyle curHref curFg ws _
      fun w' mem => words w' (by simp [mem]), inlineWord_words font contentW indent size curStyle curHref curFg pen
      (words w (by simp))]
    simp

mutual

/-- `process` shows an element's words, then its children's, depth first. -/
theorem inlineElement_words (indent : Int) (size : Nat) :
    ∀ (elem : Element) (curStyle : Nat) (curHref : String) (pen : Flow × Int),
      blockWords (inlineElement font contentW indent size elem curStyle curHref pen).1.blocks =
        blockWords pen.1.blocks ++ inlineWords elem
  | ⟨tag, attrs, children, text⟩, curStyle, curHref, pen => by
    rw [inlineElement, inlineChildren_words indent size children, inlineWords, ← List.append_assoc]
    congr 1
    -- The element's own words, unless it has no text.
    split
    · rename_i empty
      simp [empty]
    · exact foldl_inlineWord_words font contentW indent size _ _ _ _ _ fun _ member => isWord_of_mem_pySplit member

/-- The children of an element show their words left to right. -/
theorem inlineChildren_words (indent : Int) (size : Nat) :
    ∀ (children : List Element) (curStyle : Nat) (curHref : String) (pen : Flow × Int),
      blockWords (inlineElement.inlineChildren font contentW indent size children curStyle curHref pen).1.blocks =
        blockWords pen.1.blocks ++ inlineWordsAll children
  | [], _, _, _ => by simp [inlineElement.inlineChildren, inlineWordsAll]
  | child :: rest, curStyle, curHref, pen => by
    rw [inlineElement.inlineChildren, inlineChildren_words indent size rest, inlineElement_words indent size child,
      inlineWordsAll, List.append_assoc]

end

/-! ## Block elements -/

/-- A heading shows all of its text at once. -/
theorem layoutHeading_words (elem : Element) (flow : Flow) (indent : Int) (size style : Nat) (href : String) :
    blockWords (layoutHeading font contentW elem flow indent size style href).blocks =
      blockWords flow.blocks ++ pySplit (getAllText elem) :=
  layoutText_words font contentW _ _ indent size _ _ href

/-- A paragraph shows its inline words. -/
theorem layoutParagraph_words (elem : Element) (flow : Flow) (indent : Int) (size style : Nat) (href : String) :
    blockWords (layoutParagraph font contentW elem flow indent size style href).blocks =
      blockWords flow.blocks ++ inlineWords elem :=
  inlineElement_words font contentW indent size elem style href _

mutual

/-- `layout_element` shows the words of a tree of headings, paragraphs and flow elements, in reading order. -/
theorem layoutElement_words :
    ∀ (elem : Element) (flow : Flow) (indent : Int) (size style : Nat) (href : String), wordsOnly elem →
      blockWords (layoutElement font contentW elem flow indent size style href).blocks =
        blockWords flow.blocks ++ flowWords elem
  | ⟨tag, attrs, children, text⟩, flow, indent, size, style, href, only => by
    simp only [wordsOnly, Bool.and_eq_true] at only
    rw [layoutElement, flowWords]
    cases kind : blockKind tag <;> simp only [kind, wordKind, Bool.false_eq_true, false_and] at only ⊢
    · exact layoutHeading_words font contentW _ flow indent _ _ _
    · exact layoutParagraph_words font contentW _ flow indent _ _ _
    · -- The default flow: the element's own text, then its children.
      rw [layoutChildren_words _ _ indent _ _ _ only.2, ← List.append_assoc]
      congr 1
      split
      · rename_i empty
        simp [empty]
      · exact layoutText_words font contentW text flow indent _ _ _ _

/-- The children of the default flow show their words top to bottom. -/
theorem layoutChildren_words :
    ∀ (children : List Element) (flow : Flow) (indent : Int) (size style : Nat) (href : String),
      wordsOnlyAll children →
      blockWords (layoutElement.layoutChildren font contentW children flow indent size style href).blocks =
        blockWords flow.blocks ++ flowWordsAll children
  | [], _, _, _, _, _, _ => by simp [layoutElement.layoutChildren, flowWordsAll]
  | child :: rest, flow, indent, size, style, href, only => by
    simp only [wordsOnlyAll, Bool.and_eq_true] at only
    rw [layoutElement.layoutChildren, layoutChildren_words rest _ indent size style href only.2,
      layoutElement_words child flow indent size style href only.1, flowWordsAll, List.append_assoc]

end

/-- `layout_document` shows the words of the body it lays out, when that is made of headings, paragraphs and
flow elements. -/
theorem layoutDocument_words (root : Element) (only : wordsOnly ((findElement "body" root).getD root)) :
    blockWords (layoutDocument font contentW root).1 = flowWords ((findElement "body" root).getD root) := by
  simpa [blockWords] using layoutElement_words font contentW _ ⟨[], [], margin⟩ 0 16 0 "" only

end Reading

end Kivi
