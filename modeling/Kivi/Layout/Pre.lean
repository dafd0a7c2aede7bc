import Kivi.Layout.Engine
import Kivi.Html.Text

/-! Preformatted text: `parse_html` leaves no line break in any text, so `<pre>` lays out one wrapped line. -/

namespace Kivi

mutual

/-- Whether no text of a tree holds a line break. -/
def unbroken : Element → Bool
  | ⟨_, _, children, text⟩ => '\n' ∉ text.data && unbrokenAll children

/-- Whether no text of a list of trees holds a line break. -/
def unbrokenAll : List Element → Bool
  | [] => true
  | e :: es => unbroken e && unbrokenAll es

end

/-- A tree is unbroken when its own text and its children are. -/
theorem unbroken_iff (e : Element) : unbroken e = true ↔ '\n' ∉ e.text.data ∧ unbrokenAll e.children = true := by
  cases e
  simp [unbroken]

mutual

/-- A tree is unbroken when every text in it passes the test of having no line break. -/
theorem unbroken_eq_textsAll : ∀ e : Element, unbroken e = textsAll (fun t => decide ('\n' ∉ t.data)) e
  | ⟨_, _, children, _⟩ => by rw [unbroken, textsAll, unbrokenAll_eq_textsAllOf children]

/-- A list of trees is unbroken when every text in it passes the test of having no line break. -/
theorem unbrokenAll_eq_textsAllOf :
    ∀ es : List Element, unbrokenAll es = textsAllOf (fun t => decide ('\n' ∉ t.data)) es
  | [] => rfl
  | e :: es => by rw [unbrokenAll, textsAllOf, unbroken_eq_textsAll e, unbrokenAll_eq_textsAllOf es]

end

/-! ## The parser's stack -/

/-- Joining the words of a text with one blank leaves no line break, which is a blank. -/
theorem newline_not_mem_pyJoin (s : String) : '\n' ∉ (pyJoin " " (pySplit s)).data := by
  have words : ∀ w ∈ (pySplit s).map String.data, '\n' ∉ w := fun w member inside => by
    obtain ⟨word, split, rfl⟩ := List.mem_map.mp member
    exact absurd ((isWord_of_mem_pySplit split).2 _ inside) (by decide)
  -- Every character of the join is a blank separator or a character of a word.
  show '\n' ∉ joinWith [' '] ((pySplit s).map String.data)
  generalize (pySplit s).map String.data = ws at words
  induction ws with
  | nil => simp [joinWith]
  | cons w ws ih =>
    cases ws with
    | nil => simpa [joinWith] using words w (by simp)
    | cons v vs =>
      simp only [joinWith, List.mem_append, List.mem_singleton, not_or]
      exact ⟨⟨words w (by simp), by decide⟩, ih fun x member => words x (by simp_all)⟩

/-- A text run keeps every text on the stack free of line breaks: its words are joined with blanks. -/
theorem handleText_unbroken (run : List Char) {frames : Frames}
    (kept : frames.TextsAll fun t => decide ('\n' ∉ t.data)) :
    (handleText run frames).TextsAll fun t => decide ('\n' ∉ t.data) := by
  unfold handleText
  split
  · exact kept
  · refine ⟨?_, kept.2⟩
    have top := (textsAll_iff _).mp kept.1
    rw [textsAll_iff]
    refine ⟨?_, top.2⟩
    -- The old text, a blank, and the joined words.
    dsimp only
    split <;> simp [top.1, newline_not_mem_pyJoin]

/-- No text of any page `parse_html` builds holds a line break: every run's blanks are collapsed to one. -/
theorem parseHtml_unbroken (html : String) : unbroken (parseHtml html) = true := by
  rw [unbroken_eq_textsAll]
  exact parseHtml_texts (fun _ => True) (by decide) (fun run _ _ kept => handleText_unbroken run kept) html
    fun _ _ => trivial

/-! ## Preformatted text -/

mutual

/-- All of an unbroken tree's text is free of line breaks. -/
theorem getAllText_unbroken : ∀ e : Element, unbroken e = true → '\n' ∉ (getAllText e).data
  | ⟨_, _, children, text⟩, kept => by
    rw [unbroken_iff] at kept
    simp only [getAllText, String.data_append, List.mem_append, not_or]
    exact ⟨kept.1, allTextOf_unbroken children kept.2⟩

/-- The texts of unbroken siblings are free of line breaks. -/
theorem allTextOf_unbroken : ∀ es : List Element, unbrokenAll es = true → '\n' ∉ (getAllText.allTextOf es).data
  | [], _ => by simp [getAllText.allTextOf]
  | e :: es, kept => by
    simp only [unbrokenAll, Bool.and_eq_true] at kept
    simp only [getAllText.allTextOf, String.data_append, List.mem_append, not_or]
    exact ⟨getAllText_unbroken e kept.1, allTextOf_unbroken es kept.2⟩

end

/--
A `<pre>` whose text has no line break is laid out as one text: its whole text word-wrapped at size 14,
four pixels below and above, exactly as `layout_text` wraps a paragraph.
-/
theorem layoutPre_unbroken (font : Font) (contentW : Int) {elem : Element} (kept : unbroken elem = true)
    (flow : Flow) (indent : Int) :
    layoutPre font contentW elem flow indent =
      let start := { flow with y := flow.y + 4 }
      let body := if getAllText elem = "" then start
        else layoutText font contentW (getAllText elem) start indent 14 0 black ""
      { body with y := body.y + 4 } := by
  have single : (getAllText elem).data.splitOn '\n' = [(getAllText elem).data] :=
    List.splitOnP_eq_single _ _ fun c member same => getAllText_unbroken elem kept (beq_iff_eq.mp same ▸ member)
  -- The one line is empty exactly when the text is.
  have empty : ((getAllText elem).data = []) = (getAllText elem = "") :=
    propext ⟨fun none => String.ext none, fun none => congrArg String.data none⟩
  simp only [layoutPre, single, List.foldl_cons, List.foldl_nil, empty]

unseal parseFrom decodeFrom in
/--
Two lines in a `<pre>`: at a width that holds both, they are laid out as the one block `line one line two`;
at a width of sixty pixels, word wrap cuts them into four blocks of one word each.
-/
theorem pre_lines_joined_then_wrapped :
    (layoutDocument Font.fixed 608 (parseHtml "<pre>line one\nline two</pre>")).1.map TextBlock.text =
        ["line one line two"] ∧
      (layoutDocument Font.fixed 60 (parseHtml "<pre>line one\nline two</pre>")).1.map TextBlock.text =
        ["line", "one", "line", "two"] := by
  decide

end Kivi
