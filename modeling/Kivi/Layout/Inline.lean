import Kivi.Layout.Engine

/-! Where `layout_inline` places its word blocks: left to right a space apart, wrapping only past the right edge. -/

namespace Kivi

section Inline

variable (font : Font) (contentW indent : Int) (size : Nat)

/--
Two word blocks placed one after the other: on the same line one measured space apart, or the second at the
start of the next line, after it would have crossed the right edge behind a line that held a word.
-/
def Follows (b c : TextBlock) : Prop :=
  c.y = b.y ∧ c.x = b.x + b.w + font.measureText " " size ∨
    c.y = b.y + font.lineHeight size ∧ c.x = margin + indent ∧
      margin + contentW < b.x + b.w + font.measureText " " size + c.w ∧
      margin + indent < b.x + b.w + font.measureText " " size

/-- What the pen of `layout_inline` has placed since `start`, with non-negative widths. -/
structure Placed (start : Flow) (pen : Flow × Int) (placed : List TextBlock) : Prop where
  /-- The blocks placed follow those there before. -/
  blocks : pen.1.blocks = start.blocks ++ placed
  /-- Before the first word the pen is at the start of the first line. -/
  fresh : placed = [] → pen.1.y = start.y ∧ pen.2 = margin + indent
  /-- After a word the pen is on its line, one space past it. -/
  after : ∀ last ∈ placed.getLast?, pen.1.y = last.y ∧ pen.2 = last.x + last.w + font.measureText " " size
  /-- The first word starts the first line. -/
  first : ∀ b ∈ placed.head?, b.x = margin + indent ∧ b.y = start.y
  /-- Each word follows the one before. -/
  follows : placed.Chain' (Follows font contentW indent size)
  /-- The pen never stands left of the line's start. -/
  left : margin + indent ≤ pen.2
  /-- Every word starts a line or ends by the right edge. -/
  edge : ∀ b ∈ placed, b.x = margin + indent ∨ b.x + b.w ≤ margin + contentW

/-- A word is one block at the pen, or at the start of the next line when it wraps; the pen moves one space past it. -/
theorem inlineWord_block (curStyle : Nat) (curHref : String) (curFg : Nat) (pen : Flow × Int) {word : String}
    (full : word ≠ "") :
    ∃ c : TextBlock,
      (inlineWord font contentW indent size curStyle curHref curFg pen word).1.blocks = pen.1.blocks ++ [c] ∧
      (inlineWord font contentW indent size curStyle curHref curFg pen word).1.y = c.y ∧
      (inlineWord font contentW indent size curStyle curHref curFg pen word).2 = c.x + c.w + font.measureText " " size ∧
      c.w = font.measureText word size ∧
      (c.x = pen.2 ∧ c.y = pen.1.y ∧ ¬(pen.2 + c.w > margin + contentW ∧ pen.2 > margin + indent) ∨
        c.x = margin + indent ∧ c.y = pen.1.y + font.lineHeight size ∧ pen.2 + c.w > margin + contentW ∧
          pen.2 > margin + indent) := by
  unfold inlineWord
  rw [if_neg full]
  refine ⟨_, rfl, rfl, rfl, rfl, ?_⟩
  -- The block wraps exactly when the width test says so.
  dsimp only
  split_ifs with wrap
  · exact .inr ⟨rfl, rfl, wrap⟩
  · exact .inl ⟨rfl, rfl, wrap⟩

variable {font contentW indent size}

/-- Nothing is placed before the first word. -/
theorem Placed.init (start : Flow) : Placed font contentW indent size start (start, margin + indent) [] :=
  ⟨by simp, fun _ => ⟨rfl, rfl⟩, nofun, nofun, List.chain'_nil, le_rfl, nofun⟩

/-- A placed word keeps the placement: it follows the last word, and starts a line or ends by the edge. -/
theorem Placed.word (nonneg : ∀ s, 0 ≤ font.measureText s size) {start : Flow} {pen : Flow × Int}
    {placed : List TextBlock} (ok : Placed font contentW indent size start pen placed) (curStyle : Nat)
    (curHref : String) (curFg : Nat) (word : String) :
    ∃ placed', Placed font contentW indent size start (inlineWord font contentW indent size curStyle curHref curFg pen word)
      placed' := by
  by_cases empty : word = ""
  · -- An empty word places nothing.
    refine ⟨placed, ?_⟩
    rw [empty, inlineWord, if_pos rfl]
    exact ok
  obtain ⟨c, blocks, y, x, w, moved⟩ := inlineWord_block font contentW indent size curStyle curHref curFg pen empty
  have space := nonneg " "
  have width := w ▸ nonneg word
  have left := ok.left
  refine ⟨placed ++ [c], ⟨?_, ?_, ?_, ?_, ?_, ?_, ?_⟩⟩
  · rw [blocks, ok.blocks, List.append_assoc]
  · exact fun nothing => absurd nothing (List.append_ne_nil_of_right_ne_nil _ (List.cons_ne_nil _ _))
  · simp only [List.getLast?_concat, Option.mem_def, Option.some.injEq]
    rintro _ rfl
    exact ⟨y, x⟩
  · -- The first word of all is placed at the start of the first line.
    rcases placed with _ | ⟨b, rest⟩
    · obtain ⟨top, home⟩ := ok.fresh rfl
      simp only [List.nil_append, List.head?_cons, Option.mem_def, Option.some.injEq]
      rintro _ rfl
      rcases moved with ⟨cx, cy, -⟩ | ⟨-, -, -, beyond⟩
      · exact ⟨cx.trans home, cy.trans top⟩
      · omega
    · simpa using ok.first
  · -- The new word follows the last one on its line, or starts the next line.
    refine List.chain'_append.mpr ⟨ok.follows, List.chain'_singleton _, fun last held c' first => ?_⟩
    obtain rfl : c' = c := by simpa using first.symm
    obtain ⟨py, px⟩ := ok.after last held
    rcases moved with ⟨cx, cy, -⟩ | ⟨cx, cy, beyond, holds⟩
    · exact .inl ⟨cy.trans py, cx.trans px⟩
    · exact .inr ⟨cy.trans (by rw [py]), cx, px ▸ beyond, px ▸ holds⟩
  · rcases moved with ⟨cx, -, -⟩ | ⟨cx, -, -, -⟩ <;> omega
  · -- A word that does not wrap either ends by the edge or stands at the start of the line.
    simp only [List.mem_append, List.mem_singleton]
    rintro b (old | rfl)
    · exact ok.edge b old
    · rcases moved with ⟨cx, -, stays⟩ | ⟨cx, -, -, -⟩ <;> omega

/-- Words placed one after the other keep the placement. -/
theorem foldl_inlineWord_placed (nonneg : ∀ s, 0 ≤ font.measureText s size) {start : Flow} (curStyle : Nat)
    (curHref : String) (curFg : Nat) (words : List String) (pen : Flow × Int)
    (ok : ∃ placed, Placed font contentW indent size start pen placed) :
    ∃ placed, Placed font contentW indent size start
      (words.foldl (inlineWord font contentW indent size curStyle curHref curFg) pen) placed :=
  List.foldlRecOn (motive := fun p => ∃ placed, Placed font contentW indent size start p placed) words _ pen ok
    fun _ ⟨_, held⟩ word _ => held.word nonneg curStyle curHref curFg word

mutual

/-- `process` keeps the placement: its own words, then its children's. -/
theorem inlineElement_placed (nonneg : ∀ s, 0 ≤ font.measureText s size) {start : Flow} :
    ∀ (elem : Element) (curStyle : Nat) (curHref : String) (pen : Flow × Int),
      (∃ placed, Placed font contentW indent size start pen placed) →
      ∃ placed, Placed font contentW indent size start (inlineElement font contentW indent size elem curStyle curHref pen)
        placed
  | ⟨tag, attrs, children, text⟩, curStyle, curHref, pen, ok => by
    rw [inlineElement]
    refine inlineChildren_placed nonneg children _ _ _ ?_
    split
    · exact ok
    · exact foldl_inlineWord_placed nonneg _ _ _ _ pen ok

/-- The children of an element keep the placement, left to right. -/
theorem inlineChildren_placed (nonneg : ∀ s, 0 ≤ font.measureText s size) {start : Flow} :
    ∀ (children : List Element) (curStyle : Nat) (curHref : String) (pen : Flow × Int),
      (∃ placed, Placed font contentW indent size start pen placed) →
      ∃ placed, Placed font contentW indent size start
        (inlineElement.inlineChildren font contentW indent size children curStyle curHref pen) placed
  | [], _, _, _, ok => ok
  | child :: rest, curStyle, curHref, pen, ok =>
    inlineChildren_placed nonneg rest curStyle curHref _ (inlineElement_placed nonneg child curStyle curHref pen ok)

end

end Inline

/--
When no text measures negative, every word block `layout_inline` emits starts at `MARGIN + indent` or ends by
`MARGIN + CONTENT_W`. The first starts the first line. Each next one is one measured space right of the one
before on its line, or starts the next line, exactly one line height lower, and only because it would have
crossed the right edge behind a line that held a word. The returned `y` is the last line's plus one line height.
-/
theorem layoutInline_placement (font : Font) (contentW : Int) (elem : Element) (flow : Flow) (indent : Int)
    (size style : Nat) (href : String) (nonneg : ∀ s, 0 ≤ font.measureText s size) :
    ∃ placed : List TextBlock,
      (layoutInline font contentW elem flow indent size style href).blocks = flow.blocks ++ placed ∧
      (∀ b ∈ placed, b.x = margin + indent ∨ b.x + b.w ≤ margin + contentW) ∧
      (∀ b ∈ placed.head?, b.x = margin + indent ∧ b.y = flow.y) ∧
      placed.Chain' (Follows font contentW indent size) ∧
      (layoutInline font contentW elem flow indent size style href).y =
        (placed.getLast?.map TextBlock.y).getD flow.y + font.lineHeight size := by
  obtain ⟨placed, ok⟩ := inlineElement_placed nonneg elem style href (flow, margin + indent) ⟨[], Placed.init flow⟩
  refine ⟨placed, ok.blocks, ok.edge, ok.first, ok.follows, ?_⟩
  -- The pen's line is the last word's, or the start's when there is none.
  show _ + _ = _
  cases last : placed.getLast? with
  | none => rw [(ok.fresh (List.getLast?_eq_none_iff.mp last)).1]; rfl
  | some b => rw [(ok.after b last).1]; rfl

/-- A font with no negative advance or kerning measures no text negative. -/
theorem measureText_nonneg {font : Font} {size : Nat} (advances : ∀ cp, 0 ≤ font.advance cp size)
    (kernings : ∀ prev cp, 0 ≤ font.kerning prev cp size) (text : String) : 0 ≤ font.measureText text size := by
  -- Each character adds its advance and, after the first, a kerning.
  have step : ∀ (cs : List Char) (acc : Int × Nat), 0 ≤ acc.1 →
      0 ≤ (cs.foldl (fun (acc : Int × Nat) ch =>
        (acc.1 + font.advance ch.toNat size + (if acc.2 ≠ 0 then font.kerning acc.2 ch.toNat size else 0),
          ch.toNat)) acc).1 := by
    intro cs
    induction cs with
    | nil => exact fun _ held => held
    | cons c cs ih =>
      intro acc held
      refine ih _ ?_
      have := advances c.toNat
      have := kernings acc.2 c.toNat
      dsimp only
      split <;> omega
  exact step text.data (0, 0) le_rfl

/-- A paragraph of two words in the fixed-pitch font at the browser's content width. -/
theorem layoutInline_placement_fixed :
    (∀ s, 0 ≤ Font.fixed.measureText s 16) ∧
      ∃ placed : List TextBlock,
        (layoutInline Font.fixed 608 ⟨"p", [], [], "a b"⟩ ⟨[], [], 0⟩ 0 16 0 "").blocks = [] ++ placed ∧
        (∀ b ∈ placed, b.x = margin + 0 ∨ b.x + b.w ≤ margin + 608) ∧
        (∀ b ∈ placed.head?, b.x = margin + 0 ∧ b.y = 0) ∧
        placed.Chain' (Follows Font.fixed 608 0 16) ∧
        (layoutInline Font.fixed 608 ⟨"p", [], [], "a b"⟩ ⟨[], [], 0⟩ 0 16 0 "").y =
          (placed.getLast?.map TextBlock.y).getD 0 + Font.fixed.lineHeight 16 :=
  have nonneg : ∀ s, 0 ≤ Font.fixed.measureText s 16 :=
    measureText_nonneg (fun _ => show (0 : Int) ≤ 8 by decide) (fun _ _ => le_rfl)
  ⟨nonneg, layoutInline_placement Font.fixed 608 _ _ 0 16 0 "" nonneg⟩

/-- The fixed-pitch font with every pair of characters kerned a hundred pixels closer. -/
def overKerned : Font :=
  ⟨fun _ => (12, -4, 0), fun _ _ => 8, fun _ _ _ => -100, 1, 2⟩

/--
Non-negative advances do not keep `measure_text` non-negative: with strong kerning `AV` measures `-84`, the pen
moves left of the line's start, and `a` is placed at `134`, neither at `MARGIN + indent = 210` nor ending by
`MARGIN + CONTENT_W = 110`.
-/
theorem layoutInline_word_past_edge :
    (∀ cp sz, 0 ≤ overKerned.advance cp sz) ∧
      (layoutInline overKerned 100 ⟨"p", [], [], "AV a"⟩ ⟨[], [], 0⟩ 200 16 0 "").blocks.map (fun b => (b.x, b.w)) =
        [(210, -84), (134, 8)] :=
  ⟨fun _ _ => show (0 : Int) ≤ 8 by decide, by decide⟩

end Kivi
