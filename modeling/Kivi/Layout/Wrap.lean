import Kivi.Layout.Engine

/-! What the word-wrap loop of `layout_text` does, for any width `measure_text` may give a text: it emits whole lines,
which together are the words, and wraps them greedily. -/

namespace Kivi

section Wrap

variable (measure : String → Int) (lineHeight : Int)

/-- Lines emitted from `y = base + n * lineHeight` on are blocks at `x`, each a line below the one before. -/
theorem foldl_textLineBy_blocks (x : Int) (size style fg : Nat) (href : String) (base : Int) :
    ∀ (lines : List (List String)) (flow : Flow) (n : Nat), flow.y = base + n * lineHeight →
      (lines.foldl (textLineBy measure lineHeight x size style fg href) flow).blocks =
          flow.blocks ++ (lines.enumFrom n).map (fun p => ⟨x, base + p.1 * lineHeight, pyJoin " " p.2, size, style, fg,
            href, measure (pyJoin " " p.2), lineHeight⟩) ∧
        (lines.foldl (textLineBy measure lineHeight x size style fg href) flow).y = flow.y + lines.length * lineHeight
  | [], flow, _, _ => by simp
  | line :: rest, flow, n, at_n => by
    -- The first line is emitted at `flow.y`; the rest start a line lower.
    obtain ⟨blocks, y⟩ := foldl_textLineBy_blocks x size style fg href base rest
      (textLineBy measure lineHeight x size style fg href flow line) (n + 1) (by simp [textLineBy, at_n]; ring)
    rw [List.foldl_cons, blocks, y]
    constructor
    · simp [textLineBy, List.enumFrom, at_n]
    · simp only [textLineBy, List.length_cons]
      push_cast
      ring

/-! ## Greedy lines -/

/-- A line overflows into the next: with the next line's first word added, it would end past `limit`. -/
def Overflows (limit x : Int) (line next : List String) : Prop :=
  ∃ word rest, next = word :: rest ∧ limit < x + measure (pyJoin " " (line ++ [word]))

/-- Lines as a greedy wrap from `x` leaves them, with `limit` the right edge. -/
structure Greedy (limit x : Int) (lines : List (List String)) : Prop where
  /-- No line is empty. -/
  nonempty : ∀ line ∈ lines, line ≠ []
  /-- A line of two words or more ends by the right edge. -/
  fits : ∀ line ∈ lines, 2 ≤ line.length → x + measure (pyJoin " " line) ≤ limit
  /-- Every line but the last would end past the edge with the next line's first word. -/
  overflows : lines.Chain' (Overflows measure limit x)

variable {measure} {limit x : Int}

/-- One word is a greedy wrap. -/
theorem Greedy.single (word : String) : Greedy measure limit x [[word]] :=
  ⟨by simp, by simp, List.chain'_singleton _⟩

/-- A word that would carry the last line past the edge starts a line of its own. -/
theorem Greedy.emit {lines : List (List String)} {line : List String} {word : String}
    (greedy : Greedy measure limit x (lines ++ [line])) (over : limit < x + measure (pyJoin " " (line ++ [word]))) :
    Greedy measure limit x (lines ++ [line] ++ [[word]]) := by
  have nonempty := greedy.nonempty
  have fits := greedy.fits
  simp only [List.mem_append, List.mem_singleton, or_imp, forall_and, forall_eq] at nonempty fits
  refine ⟨?_, ?_, List.chain'_append.mpr ⟨greedy.overflows, List.chain'_singleton _, ?_⟩⟩
  · simpa [or_imp, forall_and] using nonempty
  · simp only [List.mem_append, List.mem_singleton, or_imp, forall_and, forall_eq]
    exact ⟨fits, by simp⟩
  · -- The line before the new one is the old last line.
    simp only [List.getLast?_concat, List.head?_cons, Option.mem_def, Option.some.injEq]
    rintro _ rfl _ rfl
    exact ⟨word, [], rfl, over⟩

/-- A word that keeps the last line within the edge joins it. -/
theorem Greedy.extend {lines : List (List String)} {line : List String} {word : String}
    (greedy : Greedy measure limit x (lines ++ [line])) (within : x + measure (pyJoin " " (line ++ [word])) ≤ limit) :
    Greedy measure limit x (lines ++ [line ++ [word]]) := by
  obtain ⟨before, -, meet⟩ := List.chain'_append.mp greedy.overflows
  have nonempty := greedy.nonempty
  have fits := greedy.fits
  simp only [List.mem_append, List.mem_singleton, or_imp, forall_and, forall_eq] at nonempty fits
  refine ⟨?_, ?_, List.chain'_append.mpr ⟨before, List.chain'_singleton _, ?_⟩⟩
  · simpa [or_imp, forall_and] using nonempty.1
  · simp only [List.mem_append, List.mem_singleton, or_imp, forall_and, forall_eq]
    exact ⟨fits.1, fun _ => within⟩
  · -- The next line still starts with the same word.
    intro last held next first
    obtain ⟨w, rest, same, over⟩ := meet last held _ rfl
    simp only [List.head?_cons, Option.mem_def, Option.some.injEq] at first
    exact ⟨w, rest ++ [word], by rw [← first, same]; rfl, over⟩

/-! ## The loop -/

/-- Where the wrap loop stands: nothing read yet, or a pending line that closes a greedy wrap of what was read. -/
def Pending (measure : String → Int) (limit x : Int) (emitted : List (List String)) (pending : List String) : Prop :=
  pending = [] ∧ emitted = [] ∨ Greedy measure limit x (emitted ++ [pending])

variable (contentW : Int) (size style fg : Nat) (href : String)

/-- A word emits the pending line and starts a new one, or joins the pending line; the wrap stays greedy. -/
theorem textStepBy_pending {emitted : List (List String)} (acc : Flow × List String) (word : String)
    (ok : Pending measure (margin + contentW) x emitted acc.2) :
    textStepBy measure lineHeight contentW x size style fg href acc word =
        (textLineBy measure lineHeight x size style fg href acc.1 acc.2, [word]) ∧
      Pending measure (margin + contentW) x (emitted ++ [acc.2]) [word] ∨
    textStepBy measure lineHeight contentW x size style fg href acc word = (acc.1, acc.2 ++ [word]) ∧
      Pending measure (margin + contentW) x emitted (acc.2 ++ [word]) := by
  unfold textStepBy
  dsimp only
  split_ifs with empty wrap wrap
  · exact absurd empty wrap.2
  · -- The first word starts the first line.
    refine .inr ⟨rfl, .inr ?_⟩
    rcases ok with ⟨-, rfl⟩ | greedy
    · rw [empty]
      exact Greedy.single word
    · exact absurd empty (greedy.nonempty _ (List.mem_append_right _ (List.mem_singleton_self _)))
  · -- The pending line holds a word, and the new word would carry it past the edge.
    rcases ok with ⟨pending, -⟩ | greedy
    · exact absurd pending empty
    · exact .inl ⟨rfl, .inr (greedy.emit wrap.1)⟩
  · -- A word that keeps the pending line within the edge joins it.
    rcases ok with ⟨pending, -⟩ | greedy
    · exact absurd pending empty
    · exact .inr ⟨rfl, .inr (greedy.extend (not_lt.mp fun over => wrap ⟨over, empty⟩))⟩

/-- The loop emits lines and keeps a pending line; together they hold the words read, and wrap greedily. -/
theorem foldl_textStepBy_pending :
    ∀ (words : List String) (acc : Flow × List String) (emitted : List (List String)),
      Pending measure (margin + contentW) x emitted acc.2 → ∃ lines : List (List String),
        (words.foldl (textStepBy measure lineHeight contentW x size style fg href) acc).1 =
          lines.foldl (textLineBy measure lineHeight x size style fg href) acc.1 ∧
        lines.flatten ++ (words.foldl (textStepBy measure lineHeight contentW x size style fg href) acc).2 =
          acc.2 ++ words ∧
        Pending measure (margin + contentW) x (emitted ++ lines)
          (words.foldl (textStepBy measure lineHeight contentW x size style fg href) acc).2
  | [], acc, emitted, ok => ⟨[], rfl, by simp, by simpa using ok⟩
  | word :: rest, acc, emitted, ok => by
    rcases textStepBy_pending lineHeight contentW size style fg href acc word ok with ⟨emit, next⟩ | ⟨join, next⟩
    · -- The pending line is emitted: it is the first of the lines.
      obtain ⟨lines, laid, words, pending⟩ :=
        foldl_textStepBy_pending rest (textLineBy measure lineHeight x size style fg href acc.1 acc.2, [word]) _ next
      refine ⟨acc.2 :: lines, ?_, ?_, ?_⟩
      · rw [List.foldl_cons, emit, laid]
        rfl
      · rw [List.foldl_cons, emit, List.flatten_cons, List.append_assoc, words]
        rfl
      · rw [List.foldl_cons, emit]
        simpa using pending
    · -- The word joins the pending line: the same lines follow.
      obtain ⟨lines, laid, words, pending⟩ := foldl_textStepBy_pending rest (acc.1, acc.2 ++ [word]) _ next
      refine ⟨lines, ?_, ?_, ?_⟩
      · rw [List.foldl_cons, join, laid]
      · rw [List.foldl_cons, join, words, List.append_assoc]
        rfl
      · rw [List.foldl_cons, join]
        exact pending

/--
`layout_text` cuts the words of `text.split()` into a greedy wrap of lines, none empty and together the words in
order, and emits them one after the other from `MARGIN + indent`.
-/
theorem layoutTextBy_wrap (text : String) (flow : Flow) (indent : Int) :
    ∃ lines : List (List String), lines.flatten = pySplit text ∧
      Greedy measure (margin + contentW) (margin + indent) lines ∧
      layoutTextBy measure lineHeight contentW text flow indent size style fg href =
        lines.foldl (textLineBy measure lineHeight (margin + indent) size style fg href) flow := by
  unfold layoutTextBy
  split
  · -- An empty text has no words and emits nothing.
    rename_i empty
    exact ⟨[], by rw [empty]; rfl, ⟨nofun, nofun, List.chain'_nil⟩, rfl⟩
  · obtain ⟨lines, laid, words, pending⟩ := foldl_textStepBy_pending lineHeight contentW size style fg href
      (pySplit text) (flow, []) [] (.inl ⟨rfl, rfl⟩)
    dsimp only at laid words pending ⊢
    generalize (pySplit text).foldl (textStepBy measure lineHeight contentW (margin + indent) size style fg href)
      (flow, []) = done at laid words pending ⊢
    split
    · -- Nothing is pending, so nothing was emitted.
      rename_i nothing
      rw [nothing] at words pending
      obtain ⟨-, none⟩ | greedy := pending
      · obtain rfl : lines = [] := by simpa using none
        exact ⟨[], by simpa using words.symm, ⟨nofun, nofun, List.chain'_nil⟩, laid⟩
      · exact absurd rfl (greedy.nonempty [] (List.mem_append_right _ (List.mem_singleton_self _)))
    · -- The pending line is the last line.
      rename_i held
      obtain ⟨nothing, -⟩ | greedy := pending
      · exact absurd nothing held
      · refine ⟨lines ++ [done.2], by simpa using words, by simpa using greedy, ?_⟩
        rw [List.foldl_append, ← laid]
        rfl

/--
For every width function, `layout_text` cuts the words of `text.split()` into lines, none empty and together
the words in order, and wraps them greedily: a line of two words or more ends by the right edge, and every line
would cross it with the next line's first word. It emits one block per line at `MARGIN + indent`, a line height
below the one before, as wide as its text measures, and returns the start plus a line height per line.
-/
theorem layoutTextBy_greedy (measure : String → Int) (lineHeight contentW : Int) (text : String) (flow : Flow)
    (indent : Int) (size style fg : Nat) (href : String) :
    ∃ lines : List (List String), lines.flatten = pySplit text ∧
      Greedy measure (margin + contentW) (margin + indent) lines ∧
      (layoutTextBy measure lineHeight contentW text flow indent size style fg href).blocks =
        flow.blocks ++ lines.enum.map (fun p => ⟨margin + indent, flow.y + p.1 * lineHeight, pyJoin " " p.2, size,
          style, fg, href, measure (pyJoin " " p.2), lineHeight⟩) ∧
      (layoutTextBy measure lineHeight contentW text flow indent size style fg href).y =
        flow.y + lines.length * lineHeight := by
  obtain ⟨lines, words, greedy, laid⟩ := layoutTextBy_wrap lineHeight contentW size style fg href text flow indent
  obtain ⟨blocks, y⟩ :=
    foldl_textLineBy_blocks measure lineHeight (margin + indent) size style fg href flow.y lines flow 0 (by simp)
  refine ⟨lines, words, greedy, ?_, ?_⟩
  · rw [laid, blocks]
    rfl
  · rw [laid, y]

/-- `layout_text` in a font lays out its words as a sequence of whole lines, in order. -/
theorem layoutText_lines (font : Font) (contentW : Int) (size style fg : Nat) (href text : String) (flow : Flow)
    (indent : Int) :
    ∃ lines : List (List String), lines.flatten = pySplit text ∧
      layoutText font contentW text flow indent size style fg href =
        lines.foldl (textLine font (margin + indent) size style fg href) flow :=
  have ⟨lines, words, _, laid⟩ := @layoutTextBy_wrap (font.measureText · size) (font.lineHeight size) contentW size style
    fg href text flow indent
  ⟨lines, words, laid⟩

end Wrap

end Kivi
