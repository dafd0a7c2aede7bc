import Kivi.Layout.Engine

/-! What `layout_table` shows: a bordered block and a prefix of the text for every cell, in row order. -/

namespace Kivi

/-- What a cell shows in a column of width `colWidth`: its border across the column, and a prefix of its text. -/
def CellShown (colWidth : Int) (cell : String × String) (shown : TextBlock × TextBlock) : Prop :=
  shown.1.text = "__CELL__" ∧ shown.1.w = colWidth ∧ shown.2.text.data <+: cell.2.data ∧
    (0 ≤ colWidth → (shown.2.text.length : Int) ≤ colWidth.fdiv 8)

/-- `text[:k]` is a prefix of the text, whatever the bound. -/
theorem sliceTo_prefix (cs : List Char) (k : Int) : sliceTo cs k <+: cs :=
  List.take_prefix _ _

/-- A slice up to a non-negative bound holds at most that many characters. -/
theorem sliceTo_length_le (cs : List Char) {k : Int} (nonneg : 0 ≤ k) : ((sliceTo cs k).length : Int) ≤ k := by
  simp only [sliceTo, sliceBound, if_neg (not_lt.mpr nonneg), List.length_take]
  omega

/-- One cell appends its border and its text, which shows a prefix of the cell's text within the budget. -/
theorem tableCell_shown (font : Font) (size style : Nat) (colWidth rowHeight y : Int) (acc : List TextBlock × Int)
    (cell : String × String) :
    ∃ border text : TextBlock, (tableCell font size style colWidth rowHeight y acc cell).1 =
      acc.1 ++ [border, text] ∧ CellShown colWidth cell (border, text) := by
  refine ⟨_, _, rfl, rfl, rfl, ?_, fun nonneg => ?_⟩ <;> dsimp only
  · -- Cut to the budget, or shown whole.
    split
    · exact sliceTo_prefix _ _
    · exact List.prefix_refl _
  · split
    · exact sliceTo_length_le _ (Int.fdiv_nonneg nonneg (by decide))
    · rename_i fits
      exact not_lt.mp fits

/-- The cells of a row, left to right, each append what it shows. -/
theorem foldl_tableCell_shown (font : Font) (size style : Nat) (colWidth rowHeight y : Int) :
    ∀ (cells : List (String × String)) (acc : List TextBlock × Int), ∃ pairs : List (TextBlock × TextBlock),
      (cells.foldl (tableCell font size style colWidth rowHeight y) acc).1 = acc.1 ++ pairs.flatMap (fun p => [p.1, p.2]) ∧
        List.Forall₂ (CellShown colWidth) cells pairs
  | [], acc => ⟨[], by simp, .nil⟩
  | cell :: rest, acc => by
    obtain ⟨border, text, placed, fits⟩ := tableCell_shown font size style colWidth rowHeight y acc cell
    obtain ⟨pairs, laid, all⟩ := foldl_tableCell_shown font size style colWidth rowHeight y rest _
    refine ⟨(border, text) :: pairs, ?_, .cons fits all⟩
    rw [List.foldl_cons, laid, placed]
    simp

/-- The rows of a table, top to bottom, each append what their cells show. -/
theorem foldl_tableRowStep_shown (font : Font) (size style : Nat) (colWidth rowHeight left : Int) :
    ∀ (rows : List (List (String × String))) (acc : List TextBlock × Int), ∃ pairs : List (TextBlock × TextBlock),
      (rows.foldl (tableRowStep font size style colWidth rowHeight left) acc).1 =
        acc.1 ++ pairs.flatMap (fun p => [p.1, p.2]) ∧ List.Forall₂ (CellShown colWidth) rows.flatten pairs
  | [], acc => ⟨[], by simp, .nil⟩
  | row :: rest, acc => by
    obtain ⟨first, placed, shown⟩ := foldl_tableCell_shown font size style colWidth rowHeight acc.2 row (acc.1, left)
    obtain ⟨later, laid, all⟩ := foldl_tableRowStep_shown font size style colWidth rowHeight left rest _
    refine ⟨first ++ later, ?_, List.rel_append shown all⟩
    rw [List.foldl_cons, laid]
    simp [tableRowStep, placed]

/-- Every row `layout_table` reads holds a cell. -/
theorem ne_nil_of_mem_tableRows {table : Element} {row : List (String × String)} (member : row ∈ tableRows table) :
    row ≠ [] := by
  -- Each row comes from a `tr` whose cell list is not empty.
  have ofRow : ∀ tr, row ∈ tableRow tr → row ≠ [] := fun tr held => by
    unfold tableRow at held
    split at held
    · rename_i cells
      exact (List.mem_singleton.mp held) ▸ cells.2
    · cases held
  simp only [tableRows, List.mem_flatMap] at member
  obtain ⟨child, -, held⟩ := member
  split at held
  · obtain ⟨tr, -, inner⟩ := List.mem_flatMap.mp held
    exact ofRow tr inner
  · split at held
    · exact ofRow child held
    · cases held

/-- The largest of a list's entries and a start is at least the start and at least every entry. -/
theorem le_foldl_max : ∀ (ns : List Nat) (start : Nat), start ≤ ns.foldl max start ∧ ∀ n ∈ ns, n ≤ ns.foldl max start
  | [], _ => ⟨le_rfl, nofun⟩
  | n :: ns, start => by
    obtain ⟨atLeast, each⟩ := le_foldl_max ns (max start n)
    exact ⟨(le_max_left _ _).trans atLeast,
      List.forall_mem_cons.mpr ⟨(le_max_right _ _).trans atLeast, each⟩⟩

/--
For every table with a row that holds a cell, at every width, `layout_table` divides by a column count of at least
one. It appends, cell by cell in row order, a `__CELL__` border as wide as the column and a block showing a prefix of
the cell's text. When `indent + MARGIN ≤ CONTENT_W` the column width is non-negative, and then the prefix has at most
`col_width // 8` characters.
-/
theorem layoutTable_cells (font : Font) (contentW : Int) (table : Element) (flow : Flow) (indent : Int)
    (size style : Nat) (held : tableRows table ≠ []) :
    let numCols := ((tableRows table).map List.length).foldl max 0
    let colWidth := (contentW - indent - margin).fdiv numCols
    1 ≤ numCols ∧ (indent + margin ≤ contentW → 0 ≤ colWidth) ∧
      ∃ pairs : List (TextBlock × TextBlock),
        (layoutTable font contentW table flow indent size style).blocks = flow.blocks ++ pairs.flatMap (fun p => [p.1, p.2]) ∧
        List.Forall₂ (fun (cell : String × String) (shown : TextBlock × TextBlock) =>
          shown.1.text = "__CELL__" ∧ shown.1.w = colWidth ∧ shown.2.text.data <+: cell.2.data ∧
            (indent + margin ≤ contentW → (shown.2.text.length : Int) ≤ max 0 (colWidth.fdiv 8)))
          (tableRows table).flatten pairs := by
  intro numCols colWidth
  -- The first row has a cell, so the widest row has one too.
  obtain ⟨row, rest, split⟩ := List.exists_cons_of_ne_nil held
  have columns : 1 ≤ numCols := by
    have widest := (le_foldl_max ((tableRows table).map List.length) 0).2 row.length
      (List.mem_map_of_mem _ (split ▸ List.mem_cons_self _ _))
    have cells := List.length_pos.mpr (ne_nil_of_mem_tableRows (split ▸ List.mem_cons_self row rest))
    omega
  have wide : indent + margin ≤ contentW → 0 ≤ colWidth := fun fits => Int.fdiv_nonneg (by omega) (by omega)
  refine ⟨columns, wide, ?_⟩
  obtain ⟨pairs, laid, shown⟩ := foldl_tableRowStep_shown font size style colWidth (font.lineHeight size + 8)
    (margin + indent) (tableRows table) (flow.blocks, flow.y + 4)
  refine ⟨pairs, ?_, shown.imp fun cell p fitted => ⟨fitted.1, fitted.2.1, fitted.2.2.1, fun fits => ?_⟩⟩
  · simp only [layoutTable, if_neg held]
    exact laid
  · -- Only the budget needs the column to be of non-negative width.
    rw [max_eq_right (Int.fdiv_nonneg (wide fits) (by decide : (0 : Int) ≤ 8))]
    exact fitted.2.2.2 (wide fits)

/-- A one-cell table whose text is ten characters long. -/
def tenCharTable : Element :=
  ⟨"table", [], [⟨"tr", [], [⟨"td", [], [], "abcdefghij"⟩], ""⟩], ""⟩

/-- The one-cell table at the browser's content width, with no indent. -/
theorem layoutTable_cells_ten :
    tableRows tenCharTable ≠ [] ∧
      let numCols := ((tableRows tenCharTable).map List.length).foldl max 0
      let colWidth := (608 - 0 - margin).fdiv numCols
      1 ≤ numCols ∧ (0 + margin ≤ 608 → 0 ≤ colWidth) ∧
        ∃ pairs : List (TextBlock × TextBlock),
          (layoutTable Font.fixed 608 tenCharTable ⟨[], [], 0⟩ 0 16 0).blocks =
            [] ++ pairs.flatMap (fun p => [p.1, p.2]) ∧
          List.Forall₂ (fun (cell : String × String) (shown : TextBlock × TextBlock) =>
            shown.1.text = "__CELL__" ∧ shown.1.w = colWidth ∧ shown.2.text.data <+: cell.2.data ∧
              (0 + margin ≤ 608 → (shown.2.text.length : Int) ≤ max 0 (colWidth.fdiv 8)))
            (tableRows tenCharTable).flatten pairs :=
  ⟨by decide, layoutTable_cells Font.fixed 608 tenCharTable ⟨[], [], 0⟩ 0 16 0 (by decide)⟩

/--
In a content area zero pixels wide the column is `-10` wide and the budget `-10 // 8 = -2`: the cell's border
has a negative width, and `text[:-2]` shows eight characters where the budget allows none.
-/
theorem layoutTable_negative_column :
    (layoutTable Font.fixed 0 tenCharTable ⟨[], [], 0⟩ 0 16 0).blocks.map (fun b => (b.text, b.w)) =
      [("__CELL__", -10), ("abcdefgh", -18)] := by
  decide

end Kivi
