import Kivi.Layout.Font

/-! The width `measure_text` gives a text against the pen advance `render_text` draws it with. -/

namespace Kivi

namespace Font

/--
The pen of `render_text` with the font service ready: each character moves it right by its advance, and the
glyph drawn there does not move it.
-/
def renderPen (font : Font) (x : Int) (text : String) (size : Nat) : Int :=
  text.data.foldl (fun x ch => x + font.advance ch.toNat size) x

/-- A font with no kerning at any size. -/
def Unkerned (font : Font) : Prop :=
  ∀ prev cp size, font.kerning prev cp size = 0

/-- The pen ends where it started plus what the same characters move it from zero. -/
theorem foldl_pen_shift (font : Font) (size : Nat) :
    ∀ (cs : List Char) (x : Int), cs.foldl (fun x ch => x + font.advance ch.toNat size) x =
      x + cs.foldl (fun x ch => x + font.advance ch.toNat size) 0
  | [], x => by simp
  | c :: cs, x => by
    -- Both sides shift the rest by the first advance.
    simp only [List.foldl_cons, zero_add]
    rw [foldl_pen_shift font size cs, foldl_pen_shift font size cs (font.advance c.toNat size)]
    omega

/-- Without kerning, the width `measure_text` accumulates is the pen's advance over the same characters. -/
theorem foldl_measure_unkerned {font : Font} (flat : font.Unkerned) (size : Nat) :
    ∀ (cs : List Char) (acc : Int × Nat),
      (cs.foldl (fun (acc : Int × Nat) ch =>
        (acc.1 + font.advance ch.toNat size + (if acc.2 ≠ 0 then font.kerning acc.2 ch.toNat size else 0),
          ch.toNat)) acc).1 = cs.foldl (fun x ch => x + font.advance ch.toNat size) acc.1
  | [], _ => rfl
  | c :: cs, acc => by
    rw [List.foldl_cons, foldl_measure_unkerned flat size cs, List.foldl_cons, flat acc.2 c.toNat size]
    simp

/-- Without kerning, `render_text` advances the pen by exactly the width `measure_text` gives. -/
theorem renderPen_sub_unkerned {font : Font} (flat : font.Unkerned) (x : Int) (text : String) (size : Nat) :
    font.renderPen x text size - x = font.measureText text size := by
  rw [renderPen, foldl_pen_shift, measureText, foldl_measure_unkerned flat]
  simp

/-- The fixed-pitch font, with every pair of characters kerned one pixel closer. -/
def kerned : Font :=
  ⟨fun _ => (12, -4, 0), fun _ _ => 8, fun _ _ _ => -1, 1, 2⟩

/--
With kerning, drawing and measuring disagree: `AV` is measured 15 pixels wide, but `render_text` moves its pen
16, so a link's underline and hit box end a pixel short of its glyphs.
-/
theorem renderPen_ignores_kerning :
    kerned.renderPen 0 "AV" 16 - 0 = 16 ∧ kerned.measureText "AV" 16 = 15 := by
  decide

end Font

end Kivi
