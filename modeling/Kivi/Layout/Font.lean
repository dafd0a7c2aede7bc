import Kivi.Python.Str

/-! The constants of the browser window and the font service the layout measures text with. -/

namespace Kivi

/-- `WIN_W`. -/
def winW : Int := 640
/-- `WIN_H`. -/
def winH : Int := 480
/-- `MARGIN`. -/
def margin : Int := 10
/-- `SCROLLBAR_W`. -/
def scrollbarW : Int := 12
/-- `ADDRESS_BAR_H`. -/
def addressBarH : Int := 24

/-- `WHITE`. -/
def white : Nat := 0x00FFFFFF
/-- `BLACK`. -/
def black : Nat := 0
/-- `GRAY`. -/
def gray : Nat := 0x00888888
/-- `LINK_COLOR`. -/
def linkColor : Nat := 0x000000FF

/-- `FONT_SIZES`, looked up by tag name. -/
def fontSizes : List (String × Nat) :=
  [("h1", 28), ("h2", 24), ("h3", 20), ("h4", 18), ("h5", 16), ("h6", 14), ("default", 16)]

/-- The TrueType service of `vibe` as the layout consults it. -/
structure Font where
  /-- `ttf_get_metrics(size)`: ascent, descent and line gap. -/
  metrics : Nat → Int × Int × Int
  /-- `ttf_get_advance(cp, size)`. -/
  advance : Nat → Nat → Int
  /-- `ttf_get_kerning(prev, cp, size)`. -/
  kerning : Nat → Nat → Nat → Int
  /-- `TTF_BOLD`. -/
  bold : Nat
  /-- `TTF_ITALIC`. -/
  italic : Nat

namespace Font

/-- `ascent - descent + line_gap` at a size. -/
def lineHeight (font : Font) (size : Nat) : Int :=
  (font.metrics size).1 - (font.metrics size).2.1 + (font.metrics size).2.2

/-- `measure_text`: advances, plus kerning after every character but a first or a NUL. -/
def measureText (font : Font) (text : String) (size : Nat) : Int :=
  (text.data.foldl (fun (acc : Int × Nat) ch =>
    (acc.1 + font.advance ch.toNat size + (if acc.2 ≠ 0 then font.kerning acc.2 ch.toNat size else 0),
      ch.toNat)) (0, 0)).1

/-- A fixed-pitch font: eight pixels a character and sixteen a line at every size, without kerning. -/
def fixed : Font :=
  ⟨fun _ => (12, -4, 0), fun _ _ => 8, fun _ _ _ => 0, 1, 2⟩

end Font

end Kivi
