import AndonConsole.DefaultFont
import AndonConsole.Display
import AndonConsole.Lib.Output

/-!
The display by pixels.

The functions of the driver that `disp_write` calls, as the lists of the
pixels they send to the panel: `_fillRect` with its clipping, a glyph drawn
from a buffer or pixel by pixel, and the loop of `TFT_print`, which moves a
text cursor over the screen and knows two control characters. The answers of
the allocations made on the way are arguments. What is left out are the fixed
and the 7-segment fonts and rotated text, which the default font and the
settings of `_init_TFT` exclude.
-/

namespace AndonConsole

structure Color where
  r : UInt8
  g : UInt8
  b : UInt8
  deriving DecidableEq

namespace Color

def black : Color := ⟨0, 0, 0⟩

def white : Color := ⟨252, 252, 252⟩

def green : Color := ⟨0, 255, 0⟩

instance : Nontrivial Color := ⟨black, white, by decide⟩

end Color

/-- A pixel by its column and its row. -/
abbrev Pixel := ℤ × ℤ

abbrev PixelWrite := Pixel × Color

/-! ### What the panel is sent -/

/-- Colours sent to an address window fill it row by row. -/
def sendData (x1 y1 x2 y2 : ℤ) (colors : List Color) : List PixelWrite :=
  colors.zipIdx.map fun p =>
    ((x1 + p.2 % (x2 - x1 + 1), y1 + p.2 / (x2 - x1 + 1) % (y2 - y1 + 1)), p.1)

/-- Above 512 bits the colour is repeated in a line buffer, which has to be
allocated. -/
def tftPushColorRep (alloc : Bool) (x1 y1 x2 y2 : ℤ) (color : Color) (len : ℕ) :
    List PixelWrite :=
  if len * 24 ≤ 512 then sendData x1 y1 x2 y2 (.replicate len color)
  else if alloc then sendData x1 y1 x2 y2 (.replicate len color)
  else []

/-! ### The driver -/

/-- `tft_dispWin`: the corners of the clip window, which belong to it. -/
structure DispWin where
  x1 : ℤ
  y1 : ℤ
  x2 : ℤ
  y2 : ℤ

structure Tft where
  width : ℤ
  height : ℤ
  orientation : ℕ
  dispWin : DispWin
  cfont : Font
  font_buffered_char : Bool
  font_transparent : Bool
  font_forceFixed : Bool
  font_line_space : ℕ
  text_wrap : Bool
  fg : Color
  bg : Color
  x : ℤ
  y : ℤ

namespace Tft

/-- One axis of the clipping in `_fillRect`: where the side of a rectangle starts, and
its length. A side of length 0 becomes one of length 1. -/
def clipSide (lo hi pos len : ℤ) : ℤ × ℤ :=
  let (pos, len) := if pos < lo then (lo, len - (lo - pos)) else (pos, len)
  let len := if len < 0 then 0 else len
  let len := if pos + len > hi + 1 then hi - pos + 1 else len
  (pos, if len = 0 then 1 else len)

def fillRect (t : Tft) (alloc : Bool) (x y w h : ℤ) (color : Color) : List PixelWrite :=
  if x ≥ t.dispWin.x2 ∨ y > t.dispWin.y2 then []
  else
    let (x, w) := clipSide t.dispWin.x1 t.dispWin.x2 x w
    let (y, h) := clipSide t.dispWin.y1 t.dispWin.y2 y h
    tftPushColorRep alloc x y (x + w - 1) (y + h - 1) color (h * w).toNat

/-- `TFT_fillRect`, relative to the clip window. -/
def tftFillRect (t : Tft) (alloc : Bool) (x y w h : ℤ) (color : Color) : List PixelWrite :=
  t.fillRect alloc (x + t.dispWin.x1) (y + t.dispWin.y1) w h color

/-- `_drawPixel`. The address window is two pixels wide, and one colour is sent. -/
def drawPixel (t : Tft) (x y : ℤ) (color : Color) : List PixelWrite :=
  if x < t.dispWin.x1 ∨ y < t.dispWin.y1 ∨ x > t.dispWin.x2 ∨ y > t.dispWin.y2 then []
  else sendData x y (x + 1) (y + 1) [color]

/-! ### Fonts -/

/-- `TFT_setFont(DEFAULT_FONT, NULL)`. -/
def tftSetFont (t : Tft) : Tft := { t with cfont := .default }

def tftGetfontheight (t : Tft) : ℕ := t.cfont.y_size

def getCharPtr (t : Tft) (c : UInt8) : Option PropFont :=
  (t.cfont.find c).map fun fontChar =>
    if t.font_forceFixed then
      { fontChar with
        xDelta := t.cfont.max_x_size
        xOffset := ((t.cfont.max_x_size : ℤ) - fontChar.width).tdiv 2 }
    else fontChar

/-- The width of a text in pixels, with a column between two characters. -/
def tftGetStringWidth (t : Tft) (str : CString) : ℤ :=
  (str.bytes.filterMap t.getCharPtr).foldl
    (fun (strWidth : ℤ) fontChar => strWidth + ((fontChar.charWidth : ℤ) + 1)) 0 - 1

/-- The buffer of a character, `color_line` of the source. -/
def colorLine (t : Tft) (fontChar : PropFont) : List Color :=
  fontChar.visible.foldl
    (fun line (i, j) =>
      let bufPos := (j + fontChar.adjYOffset) * fontChar.charWidth + (fontChar.xOffset + i)
      line.set bufPos.toNat t.fg)
    (.replicate (fontChar.charWidth * t.cfont.y_size) t.bg)

/-- The character is sent in one piece if a buffer for it can be had, and drawn pixel
by pixel on a background if not. -/
def printProportionalChar (t : Tft) (m : Malloc) (fontChar : PropFont) (x y : ℤ) :
    List PixelWrite :=
  if t.font_buffered_char && !t.font_transparent && m 0 then
    sendData x y (x + fontChar.charWidth - 1) (y + t.cfont.y_size - 1) (t.colorLine fontChar)
  else
    (if !t.font_transparent then
      t.fillRect (m 1) x y (fontChar.charWidth + 1) t.cfont.y_size t.bg
    else []) ++
    fontChar.visible.flatMap fun (i, j) =>
      t.drawPixel (x + fontChar.xOffset + i) (y + j + fontChar.adjYOffset) t.fg

/-! ### Text -/

def newLine (t : Tft) : Lib.Turn Tft PixelWrite :=
  let t : Tft := { t with y := t.y + (t.cfont.y_size + t.font_line_space) }
  if t.y > t.dispWin.y2 - t.cfont.y_size then ⟨t, [], true⟩
  else ⟨{ t with x := t.dispWin.x1 }, [], false⟩

def printChar (t : Tft) (m : Malloc) (fontChar : PropFont) : Lib.Turn Tft PixelWrite where
  state := { t with x := t.x + (fontChar.charWidth + 1) }
  output := t.printProportionalChar m fontChar t.x t.y
  breaks := false

/-- One turn of the loop in `TFT_print`, on a character and the answers of `malloc` while
it is printed. -/
def printTurn (t : Tft) : UInt8 × Malloc → Lib.Turn Tft PixelWrite
  | (ch, m) =>
    -- '\r', erase to eol
    if ch = 0x0D then
      { state := t
        output :=
          if !t.font_transparent then
            t.fillRect (m 1) t.x t.y (t.dispWin.x2 + 1 - t.x) t.cfont.y_size t.bg
          else []
        breaks := false }
    -- '\n', new line
    else if ch = 0x0A then t.newLine
    else
      match t.getCharPtr ch with
      | none => ⟨t, [], false⟩
      | some fontChar =>
          if t.x + fontChar.xDelta > t.dispWin.x2 then
            if !t.text_wrap then ⟨t, [], true⟩
            else t.newLine.andThen fun t => t.printChar m fontChar
          else t.printChar m fontChar

def chars (m : ℕ → Malloc) (st : CString) : List (UInt8 × Malloc) :=
  st.bytes.zipIdx.map fun p => (p.1, m p.2)

def center : ℤ := -9003

def right : ℤ := -9004

def bottom : ℤ := -9004

def lastX : ℤ := 7000

def lastY : ℤ := 8000

/-- The column `TFT_print` starts at for its argument `x`, `tmpw` being the width of the
text. -/
def printX (t : Tft) (tmpw x : ℤ) : ℤ :=
  let x :=
    if x ≥ lastX ∧ x < lastY then t.x + (x - lastX)
    else if x > center then x + t.dispWin.x1
    else x
  let x :=
    if x = right then t.dispWin.x2 - tmpw + t.dispWin.x1
    else if x = center then
      ((t.dispWin.x2 - t.dispWin.x1 + 1) - tmpw).tdiv 2 + t.dispWin.x1
    else x
  if x < t.dispWin.x1 then t.dispWin.x1 else x

def printY (t : Tft) (y : ℤ) : ℤ :=
  let fh : ℤ := t.cfont.y_size
  let y :=
    if y ≥ lastY then t.y + (y - lastY)
    else if y > center then y + t.dispWin.y1
    else y
  let y :=
    if y = bottom then t.dispWin.y2 - fh + t.dispWin.y1
    else if y = center then
      ((t.dispWin.y2 - t.dispWin.y1 + 1) - fh.tdiv 2).tdiv 2 + t.dispWin.y1
    else y
  if y < t.dispWin.y1 then t.dispWin.y1 else y

/-- `TFT_print`, for a proportional font and text that is not rotated. -/
def tftPrint (m : ℕ → Malloc) (st : CString) (x y : ℤ) (t : Tft) : Lib.Turn Tft PixelWrite :=
  let x := t.printX (t.tftGetStringWidth st) x
  let y := t.printY y
  if x > t.dispWin.x2 ∨ y > t.dispWin.y2 then ⟨t, [], true⟩
  else
    let t : Tft := { t with x, y }
    if t.y + t.cfont.y_size - 1 > t.dispWin.y2 then ⟨t, [], true⟩
    else Lib.outputLoop printTurn t (chars m st)

/-! ### Start-up -/

/-- `CONFIG_TFT_PREDEFINED_DISPLAY_TYPE` of the build. -/
inductive PredefinedDisplay
  | none
  | espWroverKitV3
  | adafruitTftFeather
  | m5Stack
  | espWroverKitV41
  | ttgoTDisplay
  | ttgoTWristband

def staticWidthOffset : PredefinedDisplay → ℤ
  | .ttgoTDisplay => 53
  | .ttgoTWristband => 26
  | _ => 0

def staticHeightOffset : PredefinedDisplay → ℤ
  | .ttgoTDisplay => 40
  | .ttgoTWristband => 1
  | _ => 0

def defaultWidth : PredefinedDisplay → ℤ
  | .m5Stack => 320
  | .ttgoTDisplay => 135
  | .ttgoTWristband => 80
  | _ => 240

def defaultHeight : PredefinedDisplay → ℤ
  | .m5Stack => 240
  | .ttgoTDisplay => 240
  | .ttgoTWristband => 160
  | _ => 320

def portrait : ℕ := 0

def landscape : ℕ := 1

def staticXOffset (d : PredefinedDisplay) (t : Tft) : ℤ :=
  if t.orientation % 2 = 1 then staticHeightOffset d else staticWidthOffset d

def staticYOffset (d : PredefinedDisplay) (t : Tft) : ℤ :=
  if t.orientation % 2 = 1 then staticWidthOffset d else staticHeightOffset d

def tftResetclipwin (d : PredefinedDisplay) (t : Tft) : Tft :=
  { t with
    dispWin :=
      { x1 := staticXOffset d t
        y1 := staticYOffset d t
        x2 := t.width + staticXOffset d t - 1
        y2 := t.height + staticYOffset d t - 1 } }

/-- `_tft_setRotation`: in landscape the width is the larger side. -/
def setRotation (rot : ℕ) (t : Tft) : Tft :=
  if rot % 2 = 1 then
    if t.width < t.height then { t with width := t.height, height := t.width } else t
  else if t.width > t.height then { t with width := t.height, height := t.width }
  else t

/-- `TFT_setRotation` for the four rotations; it sets the clip window as
`TFT_resetclipwin` does. -/
def tftSetRotation (d : PredefinedDisplay) (rot : ℕ) (t : Tft) : Tft :=
  tftResetclipwin d (setRotation rot { t with orientation := rot })

def powerOn (d : PredefinedDisplay) : Tft where
  width := defaultWidth d
  height := defaultHeight d
  orientation := landscape
  dispWin :=
    { x1 := staticWidthOffset d
      y1 := staticHeightOffset d
      x2 := defaultWidth d + staticWidthOffset d
      y2 := defaultHeight d + staticHeightOffset d }
  cfont := ⟨tftDefaultFont, 0x0B, 0⟩
  font_buffered_char := true
  font_transparent := true
  font_forceFixed := false
  font_line_space := 0
  text_wrap := false
  fg := .green
  bg := .black
  x := 0
  y := 0

/-- `_init_TFT`, as far as it sets globals; `TFT_display_init` turns to portrait. -/
def initTFT (d : PredefinedDisplay) : Tft :=
  let t := { powerOn d with width := 128, height := 160 }
  let t := t.setRotation portrait
  let t := { t with text_wrap := false, font_transparent := false, font_forceFixed := false }
  let t := t.tftSetRotation d landscape
  let t := t.tftSetFont
  t.tftResetclipwin d

def tftFillScreen (d : PredefinedDisplay) (t : Tft) (alloc : Bool) (color : Color) :
    List PixelWrite :=
  tftPushColorRep alloc (staticXOffset d t) (staticYOffset d t)
    (t.width + staticXOffset d t - 1) (t.height + staticYOffset d t - 1) color
    (t.height * t.width).toNat

end Tft

/-! ### `disp_write` and `disp_cls` -/

/-- The answers of the allocations of one `disp_write`: one for the band of the row, and
those of every character. -/
structure RowMalloc where
  band : Bool
  char : ℕ → Malloc

def RowMalloc.ok : RowMalloc := ⟨true, fun _ => .ok⟩

def spacing : ℤ := 2

def highlightPadding : ℤ := 3

/-- Where the text of a row starts, `y` of `disp_write`. -/
def rowY (line : ℕ) : ℤ := 10 * (line - 1) * spacing + 25

/-- `disp_write` by pixels: the band of the row is filled and the text printed in it. -/
def Tft.dispWrite (m : RowMalloc) (w : DispWrite) (t : Tft) : Tft × List PixelWrite :=
  let y := rowY w.line
  let t := t.tftSetFont
  let fg := if w.highlight then Color.black else Color.white
  let bg := if w.highlight then Color.white else Color.black
  let band := t.tftFillRect m.band (w.x - highlightPadding) (y - highlightPadding)
    (t.width - 2 * (w.x - highlightPadding)) (t.tftGetfontheight + 2 * highlightPadding) bg
  let text := tftPrint m.char w.distring w.x y { t with fg, bg }
  -- the colours are white on black afterwards, whichever they were
  ({ text.state with fg := .white, bg := .black }, band ++ text.output)

structure Panel where
  tft : Tft
  pixels : Pixel → Color

def Panel.dispCls (d : Tft.PredefinedDisplay) (alloc : Bool) (p : Panel) : Panel where
  tft := p.tft
  pixels := Lib.overlay (p.tft.tftFillScreen d alloc .black) p.pixels

def Panel.dispWrite (m : RowMalloc) (w : DispWrite) (p : Panel) : Panel where
  tft := (p.tft.dispWrite m w).1
  pixels := Lib.overlay (p.tft.dispWrite m w).2 p.pixels

end AndonConsole
