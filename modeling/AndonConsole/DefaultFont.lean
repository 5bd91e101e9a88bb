import Mathlib.Data.Int.Notation
import Mathlib.Data.List.Basic

/-!
The default font of the display and how its table is read.

A proportional font is one array of bytes: a header of four, then the glyphs
one after the other, each with six bytes of its own in front of its packed
bits, and a terminator. `getCharPtr` looks for a glyph from the front of the
table every time, and `getMaxWidthHeight` goes over all of them.
-/

namespace AndonConsole

/-- `tft_DefaultFont`, one glyph a line. -/
def tftDefaultFont : List UInt8 :=
  [
    0x00, 0x0B, 0x86, 0x04,
    0x20, 0x0A, 0x00, 0x00, 0x00, 0x04,
    0x21, 0x01, 0x01, 0x09, 0x02, 0x05, 0xFD, 0x80,
    0x22, 0x01, 0x03, 0x03, 0x01, 0x05, 0xB6, 0x80,
    0x23, 0x02, 0x08, 0x08, 0x01, 0x0A, 0x12, 0x14, 0x7F, 0x24, 0x24, 0xFE, 0x28, 0x48,
    0x24, 0x01, 0x06, 0x0B, 0x02, 0x08, 0x21, 0xCA, 0xA8, 0xE0, 0xE2, 0xAA, 0x70, 0x82, 0x00,
    0x25, 0x01, 0x0A, 0x09, 0x00, 0x0B, 0x61, 0x24, 0x89, 0x22, 0x50, 0x6D, 0x82, 0x91, 0x24,
      0x49, 0x21, 0x80,
    0x26, 0x01, 0x09, 0x09, 0x01, 0x0A, 0x30, 0x24, 0x10, 0x0C, 0x05, 0x14, 0x4A, 0x19, 0x8C,
      0x7B, 0x00,
    0x27, 0x01, 0x01, 0x03, 0x01, 0x03, 0xE0,
    0x28, 0x00, 0x03, 0x0B, 0x01, 0x05, 0x69, 0x49, 0x24, 0x48, 0x80,
    0x29, 0x00, 0x03, 0x0B, 0x01, 0x05, 0x89, 0x12, 0x49, 0x4A, 0x00,
    0x2A, 0x01, 0x05, 0x06, 0x01, 0x06, 0x25, 0x5C, 0xEA, 0x90,
    0x2B, 0x03, 0x07, 0x07, 0x01, 0x0A, 0x10, 0x20, 0x47, 0xF1, 0x02, 0x04, 0x00,
    0x2C, 0x08, 0x01, 0x03, 0x01, 0x04, 0xE0,
    0x2D, 0x06, 0x03, 0x01, 0x01, 0x04, 0xE0,
    0x2E, 0x08, 0x01, 0x02, 0x01, 0x04, 0xC0,
    0x2F, 0x01, 0x04, 0x0A, 0x00, 0x04, 0x11, 0x22, 0x24, 0x44, 0x88,
    0x30, 0x01, 0x06, 0x09, 0x01, 0x08, 0x79, 0x28, 0x61, 0x86, 0x18, 0x52, 0x78,
    0x31, 0x01, 0x05, 0x09, 0x01, 0x08, 0xE1, 0x08, 0x42, 0x10, 0x84, 0xF8,
    0x32, 0x01, 0x07, 0x09, 0x01, 0x08, 0x79, 0x18, 0x10, 0x20, 0x82, 0x08, 0x20, 0xFC,
    0x33, 0x01, 0x06, 0x09, 0x01, 0x08, 0x7A, 0x10, 0x41, 0x38, 0x30, 0x63, 0x78,
    0x34, 0x01, 0x06, 0x09, 0x01, 0x08, 0x18, 0x62, 0x92, 0x4A, 0x2F, 0xC2, 0x08,
    0x35, 0x01, 0x06, 0x09, 0x01, 0x08, 0xFA, 0x08, 0x3C, 0x0C, 0x10, 0x63, 0x78,
    0x36, 0x01, 0x06, 0x09, 0x01, 0x08, 0x39, 0x18, 0x3E, 0xCE, 0x18, 0x53, 0x78,
    0x37, 0x01, 0x06, 0x09, 0x01, 0x08, 0xFC, 0x10, 0x82, 0x10, 0x42, 0x08, 0x40,
    0x38, 0x01, 0x06, 0x09, 0x01, 0x08, 0x7B, 0x38, 0x73, 0x7B, 0x38, 0x73, 0x78,
    0x39, 0x01, 0x06, 0x09, 0x01, 0x08, 0x7B, 0x28, 0x61, 0xCD, 0xD0, 0x62, 0x70,
    0x3A, 0x04, 0x01, 0x06, 0x01, 0x04, 0xCC,
    0x3B, 0x04, 0x01, 0x07, 0x01, 0x04, 0xCE,
    0x3C, 0x03, 0x08, 0x06, 0x01, 0x0A, 0x03, 0x1E, 0xE0, 0xE0, 0x1E, 0x03,
    0x3D, 0x05, 0x08, 0x03, 0x01, 0x0A, 0xFF, 0x00, 0xFF,
    0x3E, 0x03, 0x08, 0x06, 0x01, 0x0A, 0xC0, 0x78, 0x07, 0x07, 0x78, 0xC0,
    0x3F, 0x01, 0x05, 0x09, 0x00, 0x06, 0x74, 0x42, 0x22, 0x10, 0x04, 0x20,
    0x40, 0x01, 0x0B, 0x0B, 0x01, 0x0D, 0x1F, 0x06, 0x19, 0x01, 0x46, 0x99, 0x13, 0x22, 0x64,
      0x54, 0x6C, 0x40, 0x04, 0x10, 0x7C, 0x00,
    0x41, 0x01, 0x08, 0x09, 0x00, 0x08, 0x18, 0x18, 0x24, 0x24, 0x24, 0x42, 0x7E, 0x42, 0x81,
    0x42, 0x01, 0x06, 0x09, 0x01, 0x08, 0xFA, 0x18, 0x61, 0xFA, 0x18, 0x61, 0xF8,
    0x43, 0x01, 0x06, 0x09, 0x01, 0x08, 0x39, 0x18, 0x20, 0x82, 0x08, 0x11, 0x38,
    0x44, 0x01, 0x07, 0x09, 0x01, 0x09, 0xF9, 0x0A, 0x0C, 0x18, 0x30, 0x60, 0xC2, 0xF8,
    0x45, 0x01, 0x06, 0x09, 0x01, 0x08, 0xFE, 0x08, 0x20, 0xFE, 0x08, 0x20, 0xFC,
    0x46, 0x01, 0x05, 0x09, 0x01, 0x07, 0xFC, 0x21, 0x0F, 0xC2, 0x10, 0x80,
    0x47, 0x01, 0x07, 0x09, 0x01, 0x09, 0x3C, 0x86, 0x04, 0x08, 0xF0, 0x60, 0xA1, 0x3C,
    0x48, 0x01, 0x07, 0x09, 0x01, 0x09, 0x83, 0x06, 0x0C, 0x1F, 0xF0, 0x60, 0xC1, 0x82,
    0x49, 0x01, 0x01, 0x09, 0x01, 0x03, 0xFF, 0x80,
    0x4A, 0x01, 0x03, 0x0B, 0xFF, 0x03, 0x24, 0x92, 0x49, 0x27, 0x00,
    0x4B, 0x01, 0x07, 0x09, 0x01, 0x07, 0x85, 0x12, 0x45, 0x0C, 0x14, 0x24, 0x44, 0x84,
    0x4C, 0x01, 0x05, 0x09, 0x01, 0x06, 0x84, 0x21, 0x08, 0x42, 0x10, 0xF8,
    0x4D, 0x01, 0x08, 0x09, 0x01, 0x0A, 0x81, 0xC3, 0xC3, 0xA5, 0xA5, 0x99, 0x99, 0x81, 0x81,
    0x4E, 0x01, 0x07, 0x09, 0x01, 0x09, 0xC3, 0x86, 0x8D, 0x19, 0x31, 0x62, 0xC3, 0x86,
    0x4F, 0x01, 0x07, 0x09, 0x01, 0x09, 0x38, 0x8A, 0x0C, 0x18, 0x30, 0x60, 0xA2, 0x38,
    0x50, 0x01, 0x06, 0x09, 0x01, 0x08, 0xFA, 0x38, 0x63, 0xFA, 0x08, 0x20, 0x80,
    0x51, 0x01, 0x07, 0x0B, 0x01, 0x09, 0x38, 0x8A, 0x0C, 0x18, 0x30, 0x60, 0xA2, 0x38, 0x10,
      0x10,
    0x52, 0x01, 0x07, 0x09, 0x01, 0x08, 0xF9, 0x1A, 0x14, 0x6F, 0x91, 0x21, 0x42, 0x82,
    0x53, 0x01, 0x06, 0x09, 0x01, 0x08, 0x7B, 0x18, 0x30, 0x78, 0x30, 0x63, 0x78,
    0x54, 0x01, 0x07, 0x09, 0x00, 0x07, 0xFE, 0x20, 0x40, 0x81, 0x02, 0x04, 0x08, 0x10,
    0x55, 0x01, 0x07, 0x09, 0x01, 0x09, 0x83, 0x06, 0x0C, 0x18, 0x30, 0x60, 0xA2, 0x38,
    0x56, 0x01, 0x0A, 0x09, 0xFF, 0x08, 0x40, 0x90, 0x22, 0x10, 0x84, 0x21, 0x04, 0x81, 0x20,
      0x30, 0x0C, 0x00,
    0x57, 0x01, 0x0B, 0x09, 0x00, 0x0B, 0x84, 0x28, 0x89, 0x11, 0x27, 0x22, 0xA8, 0x55, 0x0E,
      0xE0, 0x88, 0x11, 0x00,
    0x58, 0x01, 0x07, 0x09, 0x00, 0x07, 0xC6, 0x88, 0xA1, 0xC1, 0x07, 0x0A, 0x22, 0x82,
    0x59, 0x01, 0x07, 0x09, 0x00, 0x07, 0x82, 0x89, 0x11, 0x43, 0x82, 0x04, 0x08, 0x10,
    0x5A, 0x01, 0x07, 0x09, 0x01, 0x09, 0xFE, 0x04, 0x10, 0x41, 0x04, 0x10, 0x40, 0xFE,
    0x5B, 0x01, 0x02, 0x0B, 0x02, 0x05, 0xEA, 0xAA, 0xAC,
    0x5C, 0x01, 0x04, 0x0A, 0x00, 0x04, 0x88, 0x44, 0x42, 0x22, 0x11,
    0x5D, 0x01, 0x02, 0x0B, 0x01, 0x05, 0xD5, 0x55, 0x5C,
    0x5E, 0x01, 0x08, 0x03, 0x01, 0x0A, 0x18, 0x24, 0x42,
    0x5F, 0x0C, 0x06, 0x01, 0x00, 0x06, 0xFC,
    0x60, 0x00, 0x03, 0x02, 0x01, 0x06, 0x44,
    0x61, 0x03, 0x06, 0x07, 0x01, 0x08, 0x7A, 0x30, 0x5F, 0x86, 0x37, 0x40,
    0x62, 0x00, 0x06, 0x0A, 0x01, 0x08, 0x82, 0x08, 0x2E, 0xCA, 0x18, 0x61, 0xCE, 0xE0,
    0x63, 0x03, 0x05, 0x07, 0x01, 0x07, 0x72, 0x61, 0x08, 0x25, 0xC0,
    0x64, 0x00, 0x06, 0x0A, 0x01, 0x08, 0x04, 0x10, 0x5D, 0xCE, 0x18, 0x61, 0xCD, 0xD0,
    0x65, 0x03, 0x06, 0x07, 0x01, 0x08, 0x39, 0x38, 0x7F, 0x81, 0x13, 0x80,
    0x66, 0x00, 0x04, 0x0A, 0x00, 0x04, 0x34, 0x4F, 0x44, 0x44, 0x44,
    0x67, 0x03, 0x06, 0x0A, 0x01, 0x08, 0x77, 0x38, 0x61, 0x87, 0x37, 0x41, 0x4C, 0xE0,
    0x68, 0x00, 0x06, 0x0A, 0x01, 0x08, 0x82, 0x08, 0x2E, 0xC6, 0x18, 0x61, 0x86, 0x10,
    0x69, 0x01, 0x01, 0x09, 0x01, 0x03, 0xBF, 0x80,
    0x6A, 0x01, 0x02, 0x0C, 0x00, 0x03, 0x45, 0x55, 0x56,
    0x6B, 0x00, 0x06, 0x0A, 0x01, 0x07, 0x82, 0x08, 0x22, 0x92, 0x8E, 0x28, 0x92, 0x20,
    0x6C, 0x00, 0x01, 0x0A, 0x01, 0x03, 0xFF, 0xC0,
    0x6D, 0x03, 0x09, 0x07, 0x01, 0x0B, 0xB3, 0x66, 0x62, 0x31, 0x18, 0x8C, 0x46, 0x22,
    0x6E, 0x03, 0x06, 0x07, 0x01, 0x08, 0xBB, 0x18, 0x61, 0x86, 0x18, 0x40,
    0x6F, 0x03, 0x06, 0x07, 0x01, 0x08, 0x7B, 0x38, 0x61, 0x87, 0x37, 0x80,
    0x70, 0x03, 0x06, 0x0A, 0x01, 0x08, 0xBB, 0x28, 0x61, 0x87, 0x3B, 0xA0, 0x82, 0x00,
    0x71, 0x03, 0x06, 0x0A, 0x01, 0x08, 0x77, 0x38, 0x61, 0x87, 0x37, 0x41, 0x04, 0x10,
    0x72, 0x03, 0x04, 0x07, 0x01, 0x05, 0xBC, 0x88, 0x88, 0x80,
    0x73, 0x03, 0x06, 0x07, 0x01, 0x07, 0x72, 0x28, 0x1C, 0x0A, 0x27, 0x00,
    0x74, 0x01, 0x04, 0x09, 0x00, 0x05, 0x44, 0xF4, 0x44, 0x44, 0x30,
    0x75, 0x03, 0x06, 0x07, 0x01, 0x08, 0x86, 0x18, 0x61, 0x86, 0x37, 0x40,
    0x76, 0x03, 0x08, 0x07, 0xFF, 0x06, 0x42, 0x42, 0x24, 0x24, 0x24, 0x18, 0x18,
    0x77, 0x03, 0x09, 0x07, 0x00, 0x09, 0x88, 0xC4, 0x57, 0x4A, 0xA5, 0x51, 0x10, 0x88,
    0x78, 0x03, 0x06, 0x07, 0x00, 0x06, 0x85, 0x24, 0x8C, 0x49, 0x28, 0x40,
    0x79, 0x03, 0x08, 0x0A, 0xFF, 0x06, 0x42, 0x42, 0x24, 0x24, 0x14, 0x18, 0x08, 0x08, 0x10,
      0x60,
    0x7A, 0x03, 0x05, 0x07, 0x00, 0x05, 0xF8, 0x44, 0x44, 0x43, 0xE0,
    0x7B, 0x01, 0x05, 0x0B, 0x02, 0x08, 0x19, 0x08, 0x42, 0x60, 0x84, 0x21, 0x06,
    0x7C, 0x01, 0x01, 0x0C, 0x02, 0x04, 0xFF, 0xF0,
    0x7D, 0x01, 0x05, 0x0B, 0x01, 0x08, 0xC1, 0x08, 0x42, 0x0C, 0x84, 0x21, 0x30,
    0x7E, 0x04, 0x08, 0x03, 0x01, 0x0A, 0x00, 0x71, 0x8E,
    0xFF]

/-- A glyph: its six header bytes, and the table from its bits on. -/
structure PropFont where
  charCode : UInt8
  adjYOffset : ℕ
  width : ℕ
  height : ℕ
  xOffset : ℤ
  xDelta : ℕ
  data : List UInt8

/-- The columns that a glyph is drawn in, `char_width` of the source. -/
def PropFont.charWidth (g : PropFont) : ℕ := max g.width g.xDelta

/-- The number of bytes that the bits of a glyph are packed in. -/
def PropFont.dataSize (g : PropFont) : ℕ :=
  if g.width ≠ 0 then (g.width * g.height - 1) / 8 + 1 else 0

/-- Bit `i + j * width`, counted from the highest bit of the first byte. -/
def PropFont.isVisible (g : PropFont) (i j : ℕ) : Bool :=
  (g.data.getD ((i + j * g.width) / 8) 0).toNat.testBit (7 - (i + j * g.width) % 8)

def PropFont.visible (g : PropFont) : List (ℕ × ℕ) :=
  (List.range g.height).flatMap fun j =>
    ((List.range g.width).filter fun i => g.isVisible i j).map fun i => (i, j)

/-- The glyph at the front of `bytes`, unless the terminator stands there. -/
def readGlyph : List UInt8 → Option PropFont
  | charCode :: adjYOffset :: width :: height :: xOffset :: xDelta :: data =>
      if charCode = 0xFF then none
      else some {
        charCode
        adjYOffset := adjYOffset.toNat
        width := width.toNat
        height := height.toNat
        -- 0xFF stands for 0 here, not for -1
        xOffset := if xOffset < 0x80 then xOffset.toNat else -(0xFF - xOffset.toNat)
        xDelta := xDelta.toNat
        data }
  | _ => none

def glyphsFrom : ℕ → List UInt8 → List PropFont
  | 0, _ => []
  | n + 1, bytes =>
      match readGlyph bytes with
      | none => []
      | some g => g :: glyphsFrom n (g.data.drop g.dataSize)

/-- The glyphs of a table, which start behind the four bytes of its header. -/
def glyphs (font : List UInt8) : List PropFont := glyphsFrom font.length (font.drop 4)

/-- The fields of `tft_cfont` that a proportional font uses. -/
structure Font where
  font : List UInt8
  y_size : ℕ
  max_x_size : ℕ

namespace Font

/-- The search of `getCharPtr`. -/
def find (f : Font) (c : UInt8) : Option PropFont :=
  (glyphs f.font).find? fun g => g.charCode = c

/-- The sum `cy += ch` is one of bytes. -/
def getMaxWidthHeight (f : Font) : Font where
  font := f.font
  y_size := (glyphs f.font).foldl
    (fun y g => max (max y g.height) ((g.adjYOffset + g.height) % 256)) f.y_size
  max_x_size := (glyphs f.font).foldl (fun x g => max (max x g.width) g.xDelta) 0

/-- `TFT_setFont(DEFAULT_FONT, NULL)`: the first byte of the table, 0, says that it is
proportional, and the second is the height to begin with. -/
def default : Font :=
  getMaxWidthHeight
    { font := tftDefaultFont
      y_size := (tftDefaultFont.getD 1 0).toNat
      max_x_size := 0 }

theorem default_font : default.font = tftDefaultFont := rfl

theorem default_y_size : default.y_size = 13 := by decide +kernel

theorem default_find_control : default.find 0x0A = none ∧ default.find 0x0D = none := by
  decide +kernel

/-- The glyphs of the default font: none is empty, and each is inside the line and
narrow. -/
theorem default_glyph {c : UInt8} {g : PropFont} (h : default.find c = some g) :
    g.adjYOffset + g.height ≤ 13 ∧ 0 < g.charWidth ∧ g.xDelta ≤ 13 := by
  have hall : ∀ g ∈ glyphs tftDefaultFont,
      g.adjYOffset + g.height ≤ 13 ∧ 0 < g.charWidth ∧ g.xDelta ≤ 13 := by
    decide +kernel
  rw [find, default_font] at h
  exact hall g (List.mem_of_find?_eq_some h)

theorem default_charWidth {c : UInt8} {g : PropFont} (h : default.find c = some g) :
    3 ≤ g.charWidth ∧ g.charWidth ≤ 13 := by
  have hall : ∀ g ∈ glyphs tftDefaultFont, 3 ≤ g.charWidth ∧ g.charWidth ≤ 13 := by
    decide +kernel
  rw [find, default_font] at h
  exact hall g (List.mem_of_find?_eq_some h)

theorem default_visible {c : UInt8} {g : PropFont} (h : default.find c = some g) {i j : ℕ}
    (hij : (i, j) ∈ g.visible) : 0 ≤ g.xOffset + i ∧ g.xOffset + i < g.charWidth := by
  have hall : ∀ g ∈ glyphs tftDefaultFont, ∀ p ∈ g.visible,
      0 ≤ g.xOffset + p.1 ∧ g.xOffset + p.1 < g.charWidth := by
    decide +kernel
  rw [find, default_font] at h
  exact hall g (List.mem_of_find?_eq_some h) (i, j) hij

end Font

end AndonConsole
