import AndonConsole.Ink
import AndonConsole.Wire

/-!
The drawings of the console.

The functions of `tft.c` once more, now as what they ask of the low level
driver, drawing by drawing. Their pixels are those of the functions by pixels;
every drawing is one that the driver can make, whatever the text, and none of
them loses a colour on the wire.
-/

namespace AndonConsole

open Tft

namespace Drawings

def fillRect (t : Tft) (alloc : Bool) (x y w h : ℤ) (color : Color) : List Draw :=
  if x ≥ t.dispWin.x2 ∨ y > t.dispWin.y2 then []
  else
    let (x, w) := clipSide t.dispWin.x1 t.dispWin.x2 x w
    let (y, h) := clipSide t.dispWin.y1 t.dispWin.y2 y h
    [.fill alloc x y (x + w - 1) (y + h - 1) color (h * w).toNat]

def tftFillRect (t : Tft) (alloc : Bool) (x y w h : ℤ) (color : Color) : List Draw :=
  fillRect t alloc (x + t.dispWin.x1) (y + t.dispWin.y1) w h color

/-- `_drawPixel` with `sel == 0`. -/
def drawPixel (t : Tft) (x y : ℤ) (color : Color) : List Draw :=
  if x < t.dispWin.x1 ∨ y < t.dispWin.y1 ∨ x > t.dispWin.x2 ∨ y > t.dispWin.y2 then []
  else [.pixel x y color false]

/-- The device is selected once for all pixels, which only waits as every drawing does. -/
def printProportionalChar (t : Tft) (m : Malloc) (fontChar : PropFont) (x y : ℤ) : List Draw :=
  if t.font_buffered_char && !t.font_transparent && m 0 then
    [.colors x y (x + fontChar.charWidth - 1) (y + t.cfont.y_size - 1) (t.colorLine fontChar)]
  else
    (if !t.font_transparent then
      fillRect t (m 1) x y (fontChar.charWidth + 1) t.cfont.y_size t.bg
    else []) ++
    fontChar.visible.flatMap fun (i, j) =>
      drawPixel t (x + fontChar.xOffset + i) (y + j + fontChar.adjYOffset) t.fg

def newLine (t : Tft) : Lib.Turn Tft Draw := ⟨t.newLine.state, [], t.newLine.breaks⟩

def printChar (t : Tft) (m : Malloc) (fontChar : PropFont) : Lib.Turn Tft Draw where
  state := { t with x := t.x + (fontChar.charWidth + 1) }
  output := printProportionalChar t m fontChar t.x t.y
  breaks := false

def printTurn (t : Tft) : UInt8 × Malloc → Lib.Turn Tft Draw
  | (ch, m) =>
    if ch = 0x0D then
      { state := t
        output :=
          if !t.font_transparent then
            fillRect t (m 1) t.x t.y (t.dispWin.x2 + 1 - t.x) t.cfont.y_size t.bg
          else []
        breaks := false }
    else if ch = 0x0A then newLine t
    else
      match t.getCharPtr ch with
      | none => ⟨t, [], false⟩
      | some fontChar =>
          if t.x + fontChar.xDelta > t.dispWin.x2 then
            if !t.text_wrap then ⟨t, [], true⟩
            else (newLine t).andThen fun t => printChar t m fontChar
          else printChar t m fontChar

def tftPrint (m : ℕ → Malloc) (st : CString) (x y : ℤ) (t : Tft) : Lib.Turn Tft Draw :=
  let x := t.printX (t.tftGetStringWidth st) x
  let y := t.printY y
  if x > t.dispWin.x2 ∨ y > t.dispWin.y2 then ⟨t, [], true⟩
  else
    let t : Tft := { t with x, y }
    if t.y + t.cfont.y_size - 1 > t.dispWin.y2 then ⟨t, [], true⟩
    else Lib.outputLoop printTurn t (chars m st)

def dispWrite (m : RowMalloc) (w : DispWrite) (t : Tft) : Tft × List Draw :=
  let y := rowY w.line
  let t := t.tftSetFont
  let fg := if w.highlight then Color.black else Color.white
  let bg := if w.highlight then Color.white else Color.black
  let band := tftFillRect t m.band (w.x - highlightPadding) (y - highlightPadding)
    (t.width - 2 * (w.x - highlightPadding)) (t.tftGetfontheight + 2 * highlightPadding) bg
  let text := tftPrint m.char w.distring w.x y { t with fg, bg }
  ({ text.state with fg := .white, bg := .black }, band ++ text.output)

/-- `TFT_fillScreen` in black. -/
def dispCls (d : PredefinedDisplay) (t : Tft) (alloc : Bool) : List Draw :=
  [.fill alloc (staticXOffset d t) (staticYOffset d t) (t.width + staticXOffset d t - 1)
    (t.height + staticYOffset d t - 1) .black (t.height * t.width).toNat]

/-! ### Their pixels -/

section Pixels

variable (t : Tft) (alloc : Bool) (m : Malloc) (x y w h : ℤ) (color : Color) (g : PropFont)

theorem fillRect_pixels :
    (fillRect t alloc x y w h color).flatMap Draw.pixels = t.fillRect alloc x y w h color := by
  unfold fillRect Tft.fillRect
  split_ifs
  · rfl
  · exact List.append_nil _

theorem drawPixel_pixels :
    (drawPixel t x y color).flatMap Draw.pixels = t.drawPixel x y color := by
  unfold drawPixel Tft.drawPixel
  split_ifs
  · rfl
  · exact List.append_nil _

theorem printProportionalChar_pixels :
    (printProportionalChar t m g x y).flatMap Draw.pixels = t.printProportionalChar m g x y := by
  unfold printProportionalChar Tft.printProportionalChar
  split_ifs
  · exact List.append_nil _
  · rw [List.flatMap_append, fillRect_pixels, List.flatMap_assoc]
    simp only [drawPixel_pixels]
  · rw [List.nil_append, List.nil_append, List.flatMap_assoc]
    simp only [drawPixel_pixels]

theorem newLine_expand : (newLine t).expand Draw.pixels = t.newLine := by
  have houtput : t.newLine.output = [] := by
    unfold Tft.newLine
    dsimp only
    split_ifs
    · rfl
    · rfl
  cases hturn : t.newLine with
  | mk state output breaks =>
      rw [hturn] at houtput
      simp only [newLine, hturn, Lib.Turn.expand, List.flatMap_nil]
      rw [← houtput]

theorem printChar_expand : (printChar t m g).expand Draw.pixels = t.printChar m g := by
  simp only [printChar, Tft.printChar, Lib.Turn.expand, printProportionalChar_pixels]

theorem printTurn_expand (c : UInt8 × Malloc) :
    (printTurn t c).expand Draw.pixels = t.printTurn c := by
  obtain ⟨c, m⟩ := c
  unfold printTurn Tft.printTurn
  dsimp only
  by_cases hcr : c = 0x0D
  · rw [if_pos hcr, if_pos hcr]
    split_ifs
    · simp only [Lib.Turn.expand, fillRect_pixels]
    · rfl
  by_cases hlf : c = 0x0A
  · rw [if_neg hcr, if_neg hcr, if_pos hlf, if_pos hlf]
    exact newLine_expand t
  rw [if_neg hcr, if_neg hcr, if_neg hlf, if_neg hlf]
  cases t.getCharPtr c with
  | none => rfl
  | some g =>
      dsimp only
      split_ifs
      · rfl
      · rw [Lib.Turn.expand_andThen, newLine_expand]
        simp only [printChar_expand]
      · exact printChar_expand t m g

theorem tftPrint_expand (m : ℕ → Malloc) (st : CString) :
    (tftPrint m st x y t).expand Draw.pixels = Tft.tftPrint m st x y t := by
  unfold tftPrint Tft.tftPrint
  dsimp only
  split_ifs
  · rfl
  · rfl
  · exact (Lib.outputLoop_expand Draw.pixels (fun t c => (printTurn_expand t c).symm) _).symm

end Pixels

theorem dispWrite_pixels (m : RowMalloc) (w : DispWrite) (t : Tft) :
    t.dispWrite m w = ((dispWrite m w t).1, (dispWrite m w t).2.flatMap Draw.pixels) := by
  unfold Tft.dispWrite dispWrite tftFillRect
  dsimp only
  rw [List.flatMap_append, fillRect_pixels, ← tftPrint_expand]
  rfl

theorem dispCls_pixels (d : PredefinedDisplay) (t : Tft) (alloc : Bool) :
    (dispCls d t alloc).flatMap Draw.pixels = t.tftFillScreen d alloc .black :=
  List.append_nil _

/-! ### None of them is lost -/

section Arrives

variable {d : PredefinedDisplay} {t : Tft} {ct : ℕ} {x y : ℤ} {alloc : Bool} {color : Color}

theorem staticOffset_le (d : PredefinedDisplay) :
    staticWidthOffset d ≤ 53 ∧ staticHeightOffset d ≤ 40 := by
  cases d <;> decide

/-- The driver can make the drawing, and loses none of its colours. -/
def Arrives (ct : ℕ) (draw : Draw) : Prop := draw.InRange ct ∧ draw.Complete

theorem fillRect_arrives (h : t.IsSetUp d) (hx : t.dispWin.x1 ≤ x) (hy : t.dispWin.y1 ≤ y)
    {width height : ℤ} (hwidth : x < t.dispWin.x2 → 2 ≤ width) (hheight : 11 ≤ height)
    (hbottom : y + height - 1 ≤ t.dispWin.y2) :
    ∀ draw ∈ fillRect t alloc x y width height color, Arrives ct draw := by
  obtain ⟨-, hx1, hy1, hx2, hy2⟩ := h.geometry
  have hoffset := staticOffset_nonneg d
  have hoffset' := staticOffset_le d
  intro draw hdraw
  unfold fillRect at hdraw
  split_ifs at hdraw with hclip
  · cases hdraw
  · rw [clipSide_eq hx (by omega), clipSide_eq hy (by omega)] at hdraw
    obtain rfl := List.mem_singleton.mp hdraw
    refine ⟨⟨⟨by omega, by omega, by omega, by omega, by omega, by omega⟩, trivial⟩, .inl ?_⟩
    have hwidth := hwidth (by omega)
    have hmany : (11 : ℤ) * 2 ≤ max 1 (min height (t.dispWin.y2 - y + 1)) *
        max 1 (min width (t.dispWin.x2 - x + 1)) :=
      Int.mul_le_mul (by omega) (by omega) (by omega) (by omega)
    omega

theorem drawPixel_arrives (h : t.IsSetUp d) :
    ∀ draw ∈ drawPixel t x y color, Arrives ct draw := by
  obtain ⟨-, hx1, hy1, hx2, hy2⟩ := h.geometry
  have hoffset := staticOffset_nonneg d
  have hoffset' := staticOffset_le d
  intro draw hdraw
  unfold drawPixel at hdraw
  split_ifs at hdraw with hclip
  · cases hdraw
  · obtain rfl := List.mem_singleton.mp hdraw
    exact ⟨⟨⟨by omega, by omega, by omega, by omega, by omega, by omega⟩, trivial⟩, trivial⟩

/-- The cursor is in the window, and so is the line below it. -/
structure OnPanel (d : PredefinedDisplay) (t : Tft) : Prop where
  isSetUp : t.IsSetUp d
  x : t.dispWin.x1 ≤ t.x
  y : t.dispWin.y1 ≤ t.y
  bottom : t.y + t.cfont.y_size - 1 ≤ t.dispWin.y2

/-- Every character is wide enough to arrive whole, and narrow enough for the descriptors. -/
theorem printProportionalChar_arrives (hct : 0 < ct) (h : OnPanel d t) {c : UInt8} {g : PropFont}
    (hg : Font.default.find c = some g) (hfit : t.x + g.xDelta ≤ t.dispWin.x2) (m : Malloc) :
    ∀ draw ∈ printProportionalChar t m g t.x t.y, Arrives ct draw := by
  obtain ⟨hsetUp, hx, hy, hbottom⟩ := h
  obtain ⟨-, hx1, hy1, hx2, hy2⟩ := hsetUp.geometry
  have hsize := hsetUp.y_size
  have hoffset := staticOffset_nonneg d
  have hoffset' := staticOffset_le d
  obtain ⟨hwide, hnarrow⟩ := Font.default_charWidth hg
  have hline := colorLine_length t g
  rw [hsize] at hline
  intro draw hdraw
  simp only [printProportionalChar, hsetUp.prints.solid, Bool.not_false, if_true] at hdraw
  split_ifs at hdraw
  · obtain rfl := List.mem_singleton.mp hdraw
    have hroom : 3 * (t.colorLine g).length ≤ 4092 * ct := by omega
    exact ⟨⟨⟨by omega, by omega, by omega, by omega, by omega, by omega⟩, hroom⟩,
      .inl (by omega)⟩
  · rcases List.mem_append.mp hdraw with hfill | hpixels
    · exact fillRect_arrives hsetUp hx hy (by omega) (by omega) hbottom draw hfill
    · obtain ⟨⟨i, j⟩, -, hpixel⟩ := List.mem_flatMap.mp hpixels
      exact drawPixel_arrives hsetUp draw hpixel

theorem printTurn_arrives (hct : 0 < ct) (h : OnPanel d t) (c : UInt8 × Malloc) :
    (∀ draw ∈ (printTurn t c).output, Arrives ct draw) ∧
      ((printTurn t c).breaks = false → OnPanel d (printTurn t c).state) := by
  obtain ⟨c, m⟩ := c
  obtain ⟨hsetUp, hx, hy, hbottom⟩ := id h
  have hsize := hsetUp.y_size
  have hspace := hsetUp.prints.line_space
  unfold printTurn
  dsimp only
  by_cases hcr : c = 0x0D
  · rw [if_pos hcr, hsetUp.prints.solid]
    exact ⟨fillRect_arrives hsetUp hx hy (by omega) (by omega) hbottom, fun _ => h⟩
  by_cases hlf : c = 0x0A
  · rw [if_neg hcr, if_pos hlf, newLine, Tft.newLine]
    dsimp only
    split_ifs with hend
    · exact ⟨by simp, by simp⟩
    · refine ⟨by simp, fun _ => ⟨hsetUp.moveTo _ _, Int.le_refl _, ?_, ?_⟩⟩
      · dsimp only
        omega
      · dsimp only
        omega
  rw [if_neg hcr, if_neg hlf, hsetUp.prints.getCharPtr]
  cases hc : t.cfont.find c with
  | none => exact ⟨by simp, fun _ => h⟩
  | some g =>
      dsimp only
      by_cases hfit : t.x + g.xDelta ≤ t.dispWin.x2
      · rw [if_neg (by omega)]
        refine ⟨printProportionalChar_arrives hct h (hsetUp.cfont ▸ hc) hfit m,
          fun _ => ⟨hsetUp.moveTo _ _, ?_, hy, hbottom⟩⟩
        show t.dispWin.x1 ≤ t.x + (g.charWidth + 1)
        omega
      · rw [if_pos (by omega), hsetUp.prints.noWrap]
        exact ⟨by simp, by simp⟩

theorem tftPrint_arrives (hct : 0 < ct) (h : t.IsSetUp d) (m : ℕ → Malloc) (st : CString) :
    ∀ draw ∈ (tftPrint m st x y t).output, Arrives ct draw := by
  have hx : t.dispWin.x1 ≤ t.printX (t.tftGetStringWidth st) x := by
    unfold printX
    dsimp only
    split_ifs <;> omega
  have hy : t.dispWin.y1 ≤ t.printY y := by
    unfold printY
    dsimp only
    split_ifs <;> omega
  unfold tftPrint
  dsimp only
  split_ifs with hout hbelow
  · simp
  · simp
  · refine Lib.outputLoop_forall (I := OnPanel d)
      (fun t c _ ht => printTurn_arrives hct ht c) ⟨h.moveTo _ _, hx, hy, ?_⟩
    dsimp only
    omega

theorem dispWrite_arrives (hct : 0 < ct) (h : t.IsSetUp d) {w : DispWrite} (hw : MenuRow w)
    (m : RowMalloc) : ∀ draw ∈ (dispWrite m w t).2, Arrives ct draw := by
  obtain ⟨hwidth, hx1, hy1, hx2, hy2⟩ := h.geometry
  obtain ⟨hx, hone, hfive⟩ := hw
  have hheight : t.tftGetfontheight = 13 := h.y_size
  have hline := rowY_eq w.line
  intro draw hdraw
  unfold dispWrite at hdraw
  rw [h.tftSetFont] at hdraw
  rcases List.mem_append.mp hdraw with hband | htext
  · refine fillRect_arrives h ?_ ?_ ?_ ?_ ?_ draw hband
    all_goals
      unfold highlightPadding
      omega
  · exact tftPrint_arrives hct (h.setColors w.highlight) m.char w.distring draw htext

theorem dispCls_arrives (h : t.IsSetUp d) :
    ∀ draw ∈ dispCls d t alloc, Arrives ct draw := by
  obtain ⟨hwidth, -, -, -, -⟩ := h.geometry
  obtain ⟨hheight, hX, hY⟩ : t.height = 128 ∧ staticXOffset d t = staticHeightOffset d ∧
      staticYOffset d t = staticWidthOffset d := by
    obtain ⟨x, y, fg, bg, rfl⟩ := h
    exact ⟨rfl, rfl, rfl⟩
  have hoffset := staticOffset_nonneg d
  have hoffset' := staticOffset_le d
  intro draw hdraw
  obtain rfl := List.mem_singleton.mp hdraw
  rw [hX, hY, hheight, hwidth]
  exact ⟨⟨⟨by omega, by omega, by omega, by omega, by omega, by omega⟩, trivial⟩,
    .inl (by omega)⟩

end Arrives

end Drawings

end AndonConsole
