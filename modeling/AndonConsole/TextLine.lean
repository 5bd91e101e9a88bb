import AndonConsole.Tft

/-!
Text in a line of the display.

What the drawing functions of the driver write, and where, and from it what
the loop of `TFT_print` does: up to its first line feed a text stays in the
line it starts in, and behind a line feed characters without anything to draw
only move the cursor down.
-/

namespace AndonConsole

def InRows (lo hi : ℤ) (p : Pixel) : Prop := lo ≤ p.2 ∧ p.2 ≤ hi

instance (lo hi : ℤ) : DecidablePred (InRows lo hi) := fun _ =>
  inferInstanceAs (Decidable (_ ∧ _))

section SendData

variable {x1 y1 x2 y2 : ℤ} {colors : List Color} {w : PixelWrite}

theorem sendData_inRows (hy : y1 ≤ y2) (hw : w ∈ sendData x1 y1 x2 y2 colors) :
    InRows y1 y2 w.1 := by
  obtain ⟨p, -, rfl⟩ := List.mem_map.mp hw
  have hnonneg := Int.emod_nonneg (p.2 / (x2 - x1 + 1)) (show y2 - y1 + 1 ≠ 0 by omega)
  have hlt := Int.emod_lt_of_pos (p.2 / (x2 - x1 + 1)) (show 0 < y2 - y1 + 1 by omega)
  constructor
  · dsimp only
    omega
  · dsimp only
    omega

theorem sendData_column (hx : x1 ≤ x2) (hw : w ∈ sendData x1 y1 x2 y2 colors) :
    x1 ≤ w.1.1 ∧ w.1.1 ≤ x2 := by
  obtain ⟨p, -, rfl⟩ := List.mem_map.mp hw
  have hnonneg := Int.emod_nonneg p.2 (show x2 - x1 + 1 ≠ 0 by omega)
  have hlt := Int.emod_lt_of_pos p.2 (show 0 < x2 - x1 + 1 by omega)
  constructor
  · dsimp only
    omega
  · dsimp only
    omega

theorem exists_mem_sendData {x y : ℤ} (hx : x1 ≤ x ∧ x ≤ x2) (hy : y1 ≤ y ∧ y ≤ y2)
    (hlen : ((y2 - y1 + 1) * (x2 - x1 + 1)).toNat = colors.length) :
    ∃ w ∈ sendData x1 y1 x2 y2 colors, w.1 = (x, y) := by
  -- column, row, width and height as numbers
  obtain ⟨i, hi⟩ := Int.eq_ofNat_of_zero_le (show 0 ≤ x - x1 by omega)
  obtain ⟨j, hj⟩ := Int.eq_ofNat_of_zero_le (show 0 ≤ y - y1 by omega)
  obtain ⟨width, hwidth⟩ := Int.eq_ofNat_of_zero_le (show 0 ≤ x2 - x1 + 1 by omega)
  obtain ⟨height, hheight⟩ := Int.eq_ofNat_of_zero_le (show 0 ≤ y2 - y1 + 1 by omega)
  have hlen' : colors.length = height * width := by
    rw [← hlen, hwidth, hheight, ← Int.natCast_mul, Int.toNat_natCast]
  have hk : width * j + i < colors.length := by
    calc width * j + i < width * j + width := by omega
      _ = (j + 1) * width := by rw [Nat.succ_mul, mul_comm]
      _ ≤ height * width := Nat.mul_le_mul_right width (by omega)
      _ = colors.length := hlen'.symm
  refine ⟨_, List.mem_map_of_mem (List.mk_mem_zipIdx_iff_getElem?.mpr
    (List.getElem?_eq_getElem hk)), ?_⟩
  have hmod : (((width * j + i : ℕ) : ℤ)) % width = i := by
    rw [← Int.natCast_emod, Nat.mul_add_mod, Nat.mod_eq_of_lt (by omega)]
  have hdiv : (((width * j + i : ℕ) : ℤ)) / width = j := by
    rw [← Int.natCast_ediv, Nat.mul_add_div (by omega), Nat.div_eq_of_lt (by omega), Nat.add_zero]
  dsimp only
  rw [hwidth, hheight, hmod, hdiv, Int.emod_eq_of_lt (by omega) (by omega), Prod.mk.injEq]
  omega

theorem place_injective {w h i j : ℤ} (hi0 : 0 ≤ i) (hi : i < w * h) (hj0 : 0 ≤ j)
    (hj : j < w * h) (hw : 0 < w) (hmod : i % w = j % w) (hdiv : i / w % h = j / w % h) :
    i = j := by
  have hquot (k : ℤ) (hk0 : 0 ≤ k) (hk : k < w * h) : k / w % h = k / w := by
    apply Int.emod_eq_of_lt
    · exact Int.ediv_nonneg hk0 (by omega)
    · exact Int.ediv_lt_of_lt_mul hw (by rwa [Int.mul_comm] at hk)
  rw [hquot i hi0 hi, hquot j hj0 hj] at hdiv
  rw [← Int.mul_ediv_add_emod i w, ← Int.mul_ediv_add_emod j w, hmod, hdiv]

theorem sendData_replicate_color {color : Color} {len : ℕ}
    (hw : w ∈ sendData x1 y1 x2 y2 (.replicate len color)) : w.2 = color := by
  obtain ⟨p, hp, rfl⟩ := List.mem_map.mp hw
  exact List.eq_of_mem_replicate (List.fst_mem_of_mem_zipIdx hp)

theorem tftPushColorRep_inRows {alloc : Bool} {color : Color} {len : ℕ} (hy : y1 ≤ y2)
    (hw : w ∈ tftPushColorRep alloc x1 y1 x2 y2 color len) : InRows y1 y2 w.1 := by
  unfold tftPushColorRep at hw
  split_ifs at hw
  · exact sendData_inRows hy hw
  · exact sendData_inRows hy hw
  · cases hw

theorem tftPushColorRep_column {alloc : Bool} {color : Color} {len : ℕ} (hx : x1 ≤ x2)
    (hw : w ∈ tftPushColorRep alloc x1 y1 x2 y2 color len) : x1 ≤ w.1.1 ∧ w.1.1 ≤ x2 := by
  unfold tftPushColorRep at hw
  split_ifs at hw
  · exact sendData_column hx hw
  · exact sendData_column hx hw
  · cases hw

theorem tftPushColorRep_color {alloc : Bool} {color : Color} {len : ℕ}
    (hw : w ∈ tftPushColorRep alloc x1 y1 x2 y2 color len) : w.2 = color := by
  unfold tftPushColorRep at hw
  split_ifs at hw
  · exact sendData_replicate_color hw
  · exact sendData_replicate_color hw
  · cases hw

theorem tftPushColorRep_alloc (color : Color) (len : ℕ) :
    tftPushColorRep true x1 y1 x2 y2 color len = sendData x1 y1 x2 y2 (.replicate len color) := by
  simp [tftPushColorRep]

end SendData

namespace Tft

variable {t : Tft} {w : PixelWrite} {color : Color} {x y : ℤ}

theorem clipSide_eq {lo hi pos len : ℤ} (hlo : lo ≤ pos) (hhi : pos ≤ hi) :
    clipSide lo hi pos len = (pos, max 1 (min len (hi - pos + 1))) := by
  rw [clipSide, if_neg (by omega)]
  dsimp only
  rw [Prod.mk.injEq]
  refine ⟨rfl, ?_⟩
  split_ifs <;> omega

theorem fillRect_inRows {alloc : Bool} {width height : ℤ} (hy : t.dispWin.y1 ≤ y)
    (hw : w ∈ t.fillRect alloc x y width height color) :
    InRows y (y + max 1 height - 1) w.1 := by
  unfold fillRect at hw
  split_ifs at hw with hclip
  · cases hw
  · rw [clipSide_eq hy (by omega)] at hw
    obtain ⟨hlo, hhi⟩ := tftPushColorRep_inRows (by omega) hw
    exact ⟨hlo, by omega⟩

theorem fillRect_column {alloc : Bool} {width height : ℤ} (hx : t.dispWin.x1 ≤ x)
    (hw : w ∈ t.fillRect alloc x y width height color) : x ≤ w.1.1 := by
  unfold fillRect at hw
  split_ifs at hw with hclip
  · cases hw
  · rw [clipSide_eq hx (by omega)] at hw
    exact (tftPushColorRep_column (by omega) hw).1

theorem fillRect_color {alloc : Bool} {width height : ℤ}
    (hw : w ∈ t.fillRect alloc x y width height color) : w.2 = color := by
  unfold fillRect at hw
  split_ifs at hw
  · cases hw
  · exact tftPushColorRep_color hw

theorem exists_mem_fillRect {width height x' y' : ℤ} (hwidth : 2 ≤ width)
    (hwin : t.dispWin.x1 ≤ x ∧ x + width - 1 ≤ t.dispWin.x2 ∧
      t.dispWin.y1 ≤ y ∧ y + height - 1 ≤ t.dispWin.y2)
    (hx : x ≤ x' ∧ x' ≤ x + width - 1) (hy : y ≤ y' ∧ y' ≤ y + height - 1) :
    ∃ w ∈ t.fillRect true x y width height color, w.1 = (x', y') := by
  rw [fillRect, if_neg (by omega), clipSide_eq (by omega) (by omega),
    clipSide_eq (by omega) (by omega)]
  dsimp only
  rw [tftPushColorRep_alloc, show max 1 (min height (t.dispWin.y2 - y + 1)) = height by omega,
    show max 1 (min width (t.dispWin.x2 - x + 1)) = width by omega]
  apply exists_mem_sendData hx hy
  rw [List.length_replicate]
  congr 2 <;> omega

theorem mem_drawPixel (hw : w ∈ t.drawPixel x y color) : w.1 = (x, y) := by
  unfold drawPixel at hw
  split_ifs at hw
  · cases hw
  · simp only [sendData, List.zipIdx_singleton, List.map_cons, List.map_nil,
      List.mem_singleton] at hw
    simp [hw]

theorem drawPixel_color (hw : w ∈ t.drawPixel x y color) : w.2 = color := by
  unfold drawPixel at hw
  split_ifs at hw
  · cases hw
  · have hone : w ∈ sendData x y (x + 1) (y + 1) (.replicate 1 color) := hw
    exact sendData_replicate_color hone

theorem mem_visible {g : PropFont} {i j : ℕ} (h : (i, j) ∈ g.visible) :
    i < g.width ∧ j < g.height := by
  simp only [PropFont.visible, List.mem_flatMap, List.mem_map, List.mem_filter, List.mem_range,
    Prod.mk.injEq] at h
  obtain ⟨j', hj', i', ⟨hi', -⟩, rfl, rfl⟩ := h
  exact ⟨hi', hj'⟩

theorem colorLine_length (t : Tft) (g : PropFont) :
    (t.colorLine g).length = g.charWidth * t.cfont.y_size := by
  refine List.foldlRecOn (motive := fun line : List Color =>
    line.length = g.charWidth * t.cfont.y_size) g.visible _ List.length_replicate ?_
  rintro line hline ⟨i, j⟩ -
  rw [List.length_set, hline]

/-- What a font and the settings of the driver have to be for its characters to stay in
the line they are printed in. -/
structure Prints (t : Tft) : Prop where
  buffered : t.font_buffered_char = true
  solid : t.font_transparent = false
  natural : t.font_forceFixed = false
  noWrap : t.text_wrap = false
  line_space : t.font_line_space = 0
  height : 0 < t.cfont.y_size
  glyph : ∀ c g, t.cfont.find c = some g →
    g.adjYOffset + g.height ≤ t.cfont.y_size ∧ 0 < g.charWidth ∧
      t.dispWin.x1 + g.xDelta ≤ t.dispWin.x2
  control : t.cfont.find 0x0A = none ∧ t.cfont.find 0x0D = none
  window : t.dispWin.x1 < t.dispWin.x2

namespace Prints

theorem getCharPtr (h : t.Prints) (c : UInt8) : t.getCharPtr c = t.cfont.find c := by
  simp [Tft.getCharPtr, h.natural]

theorem printProportionalChar_inRows (h : t.Prints) {m : Malloc} {c : UInt8} {g : PropFont}
    (hg : t.cfont.find c = some g) (hy : t.dispWin.y1 ≤ y)
    (hw : w ∈ t.printProportionalChar m g x y) : InRows y (y + t.cfont.y_size - 1) w.1 := by
  have hheight := h.height
  obtain ⟨hfits, -, -⟩ := h.glyph c g hg
  simp only [printProportionalChar, h.solid, Bool.not_false, if_true] at hw
  split_ifs at hw
  · exact sendData_inRows (by omega) hw
  · rcases List.mem_append.mp hw with hw | hw
    · obtain ⟨hlo, hhi⟩ := fillRect_inRows hy hw
      exact ⟨hlo, by omega⟩
    · obtain ⟨⟨i, j⟩, hij, hw⟩ := List.mem_flatMap.mp hw
      obtain ⟨-, hj⟩ := mem_visible hij
      rw [InRows, mem_drawPixel hw]
      dsimp only
      omega

/-- With a buffer a character is drawn down to the last row of its line. -/
theorem exists_mem_printProportionalChar (h : t.Prints) {c : UInt8} {g : PropFont}
    (hg : t.cfont.find c = some g) (x y : ℤ) :
    ∃ w ∈ t.printProportionalChar .ok g x y, w.1 = (x, y + t.cfont.y_size - 1) := by
  have hheight := h.height
  obtain ⟨-, hwidth, -⟩ := h.glyph c g hg
  rw [printProportionalChar, if_pos (by simp [h.buffered, h.solid, Malloc.ok])]
  apply exists_mem_sendData
  · omega
  · omega
  · rw [colorLine_length, mul_comm g.charWidth, ← Int.toNat_natCast (_ * _), Int.natCast_mul]
    congr 2 <;> omega

end Prints

end Tft

namespace Font

variable {f : Font} {c : UInt8} {st : List UInt8} {x right : ℤ}

def advance (f : Font) (c : UInt8) : ℕ := ((f.find c).map fun g => g.charWidth + 1).getD 0

def textWidth (f : Font) (st : List UInt8) : ℕ := (st.map f.advance).sum

/-- A character at column `x` ends in front of the last column. -/
def Fits (f : Font) (x right : ℤ) (c : UInt8) : Prop :=
  ∀ g, f.find c = some g → x + g.xDelta ≤ right

/-- So does every character of a text in one line from column `x` on. -/
def FitsLine (f : Font) (x right : ℤ) (st : List UInt8) : Prop :=
  ∀ before c after, st = before ++ c :: after → f.Fits (x + f.textWidth before) right c

/-- Something is drawn for a character: it is a carriage return or has a glyph. -/
def Draws (f : Font) (c : UInt8) : Prop := c = 0x0D ∨ (f.find c).isSome

instance : DecidablePred f.Draws := fun _ => inferInstanceAs (Decidable (_ ∨ _))

@[simp] theorem advance_of_none (h : f.find c = none) : f.advance c = 0 := by simp [advance, h]

@[simp] theorem advance_of_some {g : PropFont} (h : f.find c = some g) :
    f.advance c = g.charWidth + 1 := by simp [advance, h]

theorem fitsLine_nil : f.FitsLine x right [] := by simp [FitsLine]

theorem fitsLine_cons :
    f.FitsLine x right (c :: st) ↔
      f.Fits x right c ∧ f.FitsLine (x + f.advance c) right st := by
  have hwidth (before : List UInt8) :
      x + f.textWidth (c :: before) = x + f.advance c + f.textWidth before := by
    simp [textWidth]
    omega
  refine ⟨fun h => ⟨by simpa [textWidth] using h [] c st rfl, ?_⟩, fun h => ?_⟩
  · intro before d after hst
    have := h (c :: before) d after (by rw [hst, List.cons_append])
    rwa [hwidth] at this
  · intro before d after hst
    cases before with
    | nil =>
        obtain ⟨rfl, -⟩ := List.cons.inj hst
        simpa [textWidth] using h.1
    | cons e before =>
        obtain ⟨rfl, htail⟩ := List.cons.inj hst
        rw [hwidth]
        exact h.2 before d after htail

end Font

namespace Tft

def moveTo (t : Tft) (x y : ℤ) : Tft := { t with x, y }

variable {t : Tft} {w : PixelWrite} {x y : ℤ} {c : UInt8} {g : PropFont} {m : Malloc}

@[simp] theorem moveTo_x : (t.moveTo x y).x = x := rfl

@[simp] theorem moveTo_y : (t.moveTo x y).y = y := rfl

@[simp] theorem moveTo_dispWin : (t.moveTo x y).dispWin = t.dispWin := rfl

@[simp] theorem moveTo_cfont : (t.moveTo x y).cfont = t.cfont := rfl

@[simp] theorem moveTo_text_wrap : (t.moveTo x y).text_wrap = t.text_wrap := rfl

@[simp] theorem moveTo_fillRect : (t.moveTo x y).fillRect = t.fillRect := rfl

@[simp] theorem moveTo_printProportionalChar :
    (t.moveTo x y).printProportionalChar = t.printProportionalChar := rfl

theorem Prints.moveTo (h : t.Prints) (x y : ℤ) : (t.moveTo x y).Prints where
  buffered := h.buffered
  solid := h.solid
  natural := h.natural
  noWrap := h.noWrap
  line_space := h.line_space
  height := h.height
  glyph := h.glyph
  control := h.control
  window := h.window

/-! ### One turn of the loop -/

theorem printTurn_cr (h : t.Prints) :
    (t.moveTo x y).printTurn (0x0D, m) =
      ⟨t.moveTo x y, t.fillRect (m 1) x y (t.dispWin.x2 + 1 - x) t.cfont.y_size t.bg, false⟩ := by
  have hsolid : (t.moveTo x y).font_transparent = false := h.solid
  rw [printTurn, if_pos rfl, hsolid]
  rfl

theorem printTurn_lf (h : t.Prints) :
    (t.moveTo x y).printTurn (0x0A, m) =
      if y + t.cfont.y_size > t.dispWin.y2 - t.cfont.y_size then
        ⟨t.moveTo x (y + t.cfont.y_size), [], true⟩
      else ⟨t.moveTo t.dispWin.x1 (y + t.cfont.y_size), [], false⟩ := by
  rw [printTurn, if_neg (by decide), if_pos rfl, newLine]
  simp [moveTo, h.line_space]

theorem printTurn_none (h : t.Prints) (hcr : c ≠ 0x0D) (hlf : c ≠ 0x0A)
    (hc : t.cfont.find c = none) :
    (t.moveTo x y).printTurn (c, m) = ⟨t.moveTo x y, [], false⟩ := by
  have hptr : (t.moveTo x y).getCharPtr c = none := ((h.moveTo x y).getCharPtr c).trans hc
  rw [printTurn, if_neg hcr, if_neg hlf, hptr]

theorem printTurn_some (h : t.Prints) (hc : t.cfont.find c = some g) :
    (t.moveTo x y).printTurn (c, m) =
      if x + g.xDelta ≤ t.dispWin.x2 then
        ⟨t.moveTo (x + (g.charWidth + 1)) y, t.printProportionalChar m g x y, false⟩
      else ⟨t.moveTo x y, [], true⟩ := by
  have hcr : c ≠ 0x0D := by
    rintro rfl
    rw [h.control.2] at hc
    cases hc
  have hlf : c ≠ 0x0A := by
    rintro rfl
    rw [h.control.1] at hc
    cases hc
  have hptr : (t.moveTo x y).getCharPtr c = some g := ((h.moveTo x y).getCharPtr c).trans hc
  rw [printTurn, if_neg hcr, if_neg hlf, hptr]
  simp only [moveTo_x, moveTo_dispWin, moveTo_text_wrap, h.noWrap, Bool.not_false, if_true]
  by_cases hfit : x + g.xDelta ≤ t.dispWin.x2
  · rw [if_neg (by omega), if_pos hfit]
    rfl
  · rw [if_pos (by omega), if_neg hfit]

/-! ### Runs of the loop -/

/-- Turns of the loop that draw in the line at `y` only, and unless one of them breaks end
at column `x'` of it. They go on to the end exactly if `fits`. -/
structure StaysInLine (t : Tft) (y x' : ℤ) (fits : Prop) (turn : Lib.Turn Tft PixelWrite) :
    Prop where
  output : ∀ w ∈ turn.output, InRows y (y + t.cfont.y_size - 1) w.1
  goesOn : turn.breaks = false ↔ fits
  state : turn.breaks = false → turn.state = t.moveTo x' y

theorem printTurn_staysInLine (h : t.Prints) (hlf : c ≠ 0x0A) (hy : t.dispWin.y1 ≤ y)
    (x : ℤ) (m : Malloc) :
    StaysInLine t y (x + t.cfont.advance c) (t.cfont.Fits x t.dispWin.x2 c)
      ((t.moveTo x y).printTurn (c, m)) := by
  cases hc : t.cfont.find c with
  | none =>
      by_cases hcr : c = 0x0D
      · subst hcr
        rw [printTurn_cr h]
        refine ⟨fun w hw => ?_, by simp [Font.Fits, hc], by simp [hc]⟩
        have hheight := h.height
        obtain ⟨hlo, hhi⟩ := fillRect_inRows hy hw
        exact ⟨hlo, by omega⟩
      · rw [printTurn_none h hcr hlf hc]
        exact ⟨by simp, by simp [Font.Fits, hc], by simp [hc]⟩
  | some g =>
      have hfits : t.cfont.Fits x t.dispWin.x2 c ↔ x + g.xDelta ≤ t.dispWin.x2 := by
        simp [Font.Fits, hc]
      rw [printTurn_some h hc, hfits]
      split_ifs with hfit
      · refine ⟨fun w hw => h.printProportionalChar_inRows hc hy hw, by simp [hfit], fun _ => ?_⟩
        rw [Font.advance_of_some hc]
        rfl
      · exact ⟨by simp, by simp [hfit], by simp⟩

theorem printLoop_staysInLine (h : t.Prints) {cs : List (UInt8 × Malloc)}
    (hlf : ∀ c ∈ cs, c.1 ≠ 0x0A) (hy : t.dispWin.y1 ≤ y) (x : ℤ) :
    StaysInLine t y (x + t.cfont.textWidth (cs.map Prod.fst))
      (t.cfont.FitsLine x t.dispWin.x2 (cs.map Prod.fst))
      (Lib.outputLoop printTurn (t.moveTo x y) cs) := by
  induction cs generalizing x with
  | nil =>
      exact ⟨by simp, by simp [Font.fitsLine_nil], by simp [Font.textWidth]⟩
  | cons c cs ih =>
      obtain ⟨houtput, hgoesOn, hstate⟩ :=
        printTurn_staysInLine h (hlf c (by simp)) hy x c.2
      obtain ⟨ihoutput, ihgoesOn, ihstate⟩ :=
        ih (fun c' hc' => hlf c' (by simp [hc'])) (x + t.cfont.advance c.1)
      rw [Lib.outputLoop_cons, List.map_cons, Font.fitsLine_cons]
      cases hbreaks : ((t.moveTo x y).printTurn c).breaks with
      | true =>
          rw [Lib.Turn.andThen_of_breaks hbreaks]
          refine ⟨houtput, ?_, by simp [hbreaks]⟩
          rw [← hgoesOn]
          simp [hbreaks]
      | false =>
          rw [Lib.Turn.andThen_of_goesOn hbreaks, hstate hbreaks]
          refine ⟨?_, ?_, fun hrest => ?_⟩
          · intro w hw
            rcases List.mem_append.mp hw with hw | hw
            · exact houtput w hw
            · exact ihoutput w hw
          · rw [ihgoesOn, ← hgoesOn]
            simp [hbreaks]
          · rw [ihstate hrest]
            congr 1
            simp [Font.textWidth]
            omega

/-- Turns of the loop that draw nothing, and unless one of them breaks go on to the start of
the line at `bottom`, which has to be in the window. -/
structure MovesDown (t : Tft) (bottom : ℤ) (turn : Lib.Turn Tft PixelWrite) : Prop where
  output : turn.output = []
  goesOn : turn.breaks = false ↔ bottom ≤ t.dispWin.y2 - t.cfont.y_size
  state : turn.breaks = false → turn.state = t.moveTo t.dispWin.x1 bottom

/-- Characters without anything to draw only move the cursor down, a line for each line
feed. -/
theorem printLoop_movesDown (h : t.Prints) {cs : List (UInt8 × Malloc)}
    (hdraws : ∀ c ∈ cs, ¬ t.cfont.Draws c.1) (hy : y ≤ t.dispWin.y2 - t.cfont.y_size) :
    MovesDown t (y + (cs.map Prod.fst).count 0x0A * t.cfont.y_size)
      (Lib.outputLoop printTurn (t.moveTo t.dispWin.x1 y) cs) := by
  induction cs generalizing y with
  | nil => exact ⟨rfl, by simp [hy], by simp⟩
  | cons c cs ih =>
      obtain ⟨c, m⟩ := c
      have hc : ¬ t.cfont.Draws c := hdraws (c, m) (by simp)
      have hcs : ∀ c ∈ cs, ¬ t.cfont.Draws c.1 := fun c hc => hdraws c (by simp [hc])
      rw [Lib.outputLoop_cons, List.map_cons]
      by_cases hlf : c = 0x0A
      · subst hlf
        have hbottom (n : ℕ) : y + ((n + 1 : ℕ) : ℤ) * t.cfont.y_size =
            y + t.cfont.y_size + n * t.cfont.y_size := by
          rw [Int.natCast_add, Int.add_mul]
          omega
        rw [printTurn_lf h, List.count_cons_self, hbottom]
        split_ifs with hend
        · have hcount := Int.mul_nonneg (Int.natCast_nonneg ((cs.map Prod.fst).count 0x0A))
            (Int.natCast_nonneg t.cfont.y_size)
          rw [Lib.Turn.andThen_of_breaks rfl]
          exact ⟨rfl, by simp; omega, by simp⟩
        · rw [Lib.Turn.andThen_of_goesOn rfl]
          exact ih hcs (by omega)
      · rw [printTurn_none h (fun hcr => hc (.inl hcr)) hlf (by simpa using fun hg => hc (.inr hg)),
          List.count_cons_of_ne hlf, Lib.Turn.andThen_of_goesOn rfl]
        exact ih hcs hy

/-- At the start of a line everything that is drawn for a character reaches down to the last
row of the line. -/
theorem exists_mem_printTurn (h : t.Prints) (hc : t.cfont.Draws c) (hy : t.dispWin.y1 ≤ y)
    (hbottom : y ≤ t.dispWin.y2 - t.cfont.y_size) :
    ∃ w ∈ ((t.moveTo t.dispWin.x1 y).printTurn (c, .ok)).output,
      w.1.2 = y + t.cfont.y_size - 1 := by
  have hheight := h.height
  have hwindow := h.window
  rcases hc with rfl | hg
  · rw [printTurn_cr h]
    obtain ⟨w, hw, hpixel⟩ : ∃ w ∈ t.fillRect true t.dispWin.x1 y
        (t.dispWin.x2 + 1 - t.dispWin.x1) t.cfont.y_size t.bg,
        w.1 = (t.dispWin.x1, y + t.cfont.y_size - 1) :=
      exists_mem_fillRect (by omega) (by omega) (by omega) (by omega)
    exact ⟨w, hw, congrArg Prod.snd hpixel⟩
  · obtain ⟨g, hg⟩ := Option.isSome_iff_exists.mp hg
    rw [printTurn_some h hg, if_pos (h.glyph c g hg).2.2]
    obtain ⟨w, hw, hpixel⟩ := h.exists_mem_printProportionalChar hg t.dispWin.x1 y
    exact ⟨w, hw, congrArg Prod.snd hpixel⟩

end Tft
end AndonConsole
