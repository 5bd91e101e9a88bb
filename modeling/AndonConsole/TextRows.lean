import AndonConsole.TextLine

/-!
Rows of the display.

Which texts are drawn in the line they start in: all but those with a line feed
that the loop of `TFT_print` comes to, while there is something to draw behind
it and room for one more line. From this what a call of `disp_write` writes: the
band of its row, which it fills, and the text, in the band unless it leaves the
row. Nothing it writes depends on what was printed before, as a call finds
another cursor and other colours but the same font and settings.
-/

namespace AndonConsole

namespace Tft

variable {d : PredefinedDisplay} {t : Tft} {x y : ℤ} {cs : List (UInt8 × Malloc)}

/-- Something of a text that starts at column `x` of the line at `y` is drawn in a line
below: its first line feed is come to, and the first character behind it with anything to
draw while the cursor is still in the window. -/
def LeavesLine (t : Tft) (x y : ℤ) (st : List UInt8) : Prop :=
  ∃ before skipped c after, st = before ++ 0x0A :: (skipped ++ c :: after) ∧
    0x0A ∉ before ∧ t.cfont.FitsLine x t.dispWin.x2 before ∧
    (∀ b ∈ skipped, ¬ t.cfont.Draws b) ∧ t.cfont.Draws c ∧
    y + (skipped.count 0x0A + 1) * t.cfont.y_size ≤ t.dispWin.y2 - t.cfont.y_size

theorem printLoop_inRows (h : t.Prints) (hy : t.dispWin.y1 ≤ y)
    (hstays : ¬ t.LeavesLine x y (cs.map Prod.fst)) :
    ∀ w ∈ (Lib.outputLoop printTurn (t.moveTo x y) cs).output,
      InRows y (y + t.cfont.y_size - 1) w.1 := by
  cases hfind : cs.find? fun c => c.1 = 0x0A with
  | none =>
      have hlf : ∀ c ∈ cs, c.1 ≠ 0x0A := by simpa using List.find?_eq_none.mp hfind
      exact (printLoop_staysInLine h hlf hy x).output
  | some lf =>
      obtain ⟨hlf, cs₁, cs₂, rfl, hcs₁⟩ := List.find?_eq_some_iff_append.mp hfind
      obtain ⟨lf, m⟩ := lf
      obtain rfl : lf = 0x0A := by simpa using hlf
      have hbefore : ∀ c ∈ cs₁, c.1 ≠ 0x0A := by simpa using hcs₁
      obtain ⟨houtput, hgoesOn, hstate⟩ := printLoop_staysInLine h hbefore hy x
      intro w hw
      rw [Lib.outputLoop_append, Lib.Turn.mem_andThen_output] at hw
      rcases hw with hw | ⟨hfirst, hw⟩
      · exact houtput w hw
      -- behind the line feed nothing is drawn
      exfalso
      rw [hstate hfirst, Lib.outputLoop_cons, printTurn_lf h] at hw
      split_ifs at hw with hend
      · simp at hw
      rw [Lib.Turn.andThen_of_goesOn rfl] at hw
      have hnext : y + t.cfont.y_size ≤ t.dispWin.y2 - t.cfont.y_size := by omega
      cases hdraws : cs₂.find? fun c => t.cfont.Draws c.1 with
      | none =>
          have hskip : ∀ c ∈ cs₂, ¬ t.cfont.Draws c.1 := by
            simpa using List.find?_eq_none.mp hdraws
          rw [List.nil_append, (printLoop_movesDown h hskip hnext).output] at hw
          cases hw
      | some c =>
          obtain ⟨hc, cs₃, cs₄, rfl, hcs₃⟩ := List.find?_eq_some_iff_append.mp hdraws
          have hskip : ∀ c ∈ cs₃, ¬ t.cfont.Draws c.1 := by simpa using hcs₃
          obtain ⟨hnone, hreaches, -⟩ := printLoop_movesDown h hskip hnext
          rw [List.nil_append, Lib.outputLoop_append, Lib.Turn.mem_andThen_output, hnone] at hw
          rcases hw with hw | ⟨hskipped, -⟩
          · cases hw
          refine hstays ⟨cs₁.map Prod.fst, cs₃.map Prod.fst, c.1, cs₄.map Prod.fst, by simp,
            ?_, hgoesOn.mp hfirst, ?_, by simpa using hc, ?_⟩
          · simpa using fun m hm => hbefore (0x0A, m) hm rfl
          · simpa using fun b m hm => hskip (b, m) hm
          · have := hreaches.mp hskipped
            rw [Int.add_mul]
            omega

theorem exists_mem_printLoop (h : t.Prints) (hy : t.dispWin.y1 ≤ y)
    (hok : ∀ c ∈ cs, c.2 = Malloc.ok) (hleaves : t.LeavesLine x y (cs.map Prod.fst)) :
    ∃ w ∈ (Lib.outputLoop printTurn (t.moveTo x y) cs).output,
      y + 2 * t.cfont.y_size - 1 ≤ w.1.2 := by
  obtain ⟨before, skipped, c, after, hst, hlf, hfits, hskip, hc, hbottom⟩ := hleaves
  obtain ⟨cs₁, cs', rfl, rfl, hcs'⟩ := List.map_eq_append_iff.mp hst
  obtain ⟨⟨_, m⟩, cs'', rfl, rfl, hcs''⟩ := List.map_eq_cons_iff.mp hcs'
  obtain ⟨cs₂, cs₃, rfl, rfl, hcs₃⟩ := List.map_eq_append_iff.mp hcs''
  obtain ⟨⟨c, m'⟩, cs₄, rfl, rfl, -⟩ := List.map_eq_cons_iff.mp hcs₃
  obtain rfl : m' = Malloc.ok := hok (c, m') (by simp)
  have hcount := Int.mul_nonneg (Int.natCast_nonneg ((cs₂.map Prod.fst).count 0x0A))
    (Int.natCast_nonneg t.cfont.y_size)
  rw [Int.add_mul, Int.one_mul] at hbottom
  have hbefore : ∀ c ∈ cs₁, c.1 ≠ 0x0A := by
    rintro ⟨b, m⟩ hb rfl
    exact hlf (List.mem_map_of_mem hb)
  obtain ⟨-, hgoesOn, hstate⟩ := printLoop_staysInLine h hbefore hy x
  have hfirst := hgoesOn.mpr hfits
  have hskip' : ∀ c ∈ cs₂, ¬ t.cfont.Draws c.1 := fun c hc => hskip c.1 (List.mem_map_of_mem hc)
  obtain ⟨-, hreaches, hbelow⟩ := printLoop_movesDown h hskip'
    (show y + t.cfont.y_size ≤ t.dispWin.y2 - t.cfont.y_size by omega)
  have hskipped := hreaches.mpr (by omega)
  obtain ⟨w, hw, hrow⟩ := exists_mem_printTurn h hc
    (y := y + t.cfont.y_size + (cs₂.map Prod.fst).count 0x0A * t.cfont.y_size)
    (by omega) (by omega)
  refine ⟨w, ?_, by omega⟩
  rw [Lib.outputLoop_append, Lib.Turn.mem_andThen_output, hstate hfirst, Lib.outputLoop_cons,
    printTurn_lf h, if_neg (by omega), Lib.Turn.andThen_of_goesOn rfl, Lib.outputLoop_append]
  refine .inr ⟨hfirst, ?_⟩
  rw [List.nil_append, Lib.Turn.mem_andThen_output, hbelow hskipped, Lib.outputLoop_cons,
    Lib.Turn.mem_andThen_output]
  exact .inr ⟨hskipped, .inl hw⟩

/-! ### The display of the console -/

/-- As `_init_TFT` sets the display up, whatever cursor and colours are there. -/
def IsSetUp (d : PredefinedDisplay) (t : Tft) : Prop :=
  ∃ x y fg bg, t = { initTFT d with x, y, fg, bg }

theorem initTFT_eq (d : PredefinedDisplay) :
    initTFT d = {
      width := 160
      height := 128
      orientation := landscape
      dispWin :=
        { x1 := staticHeightOffset d
          y1 := staticWidthOffset d
          x2 := 160 + staticHeightOffset d - 1
          y2 := 128 + staticWidthOffset d - 1 }
      cfont := .default
      font_buffered_char := true
      font_transparent := false
      font_forceFixed := false
      font_line_space := 0
      text_wrap := false
      fg := .green
      bg := .black
      x := 0
      y := 0 } := rfl

theorem staticOffset_nonneg (d : PredefinedDisplay) :
    0 ≤ staticWidthOffset d ∧ 0 ≤ staticHeightOffset d := by
  cases d <;> decide

theorem IsSetUp.prints (h : t.IsSetUp d) : t.Prints := by
  obtain ⟨x, y, fg, bg, rfl⟩ := h
  rw [initTFT_eq]
  refine ⟨rfl, rfl, rfl, rfl, rfl, ?_, fun c g hg => ?_, Font.default_find_control, ?_⟩
  · rw [Font.default_y_size]
    decide
  · obtain ⟨hfits, hwidth, hdelta⟩ := Font.default_glyph hg
    rw [Font.default_y_size]
    refine ⟨hfits, hwidth, ?_⟩
    dsimp only
    omega
  · dsimp only
    omega

theorem exists_newLine_state (t : Tft) : ∃ x y, t.newLine.state = t.moveTo x y := by
  unfold newLine
  dsimp only
  split_ifs
  · exact ⟨_, _, rfl⟩
  · exact ⟨_, _, rfl⟩

/-- Turns of the loop that move the cursor and change no other global do so together. -/
theorem exists_andThen_state {turn : Lib.Turn Tft PixelWrite}
    {next : Tft → Lib.Turn Tft PixelWrite} (hturn : ∃ x y, turn.state = t.moveTo x y)
    (hnext : ∀ t' : Tft, ∃ x y, (next t').state = t'.moveTo x y) :
    ∃ x y, (turn.andThen next).state = t.moveTo x y := by
  obtain ⟨x, y, hstate⟩ := hturn
  cases hbreaks : turn.breaks with
  | true =>
      rw [Lib.Turn.andThen_of_breaks hbreaks]
      exact ⟨x, y, hstate⟩
  | false =>
      obtain ⟨x', y', hrest⟩ := hnext (t.moveTo x y)
      rw [Lib.Turn.andThen_of_goesOn hbreaks, hstate]
      exact ⟨x', y', hrest⟩

theorem exists_printTurn_state (t : Tft) (c : UInt8 × Malloc) :
    ∃ x y, (t.printTurn c).state = t.moveTo x y := by
  obtain ⟨c, m⟩ := c
  by_cases hcr : c = 0x0D
  · rw [printTurn, if_pos hcr]
    exact ⟨t.x, t.y, rfl⟩
  by_cases hlf : c = 0x0A
  · rw [printTurn, if_neg hcr, if_pos hlf]
    exact exists_newLine_state t
  cases hc : t.getCharPtr c with
  | none =>
      rw [printTurn, if_neg hcr, if_neg hlf, hc]
      exact ⟨t.x, t.y, rfl⟩
  | some g =>
      rw [printTurn, if_neg hcr, if_neg hlf, hc]
      dsimp only
      split_ifs
      · exact ⟨t.x, t.y, rfl⟩
      · exact exists_andThen_state (exists_newLine_state t) fun _ => ⟨_, _, rfl⟩
      · exact ⟨_, _, rfl⟩

theorem exists_printLoop_state (t : Tft) (cs : List (UInt8 × Malloc)) :
    ∃ x y, (Lib.outputLoop printTurn t cs).state = t.moveTo x y := by
  induction cs generalizing t with
  | nil => exact ⟨t.x, t.y, rfl⟩
  | cons c cs ih =>
      rw [Lib.outputLoop_cons]
      exact exists_andThen_state (exists_printTurn_state t c) ih

theorem exists_tftPrint_state (m : ℕ → Malloc) (st : CString) (x y : ℤ) (t : Tft) :
    ∃ x' y', (tftPrint m st x y t).state = t.moveTo x' y' := by
  unfold tftPrint
  dsimp only
  split_ifs
  · exact ⟨t.x, t.y, rfl⟩
  · exact ⟨_, _, rfl⟩
  · exact exists_printLoop_state (t.moveTo _ _) (chars m st)

theorem printX_eq (tmpw : ℤ) (hx : 0 ≤ x ∧ x < lastX) (hwin : 0 ≤ t.dispWin.x1) :
    t.printX tmpw x = x + t.dispWin.x1 := by
  unfold lastX at hx
  have hleft : (if x ≥ lastX ∧ x < lastY then t.x + (x - lastX)
      else if x > center then x + t.dispWin.x1 else x) = x + t.dispWin.x1 := by
    rw [if_neg (by unfold lastX; omega), if_pos (by unfold center; omega)]
  have hright : x + t.dispWin.x1 ≠ right := by
    unfold right
    omega
  have hcenter : x + t.dispWin.x1 ≠ center := by
    unfold center
    omega
  unfold printX
  dsimp only
  rw [hleft, if_neg hright, if_neg hcenter, if_neg (by omega)]

theorem printY_eq (hy : 0 ≤ y ∧ y < lastY) (hwin : 0 ≤ t.dispWin.y1) :
    t.printY y = y + t.dispWin.y1 := by
  unfold lastY at hy
  have htop : (if y ≥ lastY then t.y + (y - lastY)
      else if y > center then y + t.dispWin.y1 else y) = y + t.dispWin.y1 := by
    rw [if_neg (by unfold lastY; omega), if_pos (by unfold center; omega)]
  have hbottom : y + t.dispWin.y1 ≠ bottom := by
    unfold bottom
    omega
  have hcenter : y + t.dispWin.y1 ≠ center := by
    unfold center
    omega
  unfold printY
  dsimp only
  rw [htop, if_neg hbottom, if_neg hcenter, if_neg (by omega)]

/-- Inside the window text starts at the position it is given. -/
theorem tftPrint_eq (m : ℕ → Malloc) (st : CString)
    (hwin : 0 ≤ t.dispWin.x1 ∧ 0 ≤ t.dispWin.y1) (hx : 0 ≤ x ∧ x < lastX)
    (hx2 : x + t.dispWin.x1 ≤ t.dispWin.x2) (hy : 0 ≤ y ∧ y < lastY)
    (hy2 : y + t.dispWin.y1 + t.cfont.y_size - 1 ≤ t.dispWin.y2) (hheight : 0 < t.cfont.y_size) :
    tftPrint m st x y t =
      Lib.outputLoop printTurn (t.moveTo (x + t.dispWin.x1) (y + t.dispWin.y1)) (chars m st) := by
  unfold tftPrint
  rw [printX_eq _ hx hwin.1, printY_eq hy hwin.2]
  dsimp only
  rw [if_neg (by omega), if_neg (by omega)]
  rfl

theorem map_fst_chars (m : ℕ → Malloc) (st : CString) : (chars m st).map Prod.fst = st.bytes := by
  rw [chars, List.map_map]
  exact List.zipIdx_map_fst 0 st.bytes

theorem chars_ok {st : CString} {c : UInt8 × Malloc}
    (hc : c ∈ chars (fun _ => Malloc.ok) st) : c.2 = Malloc.ok := by
  obtain ⟨p, -, rfl⟩ := List.mem_map.mp hc
  rfl

/-! ### Rows -/

/-- Something of the text of a row is drawn in a line below. -/
def LeavesRow (t : Tft) (w : DispWrite) : Prop :=
  t.LeavesLine (w.x + t.dispWin.x1) (rowY w.line + t.dispWin.y1) w.distring.bytes

/-- A pixel in the band of a row, which `disp_write` fills. -/
def InBand (t : Tft) (line : ℕ) : Pixel → Prop :=
  InRows (rowY line + t.dispWin.y1 - 3) (rowY line + t.dispWin.y1 + t.tftGetfontheight + 2)

instance (t : Tft) (line : ℕ) : DecidablePred (t.InBand line) := fun px =>
  inferInstanceAs (Decidable (InRows _ _ px))

/-- The row of a menu: one of the lines 1 to 5, with its text at column 5. -/
structure MenuRow (w : DispWrite) : Prop where
  x : w.x = 5
  one_le_line : 1 ≤ w.line
  line_le_five : w.line ≤ 5

theorem rowY_eq (line : ℕ) : rowY line = 20 * line + 5 := by
  unfold rowY spacing
  omega

variable {w : DispWrite}

theorem not_leavesRow_of_no_lineFeed (hlf : 0x0A ∉ w.distring.bytes) : ¬ t.LeavesRow w := by
  rintro ⟨before, skipped, c, after, hst, -⟩
  rw [hst] at hlf
  simp at hlf

theorem IsSetUp.geometry (h : t.IsSetUp d) :
    t.width = 160 ∧ t.dispWin.x1 = staticHeightOffset d ∧ t.dispWin.y1 = staticWidthOffset d ∧
      t.dispWin.x2 = t.dispWin.x1 + 159 ∧ t.dispWin.y2 = t.dispWin.y1 + 127 := by
  obtain ⟨x, y, fg, bg, rfl⟩ := h
  rw [initTFT_eq]
  refine ⟨rfl, rfl, rfl, ?_, ?_⟩
  · dsimp only
    omega
  · dsimp only
    omega

theorem IsSetUp.y_size (h : t.IsSetUp d) : t.cfont.y_size = 13 := by
  obtain ⟨x, y, fg, bg, rfl⟩ := h
  exact Font.default_y_size

theorem IsSetUp.cfont (h : t.IsSetUp d) : t.cfont = .default := by
  obtain ⟨x, y, fg, bg, rfl⟩ := h
  rfl

/-- The band of a row is 19 pixels high, and one row of pixels apart from the next. -/
theorem IsSetUp.inBand_iff (h : t.IsSetUp d) {line : ℕ} {px : Pixel} :
    t.InBand line px ↔
      20 * line + 2 + t.dispWin.y1 ≤ px.2 ∧ px.2 ≤ 20 * line + 20 + t.dispWin.y1 := by
  rw [InBand, InRows, tftGetfontheight, h.y_size, rowY_eq]
  omega

theorem initTFT_isSetUp (d : PredefinedDisplay) : (initTFT d).IsSetUp d := ⟨_, _, _, _, rfl⟩

theorem IsSetUp.inBand_eq (h : t.IsSetUp d) (line : ℕ) :
    t.InBand line = (initTFT d).InBand line := by
  obtain ⟨x, y, fg, bg, rfl⟩ := h
  rfl

theorem IsSetUp.tftSetFont (h : t.IsSetUp d) : t.tftSetFont = t := by
  obtain ⟨x, y, fg, bg, rfl⟩ := h
  rfl

def setColors (t : Tft) (highlight : Bool) : Tft :=
  { t with
    fg := if highlight then .black else .white
    bg := if highlight then .white else .black }

@[simp] theorem setColors_dispWin (highlight : Bool) :
    (t.setColors highlight).dispWin = t.dispWin := rfl

@[simp] theorem setColors_cfont (highlight : Bool) :
    (t.setColors highlight).cfont = t.cfont := rfl

theorem IsSetUp.setColors (h : t.IsSetUp d) (highlight : Bool) :
    (t.setColors highlight).IsSetUp d := by
  obtain ⟨x, y, fg, bg, rfl⟩ := h
  exact ⟨x, y, _, _, rfl⟩

theorem IsSetUp.moveTo (h : t.IsSetUp d) (x y : ℤ) : (t.moveTo x y).IsSetUp d := by
  obtain ⟨x', y', fg, bg, rfl⟩ := h
  exact ⟨x, y, fg, bg, rfl⟩

theorem IsSetUp.dispWrite (h : t.IsSetUp d) (m : RowMalloc) (w : DispWrite) :
    (t.dispWrite m w).1.IsSetUp d := by
  obtain ⟨x, y, hstate⟩ := exists_tftPrint_state m.char w.distring w.x (rowY w.line)
    (t.setColors w.highlight)
  unfold Tft.dispWrite
  rw [h.tftSetFont]
  show IsSetUp d ((tftPrint m.char w.distring w.x (rowY w.line)
    (t.setColors w.highlight)).state.setColors false)
  rw [hstate]
  exact ((h.setColors w.highlight).moveTo x y).setColors false

def rowText (t : Tft) (m : ℕ → Malloc) (w : DispWrite) : List PixelWrite :=
  (Lib.outputLoop printTurn
    ((t.setColors w.highlight).moveTo (w.x + t.dispWin.x1) (rowY w.line + t.dispWin.y1))
    (chars m w.distring)).output

theorem IsSetUp.dispWrite_output (h : t.IsSetUp d) (hw : MenuRow w) (m : RowMalloc) :
    (t.dispWrite m w).2 =
      t.tftFillRect m.band 2 (rowY w.line - 3) 156 19
        (if w.highlight then .white else .black) ++
      t.rowText m.char w := by
  obtain ⟨hwidth, hx1, hy1, hx2, hy2⟩ := h.geometry
  have hheight := h.y_size
  obtain ⟨hx, hone, hfive⟩ := hw
  have hline := rowY_eq w.line
  have hoffset := staticOffset_nonneg d
  have hprint := tftPrint_eq (t := t.setColors w.highlight) m.char w.distring
    (x := w.x) (y := rowY w.line) (by simp; omega) (by unfold lastX; omega) (by simp; omega)
    (by unfold lastY; omega) (by simp; omega) (by simp; omega)
  unfold Tft.dispWrite
  rw [h.tftSetFont]
  show t.tftFillRect m.band (w.x - highlightPadding) (rowY w.line - highlightPadding)
      (t.width - 2 * (w.x - highlightPadding)) (t.tftGetfontheight + 2 * highlightPadding) _ ++
    (tftPrint m.char w.distring w.x (rowY w.line) (t.setColors w.highlight)).output = _
  rw [hprint, rowText, tftGetfontheight, highlightPadding, hx, hwidth, hheight]
  rfl

/-- The last row of a menu is the last line in the window, so no text leaves it. -/
theorem IsSetUp.not_leavesRow_of_line_eq_five (h : t.IsSetUp d) (hline : w.line = 5) :
    ¬ t.LeavesRow w := by
  obtain ⟨-, -, -, -, hy2⟩ := h.geometry
  rintro ⟨before, skipped, c, after, -, -, -, -, -, hbottom⟩
  rw [rowY_eq, hline, hy2, h.y_size] at hbottom
  omega

theorem IsSetUp.rowText_eq (h : t.IsSetUp d) (m : ℕ → Malloc) (w : DispWrite) :
    t.rowText m w = (initTFT d).rowText m w := by
  obtain ⟨x, y, fg, bg, rfl⟩ := h
  rfl

theorem IsSetUp.dispWrite_congr {t' : Tft} (h : t.IsSetUp d) (h' : t'.IsSetUp d)
    (hw : MenuRow w) (m : RowMalloc) : (t.dispWrite m w).2 = (t'.dispWrite m w).2 := by
  rw [h.dispWrite_output hw, h'.dispWrite_output hw, h.rowText_eq, h'.rowText_eq]
  obtain ⟨x, y, fg, bg, rfl⟩ := h
  obtain ⟨x', y', fg', bg', rfl⟩ := h'
  rfl

theorem IsSetUp.dispWrite_inBand (h : t.IsSetUp d) (hw : MenuRow w)
    (hstays : ¬ t.LeavesRow w) (m : RowMalloc) :
    ∀ v ∈ (t.dispWrite m w).2, t.InBand w.line v.1 := by
  have hline := rowY_eq w.line
  have hone := hw.one_le_line
  have hy : t.dispWin.y1 ≤ rowY w.line + t.dispWin.y1 := by omega
  intro v hv
  rw [h.dispWrite_output hw] at hv
  rw [h.inBand_iff]
  rcases List.mem_append.mp hv with hband | htext
  · obtain ⟨hlo, hhi⟩ := fillRect_inRows (by omega) hband
    omega
  · rw [LeavesRow, ← map_fst_chars m.char] at hstays
    obtain ⟨hlo, hhi⟩ := printLoop_inRows (h.setColors w.highlight).prints hy hstays v htext
    rw [setColors_cfont, h.y_size] at hhi
    omega

/-- A text that leaves its row is drawn below the band where all allocations succeed. -/
theorem IsSetUp.exists_dispWrite_notInBand (h : t.IsSetUp d) (hw : MenuRow w)
    (hleaves : t.LeavesRow w) : ∃ v ∈ (t.dispWrite .ok w).2, ¬ t.InBand w.line v.1 := by
  have hline := rowY_eq w.line
  have hone := hw.one_le_line
  have hy : t.dispWin.y1 ≤ rowY w.line + t.dispWin.y1 := by omega
  rw [LeavesRow, ← map_fst_chars fun _ => Malloc.ok] at hleaves
  obtain ⟨v, hv, hbelow⟩ := exists_mem_printLoop (h.setColors w.highlight).prints hy
    (fun _ => chars_ok) hleaves
  refine ⟨v, ?_, ?_⟩
  · rw [h.dispWrite_output hw]
    exact List.mem_append_right _ hv
  · rw [setColors_cfont, h.y_size] at hbelow
    rw [h.inBand_iff]
    omega

end Tft

end AndonConsole
