import AndonConsole.TextRows

/-!
Calls of `disp_write` on the panel.

A call changes pixels in the band of its row only if its text does not leave
the row, and calls with such texts for two rows commute. So the menus may draw
their highlighted row last, whichever it is. A text with a line feed shows that
the condition is needed.
-/

namespace AndonConsole

open Tft

namespace Panel

variable {d : PredefinedDisplay} {t : Tft} {p : Panel} {w w' : DispWrite} {m m' : RowMalloc}
  {px : Pixel}

/-! ### One call -/

theorem dispWrite_pixels_of_notInBand (h : p.tft.IsSetUp d) (hw : MenuRow w)
    (hstays : ¬ p.tft.LeavesRow w) (hpx : ¬ p.tft.InBand w.line px) :
    (p.dispWrite m w).pixels px = p.pixels px := by
  apply Lib.overlay_of_notMem
  intro hmem
  obtain ⟨v, hv, rfl⟩ := List.mem_map.mp hmem
  exact hpx (h.dispWrite_inBand hw hstays m v hv)

theorem changes_inBand_iff (h : t.IsSetUp d) (hw : MenuRow w) :
    (∀ m pixels px, (dispWrite m w ⟨t, pixels⟩).pixels px ≠ pixels px → t.InBand w.line px) ↔
      ¬ t.LeavesRow w := by
  constructor
  · intro hband hleaves
    obtain ⟨v, hv, hout⟩ := h.exists_dispWrite_notInBand hw hleaves
    obtain ⟨pixels, hpixels⟩ := Lib.exists_overlay_ne_iff.mpr (List.mem_map_of_mem hv)
    exact hout (hband .ok pixels v.1 hpixels)
  · intro hstays m pixels px hpx
    by_contra hout
    exact hpx (dispWrite_pixels_of_notInBand (p := ⟨t, pixels⟩) h hw hstays hout)

theorem dispWrite_pixels_of_mem_text (h : p.tft.IsSetUp d) (hw : MenuRow w)
    (hpx : px ∈ ((initTFT d).rowText m.char w).map Prod.fst) :
    (p.dispWrite m w).pixels px =
      Lib.overlay ((initTFT d).rowText m.char w) (fun _ => .black) px := by
  show Lib.overlay (p.tft.dispWrite m w).2 p.pixels px = _
  rw [h.dispWrite_output hw, Lib.overlay_append, h.rowText_eq]
  exact Lib.overlay_congr_of_mem hpx _ _

/-- Where it does not, it shows the colour of the band, but for the margins left and right. -/
theorem dispWrite_pixels_of_notMem_text (h : p.tft.IsSetUp d) (hw : MenuRow w)
    (hm : m.band = true) (htext : px ∉ ((initTFT d).rowText m.char w).map Prod.fst)
    (hx : staticHeightOffset d + 2 ≤ px.1 ∧ px.1 ≤ staticHeightOffset d + 157)
    (hy : (initTFT d).InBand w.line px) :
    (p.dispWrite m w).pixels px = if w.highlight then .white else .black := by
  obtain ⟨-, hx1, -, hx2, hy2⟩ := h.geometry
  rw [← h.inBand_eq, h.inBand_iff] at hy
  have hline := rowY_eq w.line
  have hone := hw.one_le_line
  have hfive := hw.line_le_five
  show Lib.overlay (p.tft.dispWrite m w).2 p.pixels px = _
  rw [h.dispWrite_output hw, Lib.overlay_append, h.rowText_eq, Lib.overlay_of_notMem htext]
  apply Lib.overlay_of_forall_eq fun v => fillRect_color
  obtain ⟨v, hv, hvpx⟩ : ∃ v ∈ p.tft.fillRect true (2 + p.tft.dispWin.x1)
      (rowY w.line - 3 + p.tft.dispWin.y1) 156 19 (if w.highlight then .white else .black),
      v.1 = px :=
    exists_mem_fillRect (by omega) (by omega) (by omega) (by omega)
  rw [hm]
  exact List.mem_map.mpr ⟨v, hv, hvpx⟩

/-! ### Two calls -/

theorem bands_disjoint (h : t.IsSetUp d) {line line' : ℕ} (hne : line ≠ line')
    (hpx : t.InBand line px) : ¬ t.InBand line' px := by
  rw [h.inBand_iff] at hpx ⊢
  omega

theorem dispWrite_comm (h : t.IsSetUp d) (hw : MenuRow w) (hw' : MenuRow w')
    (hne : w.line ≠ w'.line) (hstays : ¬ t.LeavesRow w) (hstays' : ¬ t.LeavesRow w')
    (m m' : RowMalloc) (pixels : Pixel → Color) :
    (dispWrite m' w' (dispWrite m w ⟨t, pixels⟩)).pixels =
      (dispWrite m w (dispWrite m' w' ⟨t, pixels⟩)).pixels := by
  have hdisj : ((t.dispWrite m w).2.map Prod.fst).Disjoint
      ((t.dispWrite m' w').2.map Prod.fst) := by
    intro px hpx hpx'
    obtain ⟨v, hv, rfl⟩ := List.mem_map.mp hpx
    obtain ⟨v', hv', hvv'⟩ := List.mem_map.mp hpx'
    have hin := h.dispWrite_inBand hw hstays m v hv
    have hin' := h.dispWrite_inBand hw' hstays' m' v' hv'
    rw [hvv'] at hin'
    exact bands_disjoint h hne hin hin'
  calc (dispWrite m' w' (dispWrite m w ⟨t, pixels⟩)).pixels
      = Lib.overlay (t.dispWrite m' w').2 (Lib.overlay (t.dispWrite m w).2 pixels) := by
        rw [← (h.dispWrite m w).dispWrite_congr h hw' m']
        rfl
    _ = Lib.overlay (t.dispWrite m w).2 (Lib.overlay (t.dispWrite m' w').2 pixels) :=
        Lib.overlay_comm hdisj pixels
    _ = (dispWrite m w (dispWrite m' w' ⟨t, pixels⟩)).pixels := by
        rw [← (h.dispWrite m' w').dispWrite_congr h hw m]
        rfl

end Panel

/-! ### The rows of a menu -/

/-- **Rows keep apart.** In the display as it is set up, a call changes pixels of the band
of its row only exactly if its text does not leave the row, whatever the screen showed and
the allocations answer; and such calls for two rows can be made in either order. -/
theorem dispWrite_keeps_to_row {d : PredefinedDisplay} {t : Tft} (h : t.IsSetUp d) :
    t.tftGetfontheight + 6 ≤ 20 ∧
    (∀ (text : CString) (line : ℕ) (highlight : Bool), 1 ≤ line → line ≤ 5 →
      ((∀ (m : RowMalloc) (pixels : Pixel → Color) (px : Pixel),
          (Panel.dispWrite m ⟨text, 5, line, highlight⟩ ⟨t, pixels⟩).pixels px ≠ pixels px →
          t.InBand line px) ↔
        ¬ t.LeavesRow ⟨text, 5, line, highlight⟩)) ∧
    ∀ (text text' : CString) (line line' : ℕ) (highlight highlight' : Bool),
      1 ≤ line → line ≤ 5 → 1 ≤ line' → line' ≤ 5 → line ≠ line' →
      ¬ t.LeavesRow ⟨text, 5, line, highlight⟩ → ¬ t.LeavesRow ⟨text', 5, line', highlight'⟩ →
      ∀ (m m' : RowMalloc) (pixels : Pixel → Color),
        (Panel.dispWrite m' ⟨text', 5, line', highlight'⟩
          (Panel.dispWrite m ⟨text, 5, line, highlight⟩ ⟨t, pixels⟩)).pixels =
        (Panel.dispWrite m ⟨text, 5, line, highlight⟩
          (Panel.dispWrite m' ⟨text', 5, line', highlight'⟩ ⟨t, pixels⟩)).pixels := by
  refine ⟨?_, ?_, ?_⟩
  · rw [tftGetfontheight, h.y_size]
    decide
  · intro text line highlight hone hfive
    exact Panel.changes_inBand_iff h ⟨rfl, hone, hfive⟩
  · intro text text' line line' highlight highlight' hone hfive hone' hfive' hne hstays hstays'
    exact Panel.dispWrite_comm h ⟨rfl, hone, hfive⟩ ⟨rfl, hone', hfive'⟩ hne hstays hstays'

theorem dispWrite_keeps_to_row_jam :
    let jam := literal "Jam" 1 true
    let leak := literal "Leak" 2 false
    let panel : Panel := ⟨initTFT .none, fun _ => .black⟩
    (∀ px, (panel.dispWrite .ok jam).pixels px ≠ panel.pixels px → panel.tft.InBand 1 px) ∧
      ((panel.dispWrite .ok jam).dispWrite .ok leak).pixels =
        ((panel.dispWrite .ok leak).dispWrite .ok jam).pixels := by
  have hjam : ¬ (initTFT .none).LeavesRow (literal "Jam" 1 true) :=
    not_leavesRow_of_no_lineFeed (by decide)
  have hleak : ¬ (initTFT .none).LeavesRow (literal "Leak" 2 false) :=
    not_leavesRow_of_no_lineFeed (by decide)
  obtain ⟨-, hband, hcomm⟩ := dispWrite_keeps_to_row (initTFT_isSetUp .none)
  constructor
  · exact (hband _ 1 true (by decide) (by decide)).mpr hjam .ok _
  · exact hcomm _ _ 1 2 true false (by decide) (by decide) (by decide) (by decide) (by decide)
      hjam hleak .ok .ok _

/-- With "A\nB" in the first row the B is drawn in the second, where it stays if it is drawn
last. -/
theorem dispWrite_lineFeed_disturbs :
    let ab := literal "A\nB" 1 false
    let c := literal "C" 2 false
    let panel : Panel := ⟨initTFT .none, fun _ => .black⟩
    ((panel.dispWrite .ok ab).pixels (2, 47) ≠ panel.pixels (2, 47) ∧
        ¬ panel.tft.InBand 1 (2, 47)) ∧
      ((panel.dispWrite .ok ab).dispWrite .ok c).pixels (2, 47) ≠
        ((panel.dispWrite .ok c).dispWrite .ok ab).pixels (2, 47) := by
  have hab (p : Panel) (h : p.tft.IsSetUp .none) :
      (p.dispWrite .ok (literal "A\nB" 1 false)).pixels (2, 47) = .white := by
    rw [Panel.dispWrite_pixels_of_mem_text h ⟨rfl, by decide, by decide⟩ (by decide +kernel)]
    decide +kernel
  have hc (p : Panel) (h : p.tft.IsSetUp .none) :
      (p.dispWrite .ok (literal "C" 2 false)).pixels (2, 47) = .black :=
    Panel.dispWrite_pixels_of_notMem_text h ⟨rfl, by decide, by decide⟩ rfl
      (by decide +kernel) (by decide) (by decide +kernel)
  intro ab c panel
  have hsetUp : panel.tft.IsSetUp .none := initTFT_isSetUp .none
  have hcells : Color.white ≠ Color.black := by decide
  refine ⟨⟨?_, by decide +kernel⟩, ?_⟩
  · rw [hab panel hsetUp]
    exact hcells
  · rw [hab (panel.dispWrite .ok c) (hsetUp.dispWrite _ _),
      hc (panel.dispWrite .ok ab) (hsetUp.dispWrite _ _)]
    exact hcells.symm

end AndonConsole
