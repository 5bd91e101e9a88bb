import AndonConsole.TextRows
import Mathlib.Data.List.Nodup

/-!
The ink of a text.

What a text of one line looks like: the visible pixels of its glyphs, one glyph
beside the other up to the first that does not fit. The driver draws a glyph
from a buffer, if one can be had, with the background in one piece, and if not
pixel by pixel. On a line that is all background both leave the ink of the text
and nothing else, so the answers of `malloc` do not show.
-/

namespace AndonConsole

/-! ### Buffers -/

section SendData

variable {x y : ℤ} {w h a b : ℕ} {colors : List Color} {c : Color}

theorem sendData_nodup (hw : 0 < w) (hlen : colors.length = w * h) :
    ((sendData x y (x + w - 1) (y + h - 1) colors).map Prod.fst).Nodup := by
  have hsides : x + w - 1 - x + 1 = w ∧ y + h - 1 - y + 1 = h := ⟨by omega, by omega⟩
  have hpositions : (sendData x y (x + w - 1) (y + h - 1) colors).map Prod.fst =
      (List.range colors.length).map fun k : ℕ => (x + (k : ℤ) % w, y + (k : ℤ) / w % h) := by
    rw [List.range_eq_range', ← List.zipIdx_map_snd 0 colors, sendData, List.map_map, List.map_map,
      hsides.1, hsides.2]
    rfl
  rw [hpositions]
  apply List.Nodup.map_on _ List.nodup_range
  intro i hi j hj heq
  rw [Prod.mk.injEq] at heq
  rw [List.mem_range, hlen] at hi hj
  have hroom (k : ℕ) (hk : k < w * h) : (k : ℤ) < (w : ℤ) * h := by
    rw [← Int.natCast_mul]
    omega
  have hij : (i : ℤ) = j :=
    place_injective (by omega) (hroom i hi) (by omega) (hroom j hj) (by omega) (by omega) (by omega)
  omega

theorem overlay_sendData (ha : a < w) (hb : b < h) (hlen : colors.length = w * h)
    (hc : colors[b * w + a]? = some c) (f : Pixel → Color) :
    Lib.overlay (sendData x y (x + w - 1) (y + h - 1) colors) f (x + a, y + b) = c := by
  have hmem : ((x + a, y + b), c) ∈ sendData x y (x + w - 1) (y + h - 1) colors := by
    refine List.mem_map.mpr ⟨(c, b * w + a), List.mk_mem_zipIdx_iff_getElem?.mpr hc, ?_⟩
    have hmod : ((b * w + a : ℕ) : ℤ) % w = a := by
      rw [← Int.natCast_emod, Nat.mul_add_mod_of_lt ha]
    have hdiv : ((b * w + a : ℕ) : ℤ) / w % h = b := by
      rw [← Int.natCast_ediv, ← Int.natCast_emod, Nat.add_comm,
        Nat.add_mul_div_right _ _ (by omega), Nat.div_eq_of_lt ha, Nat.zero_add,
        Nat.mod_eq_of_lt hb]
    dsimp only
    rw [show x + w - 1 - x + 1 = w by omega, show y + h - 1 - y + 1 = h by omega, hmod, hdiv]
  exact Lib.overlay_of_mem (sendData_nodup (by omega) hlen) hmem f

theorem getElem?_foldl_set {α β : Type} (ps : List β) (pos : β → ℕ) (v : α) {l : List α} {k : ℕ}
    (hk : k < l.length) :
    (ps.foldl (fun l p => l.set (pos p) v) l)[k]? =
      if k ∈ ps.map pos then some v else l[k]? := by
  induction ps generalizing l with
  | nil => simp
  | cons p ps ih =>
      rw [List.foldl_cons, ih (by rwa [List.length_set]), List.map_cons]
      by_cases hps : k ∈ ps.map pos
      · rw [if_pos hps, if_pos (List.mem_cons_of_mem _ hps)]
      · rw [if_neg hps, List.getElem?_set]
        by_cases hp : pos p = k
        · rw [if_pos hp, if_pos (by omega), if_pos (by simp [hp])]
        · rw [if_neg hp, if_neg (by simp [hps, Ne.symm hp])]

end SendData

/-! ### Glyphs -/

def PropFont.ink (g : PropFont) (x y : ℤ) : List Pixel :=
  g.visible.map fun p => (x + g.xOffset + p.1, y + p.2 + g.adjYOffset)

def PropFont.Inside (g : PropFont) : Prop :=
  ∀ i j, (i, j) ∈ g.visible → 0 ≤ g.xOffset + i ∧ g.xOffset + i < g.charWidth

namespace Tft

variable {t : Tft} {g : PropFont} {x y hi : ℤ} {f : Pixel → Color} {px : Pixel} {m : Malloc}

/-- The buffer of a glyph has the ink in the one colour and all else in the other. -/
theorem getElem?_colorLine (hg : g.Inside) {a b : ℕ} (ha : a < g.charWidth)
    (hb : b < t.cfont.y_size) :
    (t.colorLine g)[b * g.charWidth + a]? =
      some (if (x + a, y + b) ∈ g.ink x y then t.fg else t.bg) := by
  have hk : b * g.charWidth + a < g.charWidth * t.cfont.y_size :=
    calc b * g.charWidth + a < (b + 1) * g.charWidth := by rw [Nat.succ_mul]; omega
      _ ≤ t.cfont.y_size * g.charWidth := Nat.mul_le_mul_right _ hb
      _ = g.charWidth * t.cfont.y_size := Nat.mul_comm _ _
  have hpos : (b * g.charWidth + a ∈ g.visible.map fun p : ℕ × ℕ =>
      (((p.2 : ℤ) + g.adjYOffset) * g.charWidth + (g.xOffset + p.1)).toNat) ↔
      (x + (a : ℤ), y + (b : ℤ)) ∈ g.ink x y := by
    simp only [PropFont.ink, List.mem_map, Prod.exists, Prod.mk.injEq]
    refine exists_congr fun i => exists_congr fun j => and_congr_right fun hij => ?_
    obtain ⟨hlo, hhi⟩ := hg i j hij
    obtain ⟨col, hcol⟩ := Int.eq_ofNat_of_zero_le hlo
    have hbufPos : (((j : ℤ) + g.adjYOffset) * g.charWidth + (g.xOffset + i)).toNat =
        (j + g.adjYOffset) * g.charWidth + col := by
      rw [hcol]
      exact Int.toNat_natCast _
    rw [hbufPos]
    constructor
    · intro heq
      have hmod := congrArg (· % g.charWidth) heq
      rw [Nat.mul_add_mod_of_lt (by omega), Nat.mul_add_mod_of_lt ha] at hmod
      have hrow := Nat.eq_of_mul_eq_mul_right (by omega)
        (show (j + g.adjYOffset) * g.charWidth = b * g.charWidth by omega)
      constructor
      · omega
      · omega
    · rintro ⟨hx, hy⟩
      obtain rfl : col = a := by omega
      obtain rfl : j + g.adjYOffset = b := by omega
      rfl
  have hset := getElem?_foldl_set g.visible (fun p : ℕ × ℕ =>
      (((p.2 : ℤ) + g.adjYOffset) * g.charWidth + (g.xOffset + p.1)).toNat) t.fg
      (l := .replicate (g.charWidth * t.cfont.y_size) t.bg) (by rwa [List.length_replicate])
  refine hset.trans ?_
  rw [List.getElem?_replicate, if_pos hk, ← apply_ite some]
  exact congrArg some (if_congr hpos rfl rfl)

theorem ink_inCell (hg : g.Inside) (hpx : px ∈ g.ink x y) :
    (x ≤ px.1 ∧ px.1 < x + g.charWidth) ∧ y ≤ px.2 ∧ px.2 < y + g.adjYOffset + g.height := by
  obtain ⟨⟨i, j⟩, hij, rfl⟩ := List.mem_map.mp hpx
  obtain ⟨hlo, hhi⟩ := hg i j hij
  obtain ⟨-, hj⟩ := mem_visible hij
  dsimp only
  omega

/-- The line at `y` is all background from column `x` on, as far as column `hi`. -/
def Background (t : Tft) (x y hi : ℤ) (f : Pixel → Color) : Prop :=
  ∀ px, InRows y (y + t.cfont.y_size - 1) px → x ≤ px.1 → px.1 ≤ hi → f px = t.bg

section Background

variable (h : t.Prints) (hbg : t.Background x y hi f) (hpx : px.1 ≤ hi)

include h hbg hpx

theorem overlay_fillRect_bg {alloc : Bool} {width : ℤ} (hx : t.dispWin.x1 ≤ x)
    (hy : t.dispWin.y1 ≤ y) :
    Lib.overlay (t.fillRect alloc x y width t.cfont.y_size t.bg) f px = f px := by
  have hheight := h.height
  apply Lib.overlay_eq_self
  rintro w hw rfl
  obtain ⟨hlo, hhi⟩ := fillRect_inRows hy hw
  rw [fillRect_color hw]
  exact (hbg w.1 ⟨hlo, by omega⟩ (fillRect_column hx hw) hpx).symm

/-- A glyph sent from a buffer. -/
theorem overlay_colorLine {c : UInt8} (hc : t.cfont.find c = some g) (hg : g.Inside) :
    Lib.overlay (sendData x y (x + g.charWidth - 1) (y + t.cfont.y_size - 1) (t.colorLine g)) f px =
      if px ∈ g.ink x y then t.fg else f px := by
  obtain ⟨hfits, hwidth, -⟩ := h.glyph c g hc
  have hheight := h.height
  obtain ⟨px1, px2⟩ := px
  by_cases hcell : (x ≤ px1 ∧ px1 < x + g.charWidth) ∧ y ≤ px2 ∧ px2 < y + t.cfont.y_size
  · obtain ⟨⟨hx, hx'⟩, hy, hy'⟩ := hcell
    obtain ⟨a, ha⟩ := Int.eq_ofNat_of_zero_le (show 0 ≤ px1 - x by omega)
    obtain ⟨b, hb⟩ := Int.eq_ofNat_of_zero_le (show 0 ≤ px2 - y by omega)
    obtain rfl : px1 = x + a := by omega
    obtain rfl : px2 = y + b := by omega
    rw [overlay_sendData (by omega) (by omega) (colorLine_length t g)
      (getElem?_colorLine hg (by omega) (by omega)),
      hbg (x + a, y + b) ⟨hy, by dsimp only; omega⟩ hx hpx]
  · rw [if_neg, Lib.overlay_of_notMem]
    · intro hmem
      obtain ⟨w, hw, heq⟩ := List.mem_map.mp hmem
      have hcolumn := sendData_column (by omega) hw
      obtain ⟨hlo, hhi⟩ := sendData_inRows (by omega) hw
      rw [heq] at hcolumn hlo hhi
      dsimp only at hcolumn hlo hhi
      omega
    · intro hink
      have hin := ink_inCell hg hink
      dsimp only at hin
      omega

end Background

/-- A glyph drawn pixel by pixel. -/
theorem overlay_drawPixels (h : t.Prints) {c : UInt8} (hc : t.cfont.find c = some g)
    (hg : g.Inside) (hx : t.dispWin.x1 ≤ x) (hy : t.dispWin.y1 ≤ y)
    (hy2 : y + t.cfont.y_size - 1 ≤ t.dispWin.y2) (hpx : px.1 ≤ t.dispWin.x2) :
    Lib.overlay (g.visible.flatMap fun (i, j) =>
        t.drawPixel (x + g.xOffset + i) (y + j + g.adjYOffset) t.fg) f px =
      if px ∈ g.ink x y then t.fg else f px := by
  obtain ⟨hfits, -, -⟩ := h.glyph c g hc
  split_ifs with hink
  · refine Lib.overlay_of_forall_eq (fun w hw => ?_) (List.mem_map.mpr ?_) f
    · obtain ⟨⟨i, j⟩, -, hw⟩ := List.mem_flatMap.mp hw
      exact drawPixel_color hw
    · obtain ⟨hcolumn, hrow⟩ := ink_inCell hg hink
      obtain ⟨⟨i, j⟩, hij, rfl⟩ := List.mem_map.mp hink
      dsimp only at hcolumn hrow hpx
      refine ⟨((x + g.xOffset + i, y + j + g.adjYOffset), t.fg),
        List.mem_flatMap.mpr ⟨(i, j), hij, ?_⟩, rfl⟩
      dsimp only
      rw [drawPixel, if_neg (by omega)]
      simp [sendData]
  · apply Lib.overlay_of_notMem
    intro hmem
    obtain ⟨w, hw, rfl⟩ := List.mem_map.mp hmem
    obtain ⟨⟨i, j⟩, hij, hw⟩ := List.mem_flatMap.mp hw
    rw [mem_drawPixel hw] at hink
    exact hink (List.mem_map.mpr ⟨(i, j), hij, rfl⟩)

theorem overlay_printProportionalChar (h : t.Prints) {c : UInt8} (hc : t.cfont.find c = some g)
    (hg : g.Inside) (hx : t.dispWin.x1 ≤ x) (hy : t.dispWin.y1 ≤ y)
    (hy2 : y + t.cfont.y_size - 1 ≤ t.dispWin.y2) (hhi : hi ≤ t.dispWin.x2)
    (hbg : t.Background x y hi f) (hpx : px.1 ≤ hi) :
    Lib.overlay (t.printProportionalChar m g x y) f px =
      if px ∈ g.ink x y then t.fg else f px := by
  simp only [printProportionalChar, h.buffered, h.solid, Bool.not_false, Bool.and_true,
    Bool.true_and, if_true]
  by_cases hbuffer : m 0 = true
  · rw [if_pos hbuffer]
    exact overlay_colorLine h hbg hpx hc hg
  · rw [if_neg hbuffer, Lib.overlay_append, overlay_drawPixels h hc hg hx hy hy2 (by omega),
      overlay_fillRect_bg h hbg hpx hx hy]

end Tft

/-! ### Texts -/

/-- The ink of a text in the line at `y` from column `x` on, up to the first character that
does not fit. -/
def Font.ink (f : Font) (right y : ℤ) : ℤ → List UInt8 → List Pixel
  | _, [] => []
  | x, c :: st =>
      match f.find c with
      | none => f.ink right y x st
      | some g =>
          if x + g.xDelta ≤ right then g.ink x y ++ f.ink right y (x + (g.charWidth + 1)) st
          else []

namespace Font

variable {f : Font} {right x y : ℤ} {c : UInt8} {st : List UInt8} {g : PropFont}

@[simp] theorem ink_nil : f.ink right y x [] = [] := rfl

theorem ink_cons_of_none (hc : f.find c = none) :
    f.ink right y x (c :: st) = f.ink right y x st := by
  rw [ink, hc]

theorem ink_cons_of_some (hc : f.find c = some g) :
    f.ink right y x (c :: st) =
      if x + g.xDelta ≤ right then g.ink x y ++ f.ink right y (x + (g.charWidth + 1)) st
      else [] := by
  rw [ink, hc]

end Font

namespace Tft

variable {t : Tft} {x x' y hi : ℤ} {f f' : Pixel → Color} {px : Pixel}

theorem Background.of_eq (hbg : t.Background x y hi f) (hx : x ≤ x')
    (hf : ∀ px : Pixel, x' ≤ px.1 → px.1 ≤ hi → f' px = f px) : t.Background x' y hi f' :=
  fun px hrows hlo hhi => (hf px hlo hhi).trans (hbg px hrows (by omega) hhi)

theorem printTurn_of_none (h : t.Prints) {c : UInt8 × Malloc} (hc : t.cfont.find c.1 = none)
    (hlf : c.1 ≠ 0x0A) (hx : t.dispWin.x1 ≤ x) (hy : t.dispWin.y1 ≤ y)
    (hbg : t.Background x y hi f) : ∃ out,
      (t.moveTo x y).printTurn c = ⟨t.moveTo x y, out, false⟩ ∧
        ∀ px : Pixel, px.1 ≤ hi → Lib.overlay out f px = f px := by
  obtain ⟨c, m⟩ := c
  by_cases hcr : c = 0x0D
  · subst hcr
    exact ⟨_, printTurn_cr h, fun px hpx => overlay_fillRect_bg h hbg hpx hx hy⟩
  · exact ⟨[], printTurn_none h hcr hlf hc, fun _ _ => rfl⟩

/-- **The ink of a text.** Printed on the background, a text of one line leaves its ink and
nothing else, whichever of its glyphs a buffer can be had for. -/
theorem overlay_printLoop (h : t.Prints) (hfont : ∀ c g, t.cfont.find c = some g → g.Inside)
    {cs : List (UInt8 × Malloc)} (hlf : ∀ c ∈ cs, c.1 ≠ 0x0A) (hx : t.dispWin.x1 ≤ x)
    (hy : t.dispWin.y1 ≤ y) (hy2 : y + t.cfont.y_size - 1 ≤ t.dispWin.y2)
    (hhi : hi ≤ t.dispWin.x2) (hbg : t.Background x y hi f) (hpx : px.1 ≤ hi) :
    Lib.overlay (Lib.outputLoop printTurn (t.moveTo x y) cs).output f px =
      if px ∈ t.cfont.ink t.dispWin.x2 y x (cs.map Prod.fst) then t.fg else f px := by
  induction cs generalizing x f with
  | nil => simp
  | cons c cs ih =>
      have hrest : ∀ c ∈ cs, c.1 ≠ 0x0A := fun c' hc' => hlf c' (List.mem_cons_of_mem _ hc')
      rw [Lib.outputLoop_cons, List.map_cons]
      cases hc : t.cfont.find c.1 with
      | none =>
          obtain ⟨out, hturn, hout⟩ :=
            printTurn_of_none h hc (hlf c List.mem_cons_self) hx hy hbg
          rw [hturn, Lib.Turn.andThen_of_goesOn rfl, Lib.overlay_append,
            Font.ink_cons_of_none hc]
          dsimp only
          rw [ih hrest hx (hbg.of_eq (Int.le_refl x) fun px _ => hout px), hout px hpx]
      | some g =>
          have hglyph (m : Malloc) {px : Pixel} (hpx : px.1 ≤ hi) :=
            overlay_printProportionalChar (m := m) h hc (hfont c.1 g hc) hx hy hy2 hhi hbg hpx
          rw [printTurn_some h hc, Font.ink_cons_of_some hc]
          by_cases hfit : x + g.xDelta ≤ t.dispWin.x2
          · have hbg' : t.Background (x + (g.charWidth + 1)) y hi
                (Lib.overlay (t.printProportionalChar c.2 g x y) f) := by
              refine hbg.of_eq (by omega) fun px hlo hhi => ?_
              rw [hglyph c.2 hhi, if_neg]
              intro hink
              have hin := (ink_inCell (hfont c.1 g hc) hink).1
              omega
            rw [if_pos hfit, if_pos hfit, Lib.Turn.andThen_of_goesOn rfl, Lib.overlay_append]
            dsimp only
            rw [ih hrest (by omega) hbg', hglyph c.2 hpx, ← ite_or]
            exact if_congr (by rw [List.mem_append, or_comm]) rfl rfl
          · rw [if_neg hfit, if_neg hfit, Lib.Turn.andThen_of_breaks rfl]
            simp

/-! ### Columns -/

theorem printProportionalChar_column {g : PropFont} {m : Malloc} {w : PixelWrite} (h : t.Prints)
    {c : UInt8} (hc : t.cfont.find c = some g) (hg : g.Inside) (hx : t.dispWin.x1 ≤ x)
    (hw : w ∈ t.printProportionalChar m g x y) : x ≤ w.1.1 := by
  obtain ⟨-, hwidth, -⟩ := h.glyph c g hc
  simp only [printProportionalChar, h.solid, Bool.not_false, if_true] at hw
  split_ifs at hw
  · exact (sendData_column (by omega) hw).1
  · rcases List.mem_append.mp hw with hw | hw
    · exact fillRect_column hx hw
    · obtain ⟨⟨i, j⟩, hij, hw⟩ := List.mem_flatMap.mp hw
      obtain ⟨hlo, -⟩ := hg i j hij
      rw [mem_drawPixel hw]
      dsimp only
      omega

theorem printLoop_column (h : t.Prints) (hfont : ∀ c g, t.cfont.find c = some g → g.Inside)
    {cs : List (UInt8 × Malloc)} (hlf : ∀ c ∈ cs, c.1 ≠ 0x0A) (hx : t.dispWin.x1 ≤ x) :
    ∀ w ∈ (Lib.outputLoop printTurn (t.moveTo x y) cs).output, x ≤ w.1.1 := by
  refine Lib.outputLoop_forall (I := fun t' => ∃ x', x ≤ x' ∧ t' = t.moveTo x' y) ?_
    ⟨x, Int.le_refl x, rfl⟩
  rintro _ ⟨c, m⟩ hmem ⟨x', hx', rfl⟩
  have hstart : t.dispWin.x1 ≤ x' := Int.le_trans hx hx'
  cases hc : t.cfont.find c with
  | none =>
      by_cases hcr : c = 0x0D
      · subst hcr
        rw [printTurn_cr h]
        exact ⟨fun w hw => Int.le_trans hx' (fillRect_column hstart hw), fun _ => ⟨x', hx', rfl⟩⟩
      · rw [printTurn_none h hcr (hlf _ hmem) hc]
        exact ⟨by simp, fun _ => ⟨x', hx', rfl⟩⟩
  | some g =>
      rw [printTurn_some h hc]
      split_ifs
      · refine ⟨fun w hw => ?_, fun _ => ⟨_, by omega, rfl⟩⟩
        exact Int.le_trans hx' (printProportionalChar_column h hc (hfont c g hc) hstart hw)
      · exact ⟨by simp, by simp⟩

end Tft

/-! ### Rows -/

open Tft

/-- The columns of a band that are filled. -/
def InFill (d : PredefinedDisplay) (px : Pixel) : Prop :=
  staticHeightOffset d + 2 ≤ px.1 ∧ px.1 ≤ staticHeightOffset d + 157

def rowInk (d : PredefinedDisplay) (text : CString) (line : ℕ) : List Pixel :=
  (initTFT d).cfont.ink (initTFT d).dispWin.x2 (rowY line + (initTFT d).dispWin.y1)
    (5 + (initTFT d).dispWin.x1) text.bytes

/-- The colour of the background of a row, and that of its ink. -/
def rowBg (highlight : Bool) : Color := if highlight then .white else .black

def rowFg (highlight : Bool) : Color := if highlight then .black else .white

variable {d : PredefinedDisplay} {text : CString} {line : ℕ} {highlight : Bool} {px : Pixel}

theorem lineFeed_notMem_chars (hlf : 0x0A ∉ text.bytes) (m : ℕ → Malloc) :
    ∀ c ∈ chars m text, c.1 ≠ 0x0A := by
  intro c hc heq
  apply hlf
  rw [← map_fst_chars m, ← heq]
  exact List.mem_map_of_mem hc

/-- On the colour of the row a text of one line leaves its ink. -/
theorem overlay_rowText (hlf : 0x0A ∉ text.bytes) (hone : 1 ≤ line) (hfive : line ≤ 5)
    {f : Pixel → Color}
    (hbg : ∀ px, (initTFT d).InBand line px → InFill d px → f px = rowBg highlight)
    (hpx : px.1 ≤ staticHeightOffset d + 157) (m : ℕ → Malloc) :
    Lib.overlay ((initTFT d).rowText m ⟨text, 5, line, highlight⟩) f px =
      if px ∈ rowInk d text line then rowFg highlight else f px := by
  obtain ⟨-, hx1, hy1, hx2, hy2⟩ := (initTFT_isSetUp d).geometry
  have hheight := (initTFT_isSetUp d).y_size
  have hline := rowY_eq line
  have hbackground : ((initTFT d).setColors highlight).Background (5 + (initTFT d).dispWin.x1)
      (rowY line + (initTFT d).dispWin.y1) (staticHeightOffset d + 157) f := by
    rintro px ⟨hrow, hrow'⟩ hcolumn hcolumn'
    rw [setColors_cfont] at hrow'
    apply hbg
    · rw [(initTFT_isSetUp d).inBand_iff]
      omega
    · exact ⟨by omega, hcolumn'⟩
  have hink := overlay_printLoop ((initTFT_isSetUp d).setColors highlight).prints
    (fun c g hg i j => Font.default_visible hg) (lineFeed_notMem_chars hlf m)
    (by rw [setColors_dispWin]; omega) (by rw [setColors_dispWin]; omega)
    (by rw [setColors_dispWin, setColors_cfont]; omega) (by rw [setColors_dispWin]; omega)
    hbackground hpx
  rw [map_fst_chars] at hink
  exact hink

theorem overlay_band {t : Tft} (h : t.IsSetUp d) (hone : 1 ≤ line) (hfive : line ≤ 5)
    (hband : (initTFT d).InBand line px) (hfill : InFill d px) (color : Color)
    (f : Pixel → Color) :
    Lib.overlay (t.tftFillRect true 2 (rowY line - 3) 156 19 color) f px = color := by
  obtain ⟨-, hx1, -, hx2, hy2⟩ := h.geometry
  obtain ⟨hlo, hhi⟩ := hfill
  rw [← h.inBand_eq, h.inBand_iff] at hband
  have hline := rowY_eq line
  obtain ⟨v, hv, hvpx⟩ : ∃ v ∈ t.fillRect true (2 + t.dispWin.x1) (rowY line - 3 + t.dispWin.y1)
      156 19 color, v.1 = px :=
    exists_mem_fillRect (by omega) (by omega) (by omega) (by omega)
  exact Lib.overlay_of_forall_eq (fun v => fillRect_color) (List.mem_map.mpr ⟨v, hv, hvpx⟩) f

/-- Where a band is filled, a call leaves the ink of its text on the colour of the row,
whatever was there. -/
theorem Panel.dispWrite_ink {p : Panel} (h : p.tft.IsSetUp d) {w : DispWrite} (hw : MenuRow w)
    (hlf : 0x0A ∉ w.distring.bytes) {m : RowMalloc} (hm : m.band = true)
    (hband : (initTFT d).InBand w.line px) (hfill : InFill d px) :
    (p.dispWrite m w).pixels px =
      if px ∈ rowInk d w.distring w.line then rowFg w.highlight else rowBg w.highlight := by
  obtain ⟨text, x, line, highlight⟩ := w
  obtain ⟨rfl, hone, hfive⟩ := id hw
  show Lib.overlay (p.tft.dispWrite m _).2 p.pixels px = _
  rw [h.dispWrite_output hw, Lib.overlay_append, h.rowText_eq, hm,
    overlay_rowText hlf hone hfive (fun px hband hfill => ?_) hfill.2]
  · dsimp only
    rw [overlay_band h hone hfive hband hfill]
    rfl
  · exact overlay_band h hone hfive hband hfill _ _

theorem Panel.dispWrite_pixels_of_left {p : Panel} (h : p.tft.IsSetUp d) {w : DispWrite}
    (hw : MenuRow w) (hlf : 0x0A ∉ w.distring.bytes) (m : RowMalloc)
    (hpx : px.1 < staticHeightOffset d + 2) : (p.dispWrite m w).pixels px = p.pixels px := by
  obtain ⟨-, hx1, -, -, -⟩ := h.geometry
  have hx := hw.x
  apply Lib.overlay_of_notMem
  intro hmem
  obtain ⟨v, hv, rfl⟩ := List.mem_map.mp hmem
  rw [h.dispWrite_output hw] at hv
  rcases List.mem_append.mp hv with hv | hv
  · have hcolumn := fillRect_column (by omega) hv
    omega
  · have hcolumn := printLoop_column (h.setColors w.highlight).prints
      (fun c g hg i j => Font.default_visible (by rwa [setColors_cfont, h.cfont] at hg))
      (lineFeed_notMem_chars hlf m.char) (by rw [setColors_dispWin]; omega) v hv
    omega

end AndonConsole
