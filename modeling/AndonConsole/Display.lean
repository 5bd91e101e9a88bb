import AndonConsole.Records
import AndonConsole.Lib.Overlay
import AndonConsole.Lib.Except

/-!
The display by rows.

`disp_write` fills the band of a row and prints the text in it, so on the
level of rows a call replaces one row by its text and highlight, and
`disp_cls` blanks all of them. The functions that show a menu are the lists
of the calls they make, in the order of the source, which draws the
highlighted row last.
-/

namespace AndonConsole

/-- The arguments of one `disp_write` call whose text is not NULL. -/
structure DispWrite where
  distring : CString
  x : ℤ
  line : ℕ
  highlight : Bool
  deriving DecidableEq

/-- A row is blank or shows a text, highlighted or not. -/
abbrev Row := Option (CString × Bool)

/-- The rows by their line number; the menus use the lines 1 to 5. -/
abbrev Screen := ℕ → Row

/-- The screen after `disp_cls`. -/
def Screen.blank : Screen := fun _ => none

def DispWrite.cell (w : DispWrite) : ℕ × Row := (w.line, some (w.distring, w.highlight))

def Screen.draw (s : Screen) (ws : List DispWrite) : Screen :=
  Lib.overlay (ws.map DispWrite.cell) s

/-- `disp_write(distring, x, line, highlight)`: `TFT_print` takes the length of
the text, so a NULL text faults. -/
def dispWrite (distring : Option CString) (x : ℤ) (line : ℕ) (highlight : Bool) :
    Exec DispWrite := do
  let distring ← deref distring
  return { distring, x, line, highlight }

@[simp] theorem dispWrite_some (s : CString) (x : ℤ) (line : ℕ) (highlight : Bool) :
    dispWrite (some s) x line highlight = .ok ⟨s, x, line, highlight⟩ := rfl

theorem dispWrite_eq_ok {p : Option CString} {x : ℤ} {line : ℕ} {highlight : Bool}
    {w : DispWrite} :
    dispWrite p x line highlight = .ok w ↔
      p = some w.distring ∧ w.x = x ∧ w.line = line ∧ w.highlight = highlight := by
  cases p with
  | none => simp [dispWrite, bind, Except.bind]
  | some s =>
      rw [dispWrite_some, Except.ok.injEq]
      obtain ⟨s', x', line', highlight'⟩ := w
      simp only [DispWrite.mk.injEq, Option.some.injEq]
      tauto

def literal (s : String) (line : ℕ) (highlight : Bool) : DispWrite :=
  ⟨.ofString s, 5, line, highlight⟩

namespace Screen

theorem map_fst_cell (ws : List DispWrite) :
    (ws.map DispWrite.cell).map Prod.fst = ws.map DispWrite.line := by
  simp [DispWrite.cell]

theorem draw_singleton_self (s : Screen) (w : DispWrite) :
    s.draw [w] w.line = some (w.distring, w.highlight) := Function.update_self ..

theorem draw_singleton_of_ne (s : Screen) {w : DispWrite} {line : ℕ}
    (hne : line ≠ w.line) : s.draw [w] line = s line := Function.update_of_ne hne ..

theorem draw_draw_of_subset {ws ws' : List DispWrite}
    (hsub : ws.map DispWrite.line ⊆ ws'.map DispWrite.line) (s : Screen) :
    (s.draw ws).draw ws' = s.draw ws' :=
  Lib.overlay_overlay_of_subset (by rwa [map_fst_cell, map_fst_cell]) s

def Highlights (s : Screen) (text : CString) : Prop :=
  ∃ line, s line = some (text, true) ∧
    ∀ line' text', s line' = some (text', true) → line' = line

def OneHighlight (s : Screen) : Prop :=
  ∃! line, ∃ text, s line = some (text, true)

theorem Highlights.oneHighlight {s : Screen} {text : CString} (h : s.Highlights text) :
    s.OneHighlight := by
  obtain ⟨line, hline, huniq⟩ := h
  exact ⟨line, ⟨text, hline⟩, fun line' ⟨text', h'⟩ => huniq line' text' h'⟩

end Screen

/-- The writes of a page: no row twice, and the one that is highlighted last. -/
structure IsPage (ws : List DispWrite) : Prop where
  nodup : (ws.map DispWrite.line).Nodup
  last : ∃ before w, ws = before ++ [w] ∧ w.highlight = true ∧
    ∀ v ∈ before, v.highlight = false

/-- Writes made one for one from a list that names every row once and highlights
its last are a page. -/
theorem IsPage.of_forall₂ {α : Type} {line : α → ℕ} {highlight : α → Bool}
    {before : List α} {a : α} {ws : List DispWrite}
    (h : List.Forall₂ (fun p (w : DispWrite) => w.line = line p ∧ w.highlight = highlight p)
      (before ++ [a]) ws)
    (hnodup : ((before ++ [a]).map line).Nodup)
    (hbefore : ∀ p ∈ before, highlight p = false) (ha : highlight a = true) : IsPage ws where
  nodup := by rwa [Lib.map_of_forall₂ (fun _ _ hrow => hrow.1) h]
  last := by
    obtain ⟨ws', w, rfl, hws', hw⟩ := Lib.forall₂_snoc_left h
    have hhigh : ws'.map DispWrite.highlight = before.map highlight :=
      Lib.map_of_forall₂ (fun _ _ hrow => hrow.2) hws'
    refine ⟨ws', w, rfl, hw.2.trans ha, fun v hv => ?_⟩
    obtain ⟨p, hp, hpv⟩ := List.mem_map.mp (hhigh ▸ List.mem_map_of_mem hv)
    rw [← hpv, hbefore p hp]

/-- On a blank screen the rows of a page are exactly its writes. -/
theorem Screen.draw_blank_eq_some_iff {ws : List DispWrite}
    (hnodup : (ws.map DispWrite.line).Nodup) {line : ℕ} {text : CString} {h : Bool} :
    Screen.blank.draw ws line = some (text, h) ↔
      ∃ w ∈ ws, w.line = line ∧ w.distring = text ∧ w.highlight = h := by
  rw [← map_fst_cell] at hnodup
  constructor
  · intro hrow
    have hmem := Lib.mem_of_overlay_ne hnodup (k := line) (c := (none : Row)) (by
      change Screen.blank.draw ws line ≠ none
      simp [hrow])
    obtain ⟨w, hw, hcell⟩ := List.mem_map.mp hmem
    rw [show Lib.overlay (ws.map DispWrite.cell) (fun _ => none) line =
      some (text, h) from hrow] at hcell
    simp only [DispWrite.cell, Prod.mk.injEq, Option.some.injEq] at hcell
    exact ⟨w, hw, hcell.1, hcell.2.1, hcell.2.2⟩
  · rintro ⟨w, hw, rfl, rfl, rfl⟩
    exact Lib.overlay_of_mem hnodup (List.mem_map_of_mem hw) _

/-- The highlighted write of a page is the highlighted row of the screen. -/
theorem IsPage.highlights {ws : List DispWrite} (hpage : IsPage ws) {w : DispWrite}
    (hw : w ∈ ws) (hhigh : w.highlight = true) :
    (Screen.blank.draw ws).Highlights w.distring := by
  obtain ⟨before, l, hws, -, hbefore⟩ := hpage.last
  have hlast (v : DispWrite) (hv : v ∈ ws) (hvhigh : v.highlight = true) : v = l := by
    rw [hws, List.mem_append, List.mem_singleton] at hv
    rcases hv with hv | hv
    · rw [hbefore v hv] at hvhigh
      cases hvhigh
    · exact hv
  refine ⟨w.line, (Screen.draw_blank_eq_some_iff hpage.nodup).mpr ⟨w, hw, rfl, rfl, hhigh⟩, ?_⟩
  intro line' text' hrow
  obtain ⟨v, hv, rfl, -, hvhigh⟩ := (Screen.draw_blank_eq_some_iff hpage.nodup).mp hrow
  rw [hlast v hv hvhigh, hlast w hw hhigh]

theorem IsPage.oneHighlight {ws : List DispWrite} (hpage : IsPage ws) :
    (Screen.blank.draw ws).OneHighlight := by
  obtain ⟨before, w, hws, hhigh, -⟩ := hpage.last
  exact (hpage.highlights (by simp [hws]) hhigh).oneHighlight

end AndonConsole
