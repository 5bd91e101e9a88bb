import AndonConsole.Panels
import AndonConsole.Screens

/-!
What the menus draw on.

`disp_cls` makes the panel black, and after it every menu writes in the rows 1
to 5 and nowhere else.
-/

namespace AndonConsole

open Tft

/-! ### The blank screen -/

namespace Panel

theorem dispCls_pixels {d : PredefinedDisplay} {p : Panel} (h : p.tft.IsSetUp d) {x y : ℤ}
    (hx : p.tft.dispWin.x1 ≤ x ∧ x ≤ p.tft.dispWin.x2)
    (hy : p.tft.dispWin.y1 ≤ y ∧ y ≤ p.tft.dispWin.y2) :
    (p.dispCls d true).pixels (x, y) = .black := by
  obtain ⟨tft, pixels⟩ := p
  obtain ⟨x', y', fg, bg, rfl⟩ := h
  have hlen : ((128 + staticWidthOffset d - 1 - staticWidthOffset d + 1) *
      (160 + staticHeightOffset d - 1 - staticHeightOffset d + 1)).toNat =
      (List.replicate (128 * 160) Color.black).length := by
    rw [List.length_replicate]
    omega
  obtain ⟨v, hv, hvpx⟩ := exists_mem_sendData hx hy hlen
  apply Lib.overlay_of_forall_eq fun v => tftPushColorRep_color
  rw [tftPushColorRep_alloc]
  exact List.mem_map.mpr ⟨v, hv, hvpx⟩

end Panel

/-! ### The menus -/

theorem menuRow_of_subset {ws : List DispWrite} (hx : ws.map DispWrite.x ⊆ [5])
    (hline : ws.map DispWrite.line ⊆ [1, 2, 3, 4, 5]) : ∀ w ∈ ws, MenuRow w := by
  intro w hw
  have hx' := hx (List.mem_map_of_mem hw)
  have hline' := hline (List.mem_map_of_mem hw)
  simp only [List.mem_cons, List.not_mem_nil, or_false] at hx' hline'
  exact ⟨hx', by omega, by omega⟩

theorem drawTexts_menuRow {rows : List (Option CString × ℕ × Bool)} {ws : List DispWrite}
    (h : drawTexts rows = .ok ws) (hline : (rows.map fun p => p.2.1) ⊆ [1, 2, 3, 4, 5]) :
    ∀ w ∈ ws, MenuRow w := by
  rw [drawTexts, Lib.mapM_eq_ok_iff] at h
  have hall := h.imp fun p w hrow => (dispWrite_eq_ok.mp hrow).2
  apply menuRow_of_subset
  · rw [Lib.map_of_forall₂ (f := fun _ => (5 : ℤ)) (fun _ _ hrow => hrow.1) hall, List.map_const']
    exact List.replicate_subset_singleton _ 5
  · rw [Lib.map_of_forall₂ (fun _ _ hrow => hrow.2.1) hall]
    exact hline

theorem showRecords_menuRow {α : Type} {title : String} {records : List α}
    {text : α → Option CString} {m : ℤ} {ws : List DispWrite}
    (h : showRecords title records text m = .ok ws) : ∀ w ∈ ws, MenuRow w := by
  apply menuRow_of_subset
  · cases records with
    | nil =>
        rw [showRecords_nil, Except.ok.injEq] at h
        subst h
        simp [literal]
    | cons r rs =>
        rw [showRecords_eq_ok_iff (by simp)] at h
        rw [Lib.map_of_forall₂ (f := fun _ => (5 : ℤ)) (fun _ _ hrow => hrow.2.1) h,
          List.map_const']
        exact List.replicate_subset_singleton _ 5
  · exact List.Subset.trans (showRecords_isPage h).2 (by simp)

theorem Menu.shows_menuRow {T : Tables} {w : World} {menu : Menu} {ws : List DispWrite}
    (h : menu.shows T w = .ok ws) : ∀ v ∈ ws, MenuRow v := by
  cases menu with
  | appMain =>
      cases h
      simp
  | mainMenu t =>
      cases h
      apply menuRow_of_subset
      all_goals
        rw [showMainMenu]
        split_ifs
        · simp [literal]
        · simp only [mainMenuRow]
          cases (w.calls 0).mancalldesc <;> cases (w.calls 1).mancalldesc <;>
            cases (w.calls 2).mancalldesc <;> simp [literal]
  | settings t item =>
      cases h
      apply menuRow_of_subset
      all_goals
        rw [showSettings]
        split_ifs
        all_goals simp [literal]
  | setCalls t s item =>
      rw [Menu.shows, showSetCalls] at h
      split_ifs at h
      all_goals exact drawTexts_menuRow h (by simp)
  | chooseCalls t s k i item => exact showRecords_menuRow h
  | setDepartment t s item => exact showRecords_menuRow h

end AndonConsole
