import AndonConsole.Console

/-!
The screen is a function of the menu state.

At every poll of a menu the screen shows what this menu writes on a blank
screen, with one row highlighted. Most moves clear the screen before they show
the next menu. Two do not: `app_main` shows the main menu over itself, which
changes nothing, and `settings` is shown over the department menu, whose rows
are all among the five that `showSettings` writes.
-/

namespace AndonConsole

/-! ### Every menu writes a page -/

theorem showSettings_isPage (item : ℤ) : IsPage (showSettings item) := by
  rw [showSettings]
  split_ifs
  all_goals exact ⟨by simp [literal], [_, _, _, _], _, rfl, rfl, by simp [literal]⟩

theorem subset_showSettings_line (item : ℤ) :
    [1, 2, 3, 4] ⊆ (showSettings item).map DispWrite.line := by
  rw [showSettings]
  split_ifs
  all_goals simp [literal]

theorem showMainMenu_isPage (calls : Calls) : IsPage (showMainMenu calls) := by
  rw [showMainMenu]
  split_ifs
  · exact ⟨by simp [literal], [_], _, rfl, rfl, by simp [literal]⟩
  · refine ⟨?_, _, _, rfl, rfl, ?_⟩
    · simp only [mainMenuRow]
      cases (calls 0).mancalldesc <;> cases (calls 1).mancalldesc <;>
        cases (calls 2).mancalldesc <;> simp [literal]
    · intro v hv
      simp only [mainMenuRow, List.mem_append] at hv
      obtain (hv | hv) | hv := hv
      all_goals
        split at hv
        · simp at hv
        · rw [List.mem_singleton.mp hv]

theorem drawTexts_isPage (before : List (Option CString × ℕ × Bool))
    {p : Option CString × ℕ × Bool} {ws : List DispWrite}
    (h : drawTexts (before ++ [p]) = .ok ws)
    (hnodup : ((before ++ [p]).map fun p => p.2.1).Nodup)
    (hbefore : ∀ p ∈ before, p.2.2 = false) (hp : p.2.2 = true) : IsPage ws := by
  rw [drawTexts, Lib.mapM_eq_ok_iff] at h
  apply IsPage.of_forall₂ _ hnodup hbefore hp
  exact h.imp fun p w hrow => (dispWrite_eq_ok.mp hrow).2.2

theorem showSetCalls_isPage {calls : Calls} {item : ℤ} {ws : List DispWrite}
    (h : showSetCalls calls item = .ok ws) : IsPage ws := by
  rw [showSetCalls] at h
  split_ifs at h
  all_goals exact drawTexts_isPage [_, _, _] h (by simp) (by simp) rfl

theorem Menu.shows_isPage {T : Tables} {w : World} {menu : Menu} (hmenu : menu ≠ .appMain)
    {ws : List DispWrite} (h : menu.shows T w = .ok ws) : IsPage ws := by
  cases menu with
  | appMain => exact absurd rfl hmenu
  | mainMenu t =>
      cases h
      exact showMainMenu_isPage _
  | settings t item =>
      cases h
      exact showSettings_isPage item
  | setCalls t s item => exact showSetCalls_isPage h
  | chooseCalls t s k i item => exact (showRecords_isPage h).1
  | setDepartment t s item => exact (showRecords_isPage h).1

theorem Menu.shows_congr {T : Tables} {w w' : World} (hw : w'.toStore = w.toStore)
    (menu : Menu) : menu.shows T w' = menu.shows T w := by
  cases menu <;> simp [Menu.shows, hw]

/-! ### The invariant -/

/-- The screen shows the menu and nothing else. -/
def Shows (T : Tables) (menu : Menu) (w : World) : Prop :=
  ∃ ws, menu.shows T w = .ok ws ∧ w.screen = Screen.blank.draw ws

/-- At a poll the screen shows the menu; while the department is being saved it
has at most the first four rows written. -/
def ScreenInv (T : Tables) (c : Console) : Prop :=
  match c.control with
  | .polling menu => menu ≠ .appMain → Shows T menu c.world
  | .savingCall _ _ _ _ _ => True
  | .savingDept _ _ _ => ∃ ws : List DispWrite,
      ws.map DispWrite.line ⊆ [1, 2, 3, 4] ∧ c.world.screen = Screen.blank.draw ws

section ScreenInv

variable {T : Tables} {ans : Answers → Prop} {a : Answers} {w : World} {menu : Menu}
  {c c' : Console}

theorem screenInv_of_enter (hblank : w.screen = .blank) (h : enter T menu w = .ok c) :
    ScreenInv T c := by
  obtain ⟨ws, hws, rfl⟩ := enter_eq_ok.mp h
  intro _
  refine ⟨ws, ?_, by simp [hblank]⟩
  rw [Menu.shows_congr (w.draw_toStore ws), hws]

theorem screenInv_of_enter_over {ws₀ ws : List DispWrite}
    (hscreen : w.screen = Screen.blank.draw ws₀) (hws : menu.shows T w = .ok ws)
    (hsub : ws₀.map DispWrite.line ⊆ ws.map DispWrite.line)
    (h : enter T menu w = .ok c) : ScreenInv T c := by
  obtain ⟨ws', hws', rfl⟩ := enter_eq_ok.mp h
  rw [hws, Except.ok.injEq] at hws'
  subst hws'
  intro _
  refine ⟨ws, ?_, ?_⟩
  · rw [Menu.shows_congr (w.draw_toStore ws), hws]
  · rw [World.draw_screen, hscreen, Screen.draw_draw_of_subset hsub]

theorem screenInv_of_enter_settings {ws : List DispWrite} {t : ℕ} {s : ℤ}
    (hlines : ws.map DispWrite.line ⊆ [1, 2, 3, 4]) (hscreen : w.screen = Screen.blank.draw ws)
    (h : enter T (.settings t s) w = .ok c) : ScreenInv T c :=
  screenInv_of_enter_over hscreen rfl (List.Subset.trans hlines (subset_showSettings_line s)) h

theorem Shows.dept_line {t : ℕ} {s item : ℤ} (h : Shows T (.setDepartment t s item) w) :
    ∃ ws : List DispWrite,
      ws.map DispWrite.line ⊆ [1, 2, 3, 4] ∧ w.screen = Screen.blank.draw ws := by
  obtain ⟨ws, hws, hscreen⟩ := h
  exact ⟨ws, (showRecords_isPage hws).2, hscreen⟩

theorem Transition.screenInv (hinv : ScreenInv T ⟨.polling menu, w⟩)
    (h : Transition T a w menu c) : ScreenInv T c := by
  cases h with
  | stay => exact hinv
  | shown h => exact screenInv_of_enter rfl h
  | @redraw t _ h =>
      -- the same rows once more
      obtain ⟨ws, hws, hscreen⟩ := hinv (by simp)
      have hnext : (Menu.mainMenu (t + 1)).shows T w = .ok ws := hws
      exact screenInv_of_enter_over hscreen hnext (List.Subset.refl _) h
  | sleep _ => exact fun h => absurd rfl h
  | confirmCall _ _ => trivial
  | confirmDept h =>
      -- OK in `setDepartment` does not clear the screen
      obtain ⟨ws, hlines, hscreen⟩ := (hinv (by simp)).dept_line
      obtain ⟨d, rfl⟩ := setDepartmentConfirm_frame h
      exact ⟨ws, hlines, hscreen⟩
  | back h =>
      obtain ⟨ws, hlines, hscreen⟩ := (hinv (by simp)).dept_line
      exact screenInv_of_enter_settings hlines hscreen h

theorem Step.screenInv {e : Event} (hinv : ScreenInv T c) (h : Step T ans c e c') :
    ScreenInv T c' := by
  cases h with
  | poll _ h => exact (poll_transition h).screenInv hinv
  | saveCall _ _ h => exact screenInv_of_enter (chooseCallsLeave_screen _ _ _) h
  | saveDept _ h =>
      obtain ⟨ws, hlines, hscreen⟩ := hinv
      exact screenInv_of_enter_settings hlines
        ((setDepartmentLeave_screen _ _ _).trans hscreen) h
  | powerCycle _ _ => exact fun h => absurd rfl h

end ScreenInv

/-- **No leftovers.** From a console whose display is off, whatever the
configuration and the old content of the screen: at every poll of every menu
the screen is what this menu shows on a blank one, with one row highlighted. -/
theorem screen_eq_shows (T : Tables) (ans : Answers → Prop) (w₀ : World) {es : List Event}
    {menu : Menu} {w : World} (hmenu : menu ≠ .appMain)
    (hrun : Lib.Run (Step T ans) ⟨.polling .appMain, w₀⟩ es ⟨.polling menu, w⟩) :
    (∃ ws, menu.shows T w = .ok ws ∧ w.screen = Screen.blank.draw ws) ∧
      w.screen.OneHighlight := by
  have hstart : ScreenInv T ⟨.polling .appMain, w₀⟩ := fun h => absurd rfl h
  have hinv : ScreenInv T ⟨.polling menu, w⟩ :=
    hrun.invariant (I := fun _ c => ScreenInv T c) hstart
      fun _ _ _ _ hinv hstep => hstep.screenInv hinv
  obtain ⟨ws, hws, hscreen⟩ := hinv hmenu
  refine ⟨⟨ws, hws, hscreen⟩, ?_⟩
  rw [hscreen]
  exact (Menu.shows_isPage hmenu hws).oneHighlight

/-- The second department is chosen, and `settings` is shown over its menu. -/
theorem screen_eq_shows_demo :
    ∃ w, w.department = ⟨some (.ofString "Department 2"), some (.ofString "2")⟩ ∧
      (∃ ws, (Menu.settings 0 3).shows demoTables w = .ok ws ∧
        w.screen = Screen.blank.draw ws) ∧ w.screen.OneHighlight := by
  obtain ⟨es, w, hrun, hdept⟩ : ∃ es w,
      Lib.Run (Step demoTables fun _ => True)
        ⟨.polling .appMain, World.unset⟩ es
        ⟨.polling (.settings 0 3), w⟩ ∧
      w.department = ⟨some (.ofString "Department 2"), some (.ofString "2")⟩ :=
    ⟨_, _, Console.run_of_follow [.ok, .ok, .down, .down, .ok, .down, .ok, .none]
      (a := .ok) trivial rfl, rfl⟩
  exact ⟨w, hdept, screen_eq_shows demoTables _ _ (by simp) hrun⟩

end AndonConsole
