import AndonConsole.Console

/-!
The calls of `disp_cls` and `disp_write`.

`poll` keeps of the display only the rows it shows in the end. Here are the
calls that are made on the way, in order, for every step of the console; on the
rows they do what the step does.
-/

namespace AndonConsole

inductive DispCall
  | cls
  | write (w : DispWrite)

def Screen.call (s : Screen) : DispCall → Screen
  | .cls => .blank
  | .write w => s.draw [w]

def Screen.calls (s : Screen) (cs : List DispCall) : Screen := cs.foldl Screen.call s

theorem Screen.calls_write (s : Screen) (ws : List DispWrite) :
    s.calls (ws.map .write) = s.draw ws := by
  induction ws generalizing s with
  | nil => rfl
  | cons w ws ih => exact ih (s.draw [w])

/-! ### The calls of a step -/

def writes (T : Tables) (menu : Menu) (w : World) : Exec (List DispCall) := do
  let ws ← menu.shows T w
  return ws.map .write

def clsWrites (T : Tables) (menu : Menu) (w : World) : Exec (List DispCall) := do
  let cs ← writes T menu w
  return .cls :: cs

def afterMainMenuCalls (T : Tables) (t : ℕ) (w : World) : Exec (List DispCall) :=
  if t + 1 < 15 then writes T (.mainMenu (t + 1)) w else return []

def settingsSelectCalls (T : Tables) (a : Answers) (t : ℕ) (menu_item : ℤ) (w : World) :
    Exec (List DispCall) :=
  if menu_item = 1 then return []
  else if menu_item = 2 then clsWrites T (.setCalls t menu_item 1) w
  else if menu_item = 3 then clsWrites T (.setDepartment t menu_item 1) w
  else if menu_item = 4 then do
    let st ← resetAll a.malloc a.callMallocs a.saveCalls a.saveDepts w.toStore
    clsWrites T (.settings t menu_item) { w with toStore := st }
  else do
    let cs ← afterMainMenuCalls T t w
    return .cls :: cs

def setCallsSelectCalls (T : Tables) (t : ℕ) (s menu_item : ℤ) (w : World) :
    Exec (List DispCall) :=
  if menu_item = 1 then clsWrites T (.chooseCalls t s menu_item 0 1) w
  else if menu_item = 2 then clsWrites T (.chooseCalls t s menu_item 1 1) w
  else if menu_item = 3 then clsWrites T (.chooseCalls t s menu_item 2 1) w
  else clsWrites T (.settings t s) w

/-- The calls of a menu that moves its cursor to `moved` on UP and DOWN, and does `select`
on OK. -/
def menuPollCalls (T : Tables) (moved : Menu) (select : Exec (List DispCall)) (w : World) :
    Button → Exec (List DispCall)
  | .none => return []
  | .ok => select
  | _ => clsWrites T moved w

/-- The calls from a poll that reads `b` to the next place. -/
def pollCalls (T : Tables) (a : Answers) (b : Button) (w : World) : Menu → Exec (List DispCall)
  | .appMain => if b = .ok then clsWrites T (.mainMenu 0) w else return []
  | .mainMenu t => if b = .ok then clsWrites T (.settings t 1) w else afterMainMenuCalls T t w
  | .settings t menu_item =>
      menuPollCalls T (.settings t (wrapMove 5 b menu_item))
        (settingsSelectCalls T a t menu_item w) w b
  | .setCalls t s menu_item =>
      menuPollCalls T (.setCalls t s (wrapMove 4 b menu_item))
        (setCallsSelectCalls T t s menu_item w) w b
  | .chooseCalls t s k callIndex menu_item =>
      menuPollCalls T
        (.chooseCalls t s k callIndex (chooseCallsMove T.callRecords.length b menu_item))
        -- with a record the save comes first
        (if T.callRecords.length ≠ 0 then return [] else clsWrites T (.setCalls t s k) w) w b
  | .setDepartment t s menu_item =>
      menuPollCalls T (.setDepartment t s (setDepartmentMove T.deptRecords.length b menu_item))
        (if T.deptRecords.length ≠ 0 then return [] else writes T (.settings t s) w) w b

def Console.nextCalls (T : Tables) (a : Answers) (b : Button) : Console → Exec (List DispCall)
  | ⟨.polling menu, w⟩ => pollCalls T a b w menu
  | ⟨.savingCall t s k _ _, w⟩ => clsWrites T (.setCalls t s k) w
  | ⟨.savingDept t s _, w⟩ => writes T (.settings t s) w

/-! ### What they do to the rows -/

section Calls

variable {T : Tables} {a : Answers} {b : Button} {w : World} {menu : Menu} {c c' : Console}

/-- The calls are made, leave on the rows what the step leaves, and write rows of menus. -/
def Yields (T : Tables) (w : World) (calls : Exec (List DispCall)) (s s' : Screen) : Prop :=
  ∃ cs, calls = .ok cs ∧ s' = s.calls cs ∧ ∀ v, .write v ∈ cs →
    ∃ (menu : Menu) (ws : List DispWrite), menu.shows T w = .ok ws ∧ v ∈ ws

theorem yields_nil (s : Screen) : Yields T w (return []) s s := ⟨[], rfl, rfl, by simp⟩

theorem Yields.cls {cs : List DispCall} {s' : Screen} (h : Yields T w (.ok cs) .blank s')
    (s : Screen) : Yields T w (.ok (.cls :: cs)) s s' := by
  obtain ⟨cs', hcs, hscreen, hrows⟩ := h
  cases hcs
  exact ⟨.cls :: cs, rfl, hscreen, by simpa using hrows⟩

theorem Menu.shows_congr_calls {w w' : World} (hcalls : w'.calls = w.calls) (menu : Menu) :
    menu.shows T w' = menu.shows T w := by
  cases menu <;> simp [Menu.shows, hcalls]

theorem yields_writes {w' : World} (h : enter T menu w' = .ok c) (hcalls : w'.calls = w.calls) :
    Yields T w (writes T menu w) w'.screen c.world.screen := by
  obtain ⟨ws, hws, rfl⟩ := enter_eq_ok.mp h
  rw [Menu.shows_congr_calls hcalls] at hws
  refine ⟨ws.map .write, ?_, (Screen.calls_write w'.screen ws).symm, fun v hv => ?_⟩
  · rw [writes, hws]
    rfl
  · exact ⟨menu, ws, hws, by simpa using hv⟩

theorem yields_clsWrites {w' : World} (h : enter T menu w' = .ok c) (hcalls : w'.calls = w.calls)
    (hblank : w'.screen = .blank) (s : Screen) :
    Yields T w (clsWrites T menu w) s c.world.screen := by
  have hyields := yields_writes h hcalls
  obtain ⟨cs, hcs, -⟩ := id hyields
  rw [hblank, hcs] at hyields
  rw [clsWrites, hcs]
  exact hyields.cls s

theorem yields_afterMainMenu {t : ℕ} {w' : World} (h : afterMainMenu T t w' = .ok c)
    (hcalls : w'.calls = w.calls) :
    Yields T w (afterMainMenuCalls T t w) w'.screen c.world.screen := by
  rw [afterMainMenu] at h
  rw [afterMainMenuCalls]
  split_ifs at h ⊢
  · exact yields_writes h hcalls
  · cases h
    exact yields_nil w'.screen

theorem yields_settingsSelect {t : ℕ} {item : ℤ} (h : settingsSelect T a t item w = .ok c) :
    Yields T w (settingsSelectCalls T a t item w) w.screen c.world.screen := by
  rw [settingsSelect] at h
  rw [settingsSelectCalls]
  split_ifs at h ⊢
  · cases h
    exact yields_nil w.screen
  · exact yields_clsWrites h rfl rfl w.screen
  · exact yields_clsWrites h rfl rfl w.screen
  · rw [resetAll_eq] at h
    cases h
  · have hyields := yields_afterMainMenu (w := w) h rfl
    obtain ⟨cs, hcs, -⟩ := id hyields
    rw [hcs] at hyields ⊢
    exact hyields.cls w.screen

theorem yields_setCallsSelect {t : ℕ} {s item : ℤ} (h : setCallsSelect T t s item w = .ok c) :
    Yields T w (setCallsSelectCalls T t s item w) w.screen c.world.screen := by
  rw [setCallsSelect] at h
  rw [setCallsSelectCalls]
  split_ifs at h ⊢
  all_goals exact yields_clsWrites h rfl rfl w.screen

theorem yields_menuPoll {shows : ℤ → Exec (List DispWrite)} {move : Button → ℤ → ℤ}
    {confirm : World → ℤ → Exec World} {item : ℤ} {r : (World × ℤ) ⊕ (World × ℤ)} (moved : Menu)
    (select : Exec (List DispCall)) (hmoved : moved.shows T w = shows (move b item))
    (h : menuPoll shows move confirm (w, item) b = .ok r) :
    (∃ w' item', r = .inl (w', item') ∧
      Yields T w (menuPollCalls T moved select w b) w.screen w'.screen) ∨
    b = .ok ∧ ∃ w', confirm w item = .ok w' ∧ r = .inr (w', item) := by
  cases b with
  | none =>
      cases h
      exact .inl ⟨w, item, rfl, yields_nil w.screen⟩
  | ok =>
      obtain ⟨w', hw', h⟩ := Lib.bind_eq_ok.mp h
      cases h
      exact .inr ⟨rfl, w', hw', rfl⟩
  | up | down =>
      obtain ⟨ws, hws, h⟩ := Lib.bind_eq_ok.mp h
      cases h
      rw [← hmoved] at hws
      have henter : enter T moved w.cls = .ok ⟨.polling moved, w.cls.draw ws⟩ :=
        enter_eq_ok.mpr ⟨ws, hws, rfl⟩
      exact .inl ⟨_, _, rfl, yields_clsWrites henter rfl rfl w.screen⟩

theorem yields_poll (h : poll T a b w menu = .ok c) :
    Yields T w (pollCalls T a b w menu) w.screen c.world.screen := by
  cases menu with
  | appMain =>
      rw [poll] at h
      rw [pollCalls]
      split_ifs at h ⊢
      · exact yields_clsWrites h rfl rfl w.screen
      · cases h
        exact yields_nil w.screen
  | mainMenu t =>
      rw [poll] at h
      rw [pollCalls]
      split_ifs at h ⊢
      · exact yields_clsWrites h rfl rfl w.screen
      · exact yields_afterMainMenu h rfl
  | settings t item =>
      rw [poll, Lib.bind_eq_ok] at h
      obtain ⟨r, hr, h⟩ := h
      obtain ⟨w', item', rfl, hcalls⟩ | ⟨rfl, w', hw', rfl⟩ :=
        yields_menuPoll (.settings t (wrapMove 5 b item))
          (settingsSelectCalls T a t item w) rfl hr
      · cases h
        exact hcalls
      · cases hw'
        exact yields_settingsSelect h
  | setCalls t s item =>
      rw [poll, Lib.bind_eq_ok] at h
      obtain ⟨r, hr, h⟩ := h
      obtain ⟨w', item', rfl, hcalls⟩ | ⟨rfl, w', hw', rfl⟩ :=
        yields_menuPoll (.setCalls t s (wrapMove 4 b item))
          (setCallsSelectCalls T t s item w) rfl hr
      · cases h
        exact hcalls
      · cases hw'
        exact yields_setCallsSelect h
  | chooseCalls t s k i item =>
      rw [poll, Lib.bind_eq_ok] at h
      obtain ⟨r, hr, h⟩ := h
      obtain ⟨w', item', rfl, hcalls⟩ | ⟨rfl, w', hw', rfl⟩ :=
        yields_menuPoll
          (.chooseCalls t s k i (chooseCallsMove T.callRecords.length b item))
          (if T.callRecords.length ≠ 0 then return [] else clsWrites T (.setCalls t s k) w) rfl hr
      · cases h
        exact hcalls
      · rw [pollCalls, menuPollCalls]
        dsimp only at h
        split_ifs at h ⊢ with hlen
        · cases h
          obtain ⟨r, -, rfl⟩ := (chooseCallsConfirm_eq_ok hlen).mp hw'
          exact yields_nil w.screen
        · rw [chooseCallsConfirm, if_neg hlen] at hw'
          cases hw'
          rw [chooseCallsLeave, if_neg hlen] at h
          exact yields_clsWrites h rfl rfl w.screen
  | setDepartment t s item =>
      rw [poll, Lib.bind_eq_ok] at h
      obtain ⟨r, hr, h⟩ := h
      obtain ⟨w', item', rfl, hcalls⟩ | ⟨rfl, w', hw', rfl⟩ :=
        yields_menuPoll
          (.setDepartment t s (setDepartmentMove T.deptRecords.length b item))
          (if T.deptRecords.length ≠ 0 then return [] else writes T (.settings t s) w) rfl hr
      · cases h
        exact hcalls
      · rw [pollCalls, menuPollCalls]
        dsimp only at h
        split_ifs at h ⊢ with hlen
        · cases h
          obtain ⟨d, rfl⟩ := setDepartmentConfirm_frame hw'
          exact yields_nil w.screen
        · rw [setDepartmentConfirm, if_neg hlen] at hw'
          cases hw'
          rw [setDepartmentLeave, if_neg hlen] at h
          exact yields_writes h rfl

theorem Console.yields_nextCalls {e : Event} (h : c.next T a b = .ok (e, c')) :
    Yields T c.world (c.nextCalls T a b) c.world.screen c'.world.screen := by
  obtain ⟨control, w⟩ := c
  cases control with
  | polling menu =>
      obtain ⟨d, hd, h⟩ := Lib.bind_eq_ok.mp h
      cases h
      exact yields_poll hd
  | savingCall t s k i item =>
      obtain ⟨r, -, h⟩ := Lib.bind_eq_ok.mp h
      obtain ⟨d, hd, h⟩ := Lib.bind_eq_ok.mp h
      cases h
      exact yields_clsWrites hd (chooseCallsLeave_calls _ _ _) (chooseCallsLeave_screen _ _ _)
        w.screen
  | savingDept t s item =>
      obtain ⟨d, hd, h⟩ := Lib.bind_eq_ok.mp h
      cases h
      have hcalls := yields_writes hd (setDepartmentLeave_calls _ _ w).1
      rwa [setDepartmentLeave_screen] at hcalls

end Calls

end AndonConsole
