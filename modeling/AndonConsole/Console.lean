import AndonConsole.Menus
import AndonConsole.Boot

/-!
The console as a machine.

The firmware runs one nest of loops: `app_main` wakes the display up and calls
`showMainMenu`, from which `settings`, `setCalls`, `chooseCalls` and
`setDepartment` call each other. A state is the world and the place in this
nest: a poll of the buttons, with the local variables of the functions that
are active there, or the point between the two halves of an OK, when RAM has
been written and flash has not. From a poll the code runs on to the next such
place; in any place the power may fail.
-/

namespace AndonConsole

/-- The record arrays, as far as they are in use. -/
structure Tables where
  callRecords : List Callrecord
  deptRecords : List Deptrecord

/-- What `malloc` and the NVS answer during one step. -/
structure Answers where
  malloc : Malloc
  callMallocs : Fin 3 → Malloc
  saveCalls : SaveEnv
  saveDepts : SaveEnv
  boot : BootEnv

def Answers.ok : Answers := ⟨.ok, fun _ => .ok, .ok, .ok, .ok⟩

/-- The polls of the buttons. A menu carries the local variables of its callers:
`t` is `displayontime`, `s` and `k` are `menu_item` of `settings` and of
`setCalls`. -/
inductive Menu
  | appMain
  | mainMenu (t : ℕ)
  | settings (t : ℕ) (menu_item : ℤ)
  | setCalls (t : ℕ) (s : ℤ) (menu_item : ℤ)
  | chooseCalls (t : ℕ) (s k : ℤ) (callIndex : Fin 3) (menu_item : ℤ)
  | setDepartment (t : ℕ) (s : ℤ) (menu_item : ℤ)

inductive Control
  | polling (menu : Menu)
  | savingCall (t : ℕ) (s k : ℤ) (callIndex : Fin 3) (menu_item : ℤ)
  | savingDept (t : ℕ) (s : ℤ) (menu_item : ℤ)

structure Console where
  control : Control
  world : World

/-! ### The menus with fixed items -/

/-- `(calls[i].status) ? calls[i].mancalldesc : "Choose Call ..."`. -/
def callMenuText (r : Callrecord) (default : String) : Option CString :=
  if r.status ≠ none then r.mancalldesc else some (.ofString default)

def drawTexts (rows : List (Option CString × ℕ × Bool)) : Exec (List DispWrite) :=
  rows.mapM fun (text, line, highlight) => dispWrite text 5 line highlight

def showSetCalls (calls : Calls) (menu_item : ℤ) : Exec (List DispWrite) :=
  let call1MenuText := callMenuText (calls 0) "Choose Call 1"
  let call2MenuText := callMenuText (calls 1) "Choose Call 2"
  let call3MenuText := callMenuText (calls 2) "Choose Call 3"
  let back := some (CString.ofString "Back")
  if menu_item = 1 then
    drawTexts [(call2MenuText, 2, false), (call3MenuText, 3, false), (back, 4, false),
      (call1MenuText, 1, true)]
  else if menu_item = 2 then
    drawTexts [(call1MenuText, 1, false), (call3MenuText, 3, false), (back, 4, false),
      (call2MenuText, 2, true)]
  else if menu_item = 3 then
    drawTexts [(call1MenuText, 1, false), (call2MenuText, 2, false), (back, 4, false),
      (call3MenuText, 3, true)]
  else
    drawTexts [(call1MenuText, 1, false), (call2MenuText, 2, false), (call3MenuText, 3, false),
      (back, 4, true)]

def showSettings (menu_item : ℤ) : List DispWrite :=
  if menu_item = 1 then
    [literal "Choose Calls" 2 false, literal "Set Department" 3 false,
      literal "Reset All" 4 false, literal "Exit" 5 false, literal "Connect to WiFi" 1 true]
  else if menu_item = 2 then
    [literal "Connect to WiFi" 1 false, literal "Set Department" 3 false,
      literal "Reset All" 4 false, literal "Exit" 5 false, literal "Choose Calls" 2 true]
  else if menu_item = 3 then
    [literal "Connect to WiFi" 1 false, literal "Choose Calls" 2 false,
      literal "Reset All" 4 false, literal "Exit" 5 false, literal "Set Department" 3 true]
  else if menu_item = 4 then
    [literal "Connect to WiFi" 1 false, literal "Choose Calls" 2 false,
      literal "Set Department" 3 false, literal "Exit" 5 false, literal "Reset All" 4 true]
  else
    [literal "Connect to WiFi" 1 false, literal "Choose Calls" 2 false,
      literal "Set Department" 3 false, literal "Reset All" 4 false, literal "Exit" 5 true]

/-- The row of one call in the main menu, if it has a description. -/
def mainMenuRow (label : String) (line : ℕ) (r : Callrecord) : List DispWrite :=
  match r.mancalldesc with
  | none => []
  | some desc =>
      [⟨((CString.ofString label).append (desc.precision 41)).snprintf 50, 5, line, false⟩]

/-- The writes of `showMainMenu`, in front of its poll. -/
def showMainMenu (calls : Calls) : List DispWrite :=
  if (calls 0).status = none ∨ (calls 1).status = none ∨ (calls 2).status = none then
    [literal "Do the initial Setup.." 1 false, literal "Settings (Press OK)" 2 true]
  else
    mainMenuRow "Call 1: " 1 (calls 0) ++ mainMenuRow "Call 2: " 2 (calls 1) ++
      mainMenuRow "Call 3: " 3 (calls 2) ++ [literal "Settings" 4 true]

def Menu.shows (T : Tables) (w : World) : Menu → Exec (List DispWrite)
  | .appMain => .ok []
  | .mainMenu _ => .ok (showMainMenu w.calls)
  | .settings _ menu_item => .ok (showSettings menu_item)
  | .setCalls _ _ menu_item => showSetCalls w.calls menu_item
  | .chooseCalls _ _ _ _ menu_item => showChooseCalls T.callRecords menu_item
  | .setDepartment _ _ menu_item => showSetDepartment T.deptRecords menu_item

/-! ### From one poll to the next -/

def enter (T : Tables) (menu : Menu) (w : World) : Exec Console := do
  let ws ← menu.shows T w
  return ⟨.polling menu, w.draw ws⟩

/-- `showMainMenu` has returned: `displayontime++` and the loop condition of
`app_main`. -/
def afterMainMenu (T : Tables) (t : ℕ) (w : World) : Exec Console :=
  if t + 1 < 15 then enter T (.mainMenu (t + 1)) w else return ⟨.polling .appMain, w⟩

/-- OK in `settings`. -/
def settingsSelect (T : Tables) (a : Answers) (t : ℕ) (menu_item : ℤ) (w : World) :
    Exec Console :=
  if menu_item = 1 then return ⟨.polling (.settings t menu_item), w⟩
  else if menu_item = 2 then enter T (.setCalls t menu_item 1) w.cls
  else if menu_item = 3 then enter T (.setDepartment t menu_item 1) w.cls
  else if menu_item = 4 then do
    let st ← resetAll a.malloc a.callMallocs a.saveCalls a.saveDepts w.cls.toStore
    enter T (.settings t menu_item) { w.cls with toStore := st }
  else afterMainMenu T t w.cls

/-- OK in `setCalls`. -/
def setCallsSelect (T : Tables) (t : ℕ) (s menu_item : ℤ) (w : World) : Exec Console :=
  if menu_item = 1 then enter T (.chooseCalls t s menu_item 0 1) w.cls
  else if menu_item = 2 then enter T (.chooseCalls t s menu_item 1 1) w.cls
  else if menu_item = 3 then enter T (.chooseCalls t s menu_item 2 1) w.cls
  else enter T (.settings t s) w.cls

/-- From a poll that reads `b` to the next place. -/
def poll (T : Tables) (a : Answers) (b : Button) (w : World) : Menu → Exec Console
  | .appMain =>
      if b = .ok then enter T (.mainMenu 0) w.cls else return ⟨.polling .appMain, w⟩
  -- the poll of `showMainMenu`; what `app_main` reads in front of it is not used
  | .mainMenu t => if b = .ok then enter T (.settings t 1) w.cls else afterMainMenu T t w
  | .settings t menu_item => do
      match ← menuPoll (fun i => .ok (showSettings i)) (wrapMove 5) (fun w _ => .ok w)
        (w, menu_item) b with
      | .inl (w, menu_item) => return ⟨.polling (.settings t menu_item), w⟩
      | .inr (w, menu_item) => settingsSelect T a t menu_item w
  | .setCalls t s menu_item => do
      match ← menuPoll (showSetCalls w.calls) (wrapMove 4) (fun w _ => .ok w)
        (w, menu_item) b with
      | .inl (w, menu_item) => return ⟨.polling (.setCalls t s menu_item), w⟩
      | .inr (w, menu_item) => setCallsSelect T t s menu_item w
  | .chooseCalls t s k callIndex menu_item => do
      match ← chooseCallsPoll a.malloc T.callRecords callIndex (w, menu_item) b with
      | .inl (w, menu_item) => return ⟨.polling (.chooseCalls t s k callIndex menu_item), w⟩
      | .inr (w, menu_item) =>
          if T.callRecords.length ≠ 0 then return ⟨.savingCall t s k callIndex menu_item, w⟩
          else enter T (.setCalls t s k) (chooseCallsLeave a.saveCalls T.callRecords w)
  | .setDepartment t s menu_item => do
      match ← setDepartmentPoll a.malloc T.deptRecords (w, menu_item) b with
      | .inl (w, menu_item) => return ⟨.polling (.setDepartment t s menu_item), w⟩
      | .inr (w, menu_item) =>
          if T.deptRecords.length ≠ 0 then return ⟨.savingDept t s menu_item, w⟩
          else enter T (.settings t s) (setDepartmentLeave a.saveDepts T.deptRecords w)

/-- All that can happen between a poll of `menu` and the next place. -/
inductive Transition (T : Tables) (a : Answers) (w : World) : Menu → Console → Prop
  | stay {menu : Menu} : Transition T a w menu ⟨.polling menu, w⟩
  | shown {menu menu' : Menu} {c : Console} :
      enter T menu' w.cls = .ok c → Transition T a w menu c
  | redraw {t : ℕ} {c : Console} :
      enter T (.mainMenu (t + 1)) w = .ok c → Transition T a w (.mainMenu t) c
  | sleep {menu : Menu} {w' : World} :
      w'.toStore = w.toStore → Transition T a w menu ⟨.polling .appMain, w'⟩
  | confirmCall {t : ℕ} {s k : ℤ} {callIndex : Fin 3} {menu_item : ℤ} {w' : World} :
      T.callRecords.length ≠ 0 →
      chooseCallsConfirm a.malloc T.callRecords callIndex w menu_item = .ok w' →
      Transition T a w (.chooseCalls t s k callIndex menu_item)
        ⟨.savingCall t s k callIndex menu_item, w'⟩
  | confirmDept {t : ℕ} {s menu_item : ℤ} {w' : World} :
      setDepartmentConfirm a.malloc T.deptRecords w menu_item = .ok w' →
      Transition T a w (.setDepartment t s menu_item) ⟨.savingDept t s menu_item, w'⟩
  | back {t : ℕ} {s menu_item : ℤ} {c : Console} :
      enter T (.settings t s) w = .ok c → Transition T a w (.setDepartment t s menu_item) c

section Transition

variable {T : Tables} {a : Answers} {w : World} {c : Console} {menu : Menu} {b : Button}

theorem enter_eq_ok :
    enter T menu w = .ok c ↔ ∃ ws, menu.shows T w = .ok ws ∧ c = ⟨.polling menu, w.draw ws⟩ := by
  rw [enter, Lib.bind_eq_ok]
  refine ⟨fun h => ?_, fun h => ?_⟩
  · obtain ⟨ws, hws, h⟩ := h
    exact ⟨ws, hws, (Except.ok.inj h).symm⟩
  · obtain ⟨ws, hws, rfl⟩ := h
    exact ⟨ws, hws, rfl⟩

theorem transition_moved (menu' : Menu) {ws : List DispWrite}
    (hws : menu'.shows T w.cls = .ok ws) :
    Transition T a w menu ⟨.polling menu', w.cls.draw ws⟩ :=
  .shown (enter_eq_ok.mpr ⟨ws, hws, rfl⟩)

theorem afterMainMenu_cases {t : ℕ} (h : afterMainMenu T t w = .ok c) :
    enter T (.mainMenu (t + 1)) w = .ok c ∨ c = ⟨.polling .appMain, w⟩ := by
  rw [afterMainMenu] at h
  split_ifs at h
  · exact .inl h
  · exact .inr (Except.ok.inj h).symm

theorem settingsSelect_transition {t : ℕ} {item : ℤ}
    (h : settingsSelect T a t item w = .ok c) : Transition T a w (.settings t item) c := by
  rw [settingsSelect] at h
  split_ifs at h
  · cases h
    exact .stay
  · exact .shown h
  · exact .shown h
  · rw [resetAll_eq] at h
    cases h
  · rcases afterMainMenu_cases h with h | rfl
    · exact .shown h
    · exact .sleep rfl

theorem setCallsSelect_transition {t : ℕ} {s item : ℤ}
    (h : setCallsSelect T t s item w = .ok c) : Transition T a w (.setCalls t s item) c := by
  rw [setCallsSelect] at h
  split_ifs at h
  all_goals exact .shown h

theorem poll_transition (h : poll T a b w menu = .ok c) : Transition T a w menu c := by
  cases menu with
  | appMain =>
      rw [poll] at h
      split_ifs at h
      · exact .shown h
      · cases h
        exact .stay
  | mainMenu t =>
      rw [poll] at h
      split_ifs at h
      · exact .shown h
      · rcases afterMainMenu_cases h with h | rfl
        · exact .redraw h
        · exact .sleep rfl
  | settings t item =>
      rw [poll, Lib.bind_eq_ok] at h
      obtain ⟨r, hr, h⟩ := h
      obtain ⟨-, rfl⟩ | ⟨-, w', hw', rfl⟩ | ⟨ws, hws, rfl⟩ := menuPoll_cases hr
      · cases h
        exact .stay
      · cases hw'
        exact settingsSelect_transition h
      · cases h
        exact transition_moved (.settings t (wrapMove 5 b item)) hws
  | setCalls t s item =>
      rw [poll, Lib.bind_eq_ok] at h
      obtain ⟨r, hr, h⟩ := h
      obtain ⟨-, rfl⟩ | ⟨-, w', hw', rfl⟩ | ⟨ws, hws, rfl⟩ := menuPoll_cases hr
      · cases h
        exact .stay
      · cases hw'
        exact setCallsSelect_transition h
      · cases h
        exact transition_moved (.setCalls t s (wrapMove 4 b item)) hws
  | chooseCalls t s k i item =>
      rw [poll, Lib.bind_eq_ok] at h
      obtain ⟨r, hr, h⟩ := h
      obtain ⟨-, rfl⟩ | ⟨-, w', hw', rfl⟩ | ⟨ws, hws, rfl⟩ := menuPoll_cases hr
      · cases h
        exact .stay
      · dsimp only at h
        split_ifs at h with hlen
        · cases h
          exact .confirmCall hlen hw'
        · rw [chooseCallsConfirm, if_neg hlen] at hw'
          cases hw'
          rw [chooseCallsLeave, if_neg hlen] at h
          exact .shown h
      · cases h
        exact transition_moved
          (.chooseCalls t s k i (chooseCallsMove T.callRecords.length b item)) hws
  | setDepartment t s item =>
      rw [poll, Lib.bind_eq_ok] at h
      obtain ⟨r, hr, h⟩ := h
      obtain ⟨-, rfl⟩ | ⟨-, w', hw', rfl⟩ | ⟨ws, hws, rfl⟩ := menuPoll_cases hr
      · cases h
        exact .stay
      · dsimp only at h
        split_ifs at h with hlen
        · cases h
          exact .confirmDept hw'
        · rw [setDepartmentConfirm, if_neg hlen] at hw'
          cases hw'
          rw [setDepartmentLeave, if_neg hlen] at h
          exact .back h
      · cases h
        exact transition_moved
          (.setDepartment t s (setDepartmentMove T.deptRecords.length b item)) hws

end Transition

/-! ### Runs -/

inductive Event
  | polled (b : Button)
  | saved (callIndex : Fin 3) (record : Callrecord)
  | savedDept
  | powerCycle

/-- The steps of the console, where the environment gives answers that satisfy
`ans`. What the display shows after a power-up is not determined. -/
inductive Step (T : Tables) (ans : Answers → Prop) : Console → Event → Console → Prop
  | poll {a : Answers} {b : Button} {menu : Menu} {w : World} {c : Console} :
      ans a → poll T a b w menu = .ok c → Step T ans ⟨.polling menu, w⟩ (.polled b) c
  | saveCall {a : Answers} {t : ℕ} {s k : ℤ} {callIndex : Fin 3} {menu_item : ℤ}
      {r : Callrecord} {w : World} {c : Console} :
      ans a → recordAt T.callRecords (menu_item - 1) = .ok r →
      enter T (.setCalls t s k) (chooseCallsLeave a.saveCalls T.callRecords w) = .ok c →
      Step T ans ⟨.savingCall t s k callIndex menu_item, w⟩ (.saved callIndex r) c
  | saveDept {a : Answers} {t : ℕ} {s menu_item : ℤ} {w : World} {c : Console} :
      ans a →
      enter T (.settings t s) (setDepartmentLeave a.saveDepts T.deptRecords w) = .ok c →
      Step T ans ⟨.savingDept t s menu_item, w⟩ .savedDept c
  | powerCycle {a : Answers} {c : Console} {st : Store} {screen : Screen} :
      ans a → bootWith a.boot c.world.flash = .ok st →
      Step T ans c .powerCycle ⟨.polling .appMain, { st with screen }⟩

/-- The next step but for a power failure; a reading is used only at a poll. -/
def Console.next (T : Tables) (a : Answers) (b : Button) : Console → Exec (Event × Console)
  | ⟨.polling menu, w⟩ => do
      let c ← poll T a b w menu
      return (.polled b, c)
  | ⟨.savingCall t s k callIndex menu_item, w⟩ => do
      let r ← recordAt T.callRecords (menu_item - 1)
      let c ← enter T (.setCalls t s k) (chooseCallsLeave a.saveCalls T.callRecords w)
      return (.saved callIndex r, c)
  | ⟨.savingDept t s _, w⟩ => do
      let c ← enter T (.settings t s) (setDepartmentLeave a.saveDepts T.deptRecords w)
      return (.savedDept, c)

def Console.follow (T : Tables) (a : Answers) :
    Console → List Button → Exec (List Event × Console)
  | c, [] => return ([], c)
  | c, b :: bs => do
      let (e, c) ← c.next T a b
      let (es, c) ← c.follow T a bs
      return (e :: es, c)

section Follow

variable {T : Tables} {ans : Answers → Prop} {a : Answers} {c c' : Console}

theorem Console.step_of_next {b : Button} {e : Event} (ha : ans a)
    (h : c.next T a b = .ok (e, c')) : Step T ans c e c' := by
  obtain ⟨control, w⟩ := c
  cases control with
  | polling menu =>
      obtain ⟨d, hd, h⟩ := Lib.bind_eq_ok.mp h
      cases h
      exact .poll ha hd
  | savingCall t s k i item =>
      obtain ⟨r, hr, h⟩ := Lib.bind_eq_ok.mp h
      obtain ⟨d, hd, h⟩ := Lib.bind_eq_ok.mp h
      cases h
      exact .saveCall ha hr hd
  | savingDept t s item =>
      obtain ⟨d, hd, h⟩ := Lib.bind_eq_ok.mp h
      cases h
      exact .saveDept ha hd

theorem Console.run_of_follow (bs : List Button) {es : List Event} (ha : ans a)
    (h : c.follow T a bs = .ok (es, c')) : Lib.Run (Step T ans) c es c' := by
  induction bs generalizing c es with
  | nil =>
      cases h
      exact .start
  | cons b bs ih =>
      obtain ⟨⟨e, d⟩, hd, h⟩ := Lib.bind_eq_ok.mp h
      obtain ⟨⟨es', d'⟩, hd', h⟩ := Lib.bind_eq_ok.mp h
      cases h
      exact (Lib.Run.single (step_of_next ha hd)).trans (ih hd')

/-- While its own loop goes on polling, a menu is polled by the console. -/
theorem Console.follow_of_pollLoop (menu : ℤ → Menu)
    {body : World × ℤ → Button → Exec ((World × ℤ) ⊕ (World × ℤ))}
    (hbody : ∀ w item b w' item', body (w, item) b = .ok (.inl (w', item')) →
      poll T a b w (menu item) = .ok ⟨.polling (menu item'), w'⟩)
    {w w' : World} {item item' : ℤ} {presses : List Button}
    (h : Lib.pollLoop body (w, item) presses = .ok (.inl (w', item'))) :
    Console.follow T a ⟨.polling (menu item), w⟩ presses =
      .ok (presses.map Event.polled, ⟨.polling (menu item'), w'⟩) := by
  induction presses generalizing w item with
  | nil =>
      cases h
      rfl
  | cons b bs ih =>
      rw [Lib.pollLoop] at h
      split at h
      · cases h
      · rename_i s hs
        obtain ⟨w₁, item₁⟩ := s
        simp [Console.follow, Console.next, hbody _ _ _ _ _ hs, ih h, bind, Except.bind, pure,
          Except.pure]
      · cases h

/-- A call of `chooseCalls` up to OK is what the console does in this menu. -/
theorem Console.follow_chooseCalls {env : SaveEnv} {t : ℕ} {s k item : ℤ}
    {i : Fin 3} {w w' : World} {presses : List Button}
    (h : chooseCalls a.malloc env T.callRecords i w presses = .ok (.inl (w', item))) :
    ∃ c, enter T (.chooseCalls t s k i 1) w = .ok c ∧
      c.follow T a presses =
        .ok (presses.map Event.polled, ⟨.polling (.chooseCalls t s k i item), w'⟩) := by
  obtain ⟨ws, hws, hloop⟩ := menuRun_eq_inl_iff.mp h
  refine ⟨_, enter_eq_ok.mpr ⟨ws, hws, rfl⟩,
    follow_of_pollLoop (.chooseCalls t s k i) (fun w item b w' item' hb => ?_) hloop⟩
  rw [poll, hb]
  rfl

theorem Console.follow_setDepartment {env : SaveEnv} {t : ℕ} {s item : ℤ}
    {w w' : World} {presses : List Button}
    (h : setDepartment a.malloc env T.deptRecords w presses = .ok (.inl (w', item))) :
    ∃ c, enter T (.setDepartment t s 1) w = .ok c ∧
      c.follow T a presses =
        .ok (presses.map Event.polled, ⟨.polling (.setDepartment t s item), w'⟩) := by
  obtain ⟨ws, hws, hloop⟩ := menuRun_eq_inl_iff.mp h
  refine ⟨_, enter_eq_ok.mpr ⟨ws, hws, rfl⟩,
    follow_of_pollLoop (.setDepartment t s) (fun w item b w' item' hb => ?_) hloop⟩
  rw [poll, hb]
  rfl

end Follow

def demoTables : Tables := ⟨testCallRecords.records, testDeptRecords.records⟩

end AndonConsole
