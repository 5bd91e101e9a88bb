import AndonConsole.Paging
import AndonConsole.Store
import AndonConsole.Lib.Runs
import AndonConsole.Lib.Cursor

/-!
The two menus that pick a record: `chooseCalls` and `setDepartment`.

Each is a loop that polls the buttons. UP and DOWN move the cursor, each
menu by its own rule, then clear the screen and show the list again; OK
takes the record under the cursor and ends the loop. Both are called on a
screen that has just been cleared. The cursor is an integer: it could only
leave the range of `int` on an empty list, by more than 2^31 presses in one
direction.
-/

namespace AndonConsole

/-! ### Buttons -/

/-- The readings of `checkButtonPress`: 0, 1, 2 and 3. -/
inductive Button
  | none
  | up
  | ok
  | down
  deriving DecidableEq, Repr

def pinUp : ℕ := 21

def pinDown : ℕ := 13

def pinSelok : ℕ := 14

/-- `checkButtonPress`, given what each of its reads of `GPIO_IN_REG` returns. -/
def checkButtonPress (gpio_in : Fin 3 → BitVec 32) : Button :=
  if gpio_in 0 &&& (1#32 <<< pinUp) ≠ 0 then .up
  else if gpio_in 1 &&& (1#32 <<< pinSelok) ≠ 0 then .ok
  else if gpio_in 2 &&& (1#32 <<< pinDown) ≠ 0 then .down
  else .none

theorem checkButtonPress_surjective : Function.Surjective checkButtonPress := by
  intro b
  cases b with
  | none => exact ⟨fun _ => 0, by decide⟩
  | up => exact ⟨fun _ => 1#32 <<< pinUp, by decide⟩
  | ok => exact ⟨fun _ => 1#32 <<< pinSelok, by decide⟩
  | down => exact ⟨fun _ => 1#32 <<< pinDown, by decide⟩

/-! ### The store and the screen -/

structure World extends Store where
  screen : Screen

def World.unset : World := { Store.powerOn fun _ => none with screen := .blank }

def World.cls (w : World) : World := { w with screen := .blank }

def World.draw (w : World) (ws : List DispWrite) : World :=
  { w with screen := w.screen.draw ws }

@[simp] theorem World.cls_toStore (w : World) : w.cls.toStore = w.toStore := rfl

@[simp] theorem World.cls_screen (w : World) : w.cls.screen = .blank := rfl

@[simp] theorem World.draw_toStore (w : World) (ws : List DispWrite) :
    (w.draw ws).toStore = w.toStore := rfl

@[simp] theorem World.draw_screen (w : World) (ws : List DispWrite) :
    (w.draw ws).screen = w.screen.draw ws := rfl

/-! ### The loop of a list menu -/

/-- One poll of a menu: `inl` when it goes on polling, `inr` when OK has ended
it. In both cases with the value of `menu_item`. -/
def menuPoll (shows : ℤ → Exec (List DispWrite)) (move : Button → ℤ → ℤ)
    (confirm : World → ℤ → Exec World) :
    World × ℤ → Button → Exec ((World × ℤ) ⊕ (World × ℤ))
  | (w, menu_item), .none => return .inl (w, menu_item)
  | (w, menu_item), .ok => do
      let w ← confirm w menu_item
      return .inr (w, menu_item)
  -- UP and DOWN
  | (w, menu_item), b => do
      let ws ← shows (move b menu_item)
      return .inl (w.cls.draw ws, move b menu_item)

/-- UP and DOWN in a menu of `last` items whose ends meet. -/
def wrapMove (last : ℤ) : Button → ℤ → ℤ
  | .up, menu_item => Lib.wrapBack last menu_item
  | .down, menu_item => Lib.wrapNext last menu_item
  | _, menu_item => menu_item

def chooseCallsMove (callRecordCount : ℤ) : Button → ℤ → ℤ := wrapMove callRecordCount

def setDepartmentMove (deptRecordCount : ℤ) : Button → ℤ → ℤ
  -- the bound of the source is 0, and 0 is no item of the list
  | .up, menu_item => if menu_item ≤ 0 then 1 else menu_item - 1
  | .down, menu_item =>
      if menu_item ≥ deptRecordCount then deptRecordCount else menu_item + 1
  | _, menu_item => menu_item

/-- The first half of OK in `chooseCalls`: `setCallrecord`. -/
def chooseCallsConfirm (m : Malloc) (callRecords : List Callrecord) (callIndex : Fin 3)
    (w : World) (menu_item : ℤ) : Exec World :=
  if callRecords.length ≠ 0 then do
    let r ← recordAt callRecords (menu_item - 1)
    let slot := setCallrecord m (w.calls callIndex) r.status r.mancalldesc r.mancallto
    return { w with calls := Function.update w.calls callIndex slot }
  else return w

/-- The second half: `saveCalls` and `disp_cls`. -/
def chooseCallsLeave (env : SaveEnv) (callRecords : List Callrecord) (w : World) : World :=
  if callRecords.length ≠ 0 then World.cls { w with toStore := saveCalls env w.toStore }
  else w.cls

/-- The first half of OK in `setDepartment`: `setDeptrecord`. -/
def setDepartmentConfirm (m : Malloc) (deptRecords : List Deptrecord) (w : World)
    (menu_item : ℤ) : Exec World :=
  if deptRecords.length ≠ 0 then do
    let r ← recordAt deptRecords (menu_item - 1)
    let department ← setDeptrecord m w.department r.deptname r.deptid
    return { w with department }
  else return w

/-- The second half: `saveDepts`, without a `disp_cls`. -/
def setDepartmentLeave (env : SaveEnv) (deptRecords : List Deptrecord) (w : World) : World :=
  if deptRecords.length ≠ 0 then { w with toStore := saveDepts env w.toStore } else w

@[simp] theorem chooseCallsLeave_calls (env : SaveEnv) (callRecords : List Callrecord)
    (w : World) : (chooseCallsLeave env callRecords w).calls = w.calls := by
  rw [chooseCallsLeave]
  split <;> simp

theorem chooseCallsLeave_screen (env : SaveEnv) (callRecords : List Callrecord) (w : World) :
    (chooseCallsLeave env callRecords w).screen = .blank := by
  rw [chooseCallsLeave]
  split <;> rfl

@[simp] theorem setDepartmentLeave_department (env : SaveEnv) (deptRecords : List Deptrecord)
    (w : World) : (setDepartmentLeave env deptRecords w).department = w.department := by
  rw [setDepartmentLeave]
  split <;> simp

theorem setDepartmentLeave_calls (env : SaveEnv) (deptRecords : List Deptrecord) (w : World) :
    (setDepartmentLeave env deptRecords w).calls = w.calls ∧
      (setDepartmentLeave env deptRecords w).flash .nvsCalls = w.flash .nvsCalls := by
  rw [setDepartmentLeave]
  split
  · exact ⟨saveDepts_calls env w.toStore, saveDepts_flash env w.toStore⟩
  · exact ⟨rfl, rfl⟩

theorem setDepartmentLeave_screen (env : SaveEnv) (deptRecords : List Deptrecord) (w : World) :
    (setDepartmentLeave env deptRecords w).screen = w.screen := by
  rw [setDepartmentLeave]
  split <;> rfl

theorem chooseCallsConfirm_eq_ok {m : Malloc} {callRecords : List Callrecord}
    {callIndex : Fin 3} {w w' : World} {item : ℤ} (hne : callRecords.length ≠ 0) :
    chooseCallsConfirm m callRecords callIndex w item = .ok w' ↔
      ∃ r, recordAt callRecords (item - 1) = .ok r ∧
        w' = { w with
          calls := Function.update w.calls callIndex
            (setCallrecord m (w.calls callIndex) r.status r.mancalldesc r.mancallto) } := by
  rw [chooseCallsConfirm, if_pos hne, Lib.bind_eq_ok]
  refine ⟨fun h => ?_, fun h => ?_⟩
  · obtain ⟨r, hr, h⟩ := h
    exact ⟨r, hr, (Except.ok.inj h).symm⟩
  · obtain ⟨r, hr, rfl⟩ := h
    exact ⟨r, hr, rfl⟩

theorem setDepartmentConfirm_frame {m : Malloc} {deptRecords : List Deptrecord}
    {w w' : World} {item : ℤ} (h : setDepartmentConfirm m deptRecords w item = .ok w') :
    ∃ d, w' = { w with department := d } := by
  rw [setDepartmentConfirm] at h
  split_ifs at h
  · obtain ⟨r, -, h⟩ := Lib.bind_eq_ok.mp h
    obtain ⟨d, -, h⟩ := Lib.bind_eq_ok.mp h
    exact ⟨d, (Except.ok.inj h).symm⟩
  · exact ⟨w.department, (Except.ok.inj h).symm⟩

def chooseCallsPoll (m : Malloc) (callRecords : List Callrecord) (callIndex : Fin 3) :
    World × ℤ → Button → Exec ((World × ℤ) ⊕ (World × ℤ)) :=
  menuPoll (showChooseCalls callRecords) (chooseCallsMove callRecords.length)
    (chooseCallsConfirm m callRecords callIndex)

def setDepartmentPoll (m : Malloc) (deptRecords : List Deptrecord) :
    World × ℤ → Button → Exec ((World × ℤ) ⊕ (World × ℤ)) :=
  menuPoll (showSetDepartment deptRecords) (setDepartmentMove deptRecords.length)
    (setDepartmentConfirm m deptRecords)

/-- A menu fed with the readings of its polls: `inl` at the next poll, `inr`
when the function has returned. -/
def menuRun (shows : ℤ → Exec (List DispWrite))
    (poll : World × ℤ → Button → Exec ((World × ℤ) ⊕ (World × ℤ))) (leave : World → World)
    (w : World) (presses : List Button) : Exec ((World × ℤ) ⊕ World) := do
  let ws ← shows 1
  let r ← Lib.pollLoop poll (w.draw ws, 1) presses
  return r.map id fun (w, _) => leave w

def chooseCalls (m : Malloc) (env : SaveEnv) (callRecords : List Callrecord)
    (callIndex : Fin 3) : World → List Button → Exec ((World × ℤ) ⊕ World) :=
  menuRun (showChooseCalls callRecords) (chooseCallsPoll m callRecords callIndex)
    (chooseCallsLeave env callRecords)

def setDepartment (m : Malloc) (env : SaveEnv) (deptRecords : List Deptrecord) :
    World → List Button → Exec ((World × ℤ) ⊕ World) :=
  menuRun (showSetDepartment deptRecords) (setDepartmentPoll m deptRecords)
    (setDepartmentLeave env deptRecords)

/-! ### Runs of a menu up to OK -/

section MenuRun

variable {shows : ℤ → Exec (List DispWrite)} {move : Button → ℤ → ℤ}
  {confirm : World → ℤ → Exec World} {leave : World → World} {st : Store} {w : World}
  {s s' : World × ℤ} {b : Button} {presses : List Button}

/-- What holds at the polls of a menu: nothing is stored yet, and the screen
shows the menu for the cursor. -/
structure AtPoll (shows : ℤ → Exec (List DispWrite)) (st : Store) (s : World × ℤ) : Prop where
  store : s.1.toStore = st
  shown : ∃ ws, shows s.2 = .ok ws ∧ s.1.screen = Screen.blank.draw ws

theorem menuPoll_cases {r : (World × ℤ) ⊕ (World × ℤ)} {item : ℤ}
    (h : menuPoll shows move confirm (w, item) b = .ok r) :
    (b = .none ∧ r = .inl (w, item)) ∨
      (b = .ok ∧ ∃ w', confirm w item = .ok w' ∧ r = .inr (w', item)) ∨
      ∃ ws, shows (move b item) = .ok ws ∧ r = .inl (w.cls.draw ws, move b item) := by
  cases b with
  | none =>
      simp only [menuPoll, pure, Except.pure, Except.ok.injEq] at h
      exact .inl ⟨rfl, h.symm⟩
  | ok =>
      simp only [menuPoll, Lib.bind_eq_ok] at h
      obtain ⟨w', hw', h⟩ := h
      exact .inr (.inl ⟨rfl, w', hw', (Except.ok.inj h).symm⟩)
  | up | down =>
      simp only [menuPoll, Lib.bind_eq_ok] at h
      obtain ⟨ws, hws, h⟩ := h
      exact .inr (.inr ⟨ws, hws, (Except.ok.inj h).symm⟩)

theorem menuPoll_eq_inl (hnone : move .none s.2 = s.2)
    (h : menuPoll shows move confirm s b = .ok (.inl s')) :
    s'.1.toStore = s.1.toStore ∧ s'.2 = move b s.2 := by
  obtain ⟨rfl, hs⟩ | ⟨-, w', -, hs⟩ | ⟨ws, -, hs⟩ := menuPoll_cases h
  · cases hs
    exact ⟨rfl, hnone.symm⟩
  · cases hs
  · cases hs
    exact ⟨rfl, rfl⟩

theorem AtPoll.poll (h : AtPoll shows st s) (hb : b ≠ .ok) (hnone : move .none s.2 = s.2)
    (hshow : ∃ ws, shows (move b s.2) = .ok ws) :
    ∃ s', menuPoll shows move confirm s b = .ok (.inl s') ∧ AtPoll shows st s' ∧
      s'.2 = move b s.2 := by
  obtain ⟨w, item⟩ := s
  obtain ⟨ws, hws⟩ := hshow
  cases b with
  | none => exact ⟨_, rfl, h, hnone.symm⟩
  | ok => exact absurd rfl hb
  | up | down =>
      refine ⟨(w.cls.draw ws, _), ?_, ⟨h.store, ws, hws, rfl⟩, rfl⟩
      simp only at hws
      simp [menuPoll, hws, bind, Except.bind, pure, Except.pure]

theorem menuRun_eq_inl_iff {poll : World × ℤ → Button → Exec ((World × ℤ) ⊕ (World × ℤ))} :
    menuRun shows poll leave w presses = .ok (.inl s) ↔
      ∃ ws, shows 1 = .ok ws ∧ Lib.pollLoop poll (w.draw ws, 1) presses = .ok (.inl s) := by
  simp only [menuRun, Lib.bind_eq_ok]
  refine ⟨fun h => ?_, fun h => ?_⟩
  · obtain ⟨ws, hws, r | r, hr, h⟩ := h
    · simp only [pure, Except.pure, Sum.map_inl, id_eq, Except.ok.injEq, Sum.inl.injEq] at h
      exact ⟨ws, hws, by rw [hr, h]⟩
    · simp [pure, Except.pure] at h
  · obtain ⟨ws, hws, hr⟩ := h
    exact ⟨ws, hws, .inl s, hr, rfl⟩

/-- Nothing is stored at the polls of a menu, and what it returns is what OK has
made of one of them. -/
theorem menuRun_of_ok {o : (World × ℤ) ⊕ World}
    (h : menuRun shows (menuPoll shows move confirm) leave w presses = .ok o) :
    Sum.elim (fun s => s.1.toStore = w.toStore)
      (fun w' => ∃ w₁ item w₂, w₁.toStore = w.toStore ∧ confirm w₁ item = .ok w₂ ∧
        w' = leave w₂) o := by
  simp only [menuRun, Lib.bind_eq_ok] at h
  obtain ⟨ws, -, o', hloop, h⟩ := h
  cases h
  have hinv := Lib.pollLoop_of_ok (I := fun s : World × ℤ => s.1.toStore = w.toStore)
    (Q := fun s : World × ℤ => ∃ w₁ : World, w₁.toStore = w.toStore ∧ confirm w₁ s.2 = .ok s.1)
    (w.draw_toStore ws) (fun s b o hs hb => ?_) hloop
  · cases o' with
    | inl s => exact hinv
    | inr s =>
        obtain ⟨w₁, hw₁, hconfirm⟩ := hinv
        exact ⟨w₁, s.2, s.1, hw₁, hconfirm, rfl⟩
  · obtain ⟨-, rfl⟩ | ⟨-, w', hw', rfl⟩ | ⟨ws, -, rfl⟩ := menuPoll_cases hb
    · exact hs
    · exact ⟨s.1, hs, hw'⟩
    · exact hs

/-- The presses before OK bring the menu to a poll, where `C` holds of the
presses and the cursor if every move keeps it. -/
theorem menuRun_atPoll {C : List Button → ℤ → Prop} (hpresses : .ok ∉ presses)
    (hnone : ∀ item, move .none item = item) (hfirst : ∃ ws, shows 1 = .ok ws)
    (hstart : C [] 1)
    (hmove : ∀ p b item, p ++ [b] <+: presses → C p item →
      C (p ++ [b]) (move b item) ∧ ∃ ws, shows (move b item) = .ok ws) :
    ∃ s, menuRun shows (menuPoll shows move confirm) leave w.cls presses = .ok (.inl s) ∧
      AtPoll shows w.toStore s ∧ C presses s.2 := by
  obtain ⟨ws, hws⟩ := hfirst
  have hstep : ∀ p b s, p ++ [b] <+: presses → AtPoll shows w.toStore s ∧ C p s.2 →
      ∃ s', menuPoll shows move confirm s b = .ok (.inl s') ∧
        AtPoll shows w.toStore s' ∧ C (p ++ [b]) s'.2 := by
    rintro p b s hp ⟨hat, hC⟩
    obtain ⟨hC', hshow⟩ := hmove p b s.2 hp hC
    have hb : b ≠ .ok := by
      rintro rfl
      exact hpresses (hp.subset (by simp))
    obtain ⟨s', hs', hat', hitem⟩ := hat.poll hb (hnone _) hshow
    exact ⟨s', hs', hat', hitem ▸ hC'⟩
  obtain ⟨s, hs, hI⟩ := Lib.pollLoop_invariant
    (I := fun p s => AtPoll shows w.toStore s ∧ C p s.2)
    (⟨⟨rfl, ws, hws, rfl⟩, hstart⟩ : AtPoll shows w.toStore (w.cls.draw ws, 1) ∧ C [] 1) hstep
  exact ⟨s, menuRun_eq_inl_iff.mpr ⟨ws, hws, hs⟩, hI⟩

theorem menuRun_snoc {poll : World × ℤ → Button → Exec ((World × ℤ) ⊕ (World × ℤ))}
    (hrun : menuRun shows poll leave w presses = .ok (.inl s))
    (hnext : menuRun shows poll leave w (presses ++ [b]) = .ok (.inl s')) :
    poll s b = .ok (.inl s') := by
  obtain ⟨ws, hws, hs⟩ := menuRun_eq_inl_iff.mp hrun
  obtain ⟨ws', hws', hs'⟩ := menuRun_eq_inl_iff.mp hnext
  rw [hws, Except.ok.injEq] at hws'
  subst hws'
  rwa [Lib.pollLoop_append_of_poll hs, Lib.pollLoop_single] at hs'

theorem menuRun_ok
    (hrun : menuRun shows (menuPoll shows move confirm) leave w presses = .ok (.inl s)) {w' : World}
    (hconfirm : confirm s.1 s.2 = .ok w') :
    menuRun shows (menuPoll shows move confirm) leave w (presses ++ [.ok]) =
      .ok (.inr (leave w')) := by
  obtain ⟨ws, hws, hs⟩ := menuRun_eq_inl_iff.mp hrun
  simp [menuRun, hws, Lib.pollLoop_append_of_poll hs, Lib.pollLoop_single, menuPoll, hconfirm,
    bind, Except.bind, pure, Except.pure]

end MenuRun

end AndonConsole
