import AndonConsole.Menus

/-!
`setDepartment` and the lower end of its list.

DOWN stops at the last department, but UP compares the cursor with 0 where
the list begins at 1. So the cursor is a capped walk without a floor, and
the menu keeps to its list exactly as long as the presses keep this walk
from falling below 1; where they do not, `showSetDepartment(0)` reads in
front of the array.
-/

namespace AndonConsole

def Button.step : Button → ℤ
  | .up => -1
  | .down => 1
  | _ => 0

theorem sum_step (p : List Button) :
    (p.map Button.step).sum = (p.count .down - p.count .up : ℤ) := by
  induction p with
  | nil => rfl
  | cons b p ih =>
      rw [List.map_cons, List.sum_cons, ih, List.count_cons, List.count_cons]
      cases b with
      | none => simp [Button.step]
      | ok => simp [Button.step]
      | up =>
          simp [Button.step]
          omega
      | down =>
          simp [Button.step]
          omega

/-- As long as it is on the list the cursor of the menu is a capped one. -/
theorem setDepartmentMove_eq {n item : ℤ} (h1 : 1 ≤ item) (hn : item ≤ n) (b : Button) :
    setDepartmentMove n b item = min n (item + b.step) := by
  cases b with
  | none =>
      simp only [setDepartmentMove, Button.step]
      omega
  | ok =>
      simp only [setDepartmentMove, Button.step]
      omega
  | up =>
      simp only [setDepartmentMove, Button.step]
      rw [if_neg (by omega)]
      omega
  | down =>
      simp only [setDepartmentMove, Button.step]
      split_ifs <;> omega

/-- The presses as a walk from the first department. -/
def deptWalk (n : ℤ) (p : List Button) : ℤ := Lib.cappedWalk n 1 (p.map Button.step)

@[simp] theorem deptWalk_nil (n : ℤ) : deptWalk n [] = 1 := rfl

theorem deptWalk_snoc (n : ℤ) (p : List Button) (b : Button) :
    deptWalk n (p ++ [b]) = min n (deptWalk n p + b.step) := by
  simp [deptWalk]

theorem deptWalk_le {n : ℤ} (hn : 1 ≤ n) (p : List Button) : deptWalk n p ≤ n :=
  Lib.cappedWalk_le hn _

/-- The presses up to `p` hold the cursor on a list of `n` departments. -/
def PressesStay (n : ℕ) (p : List Button) : Prop :=
  p.count .up ≤ p.count .down ∧ ∀ t, t <:+ p → t.count .up < n + t.count .down

instance (n : ℕ) (p : List Button) : Decidable (PressesStay n p) :=
  decidable_of_iff
    (p.count .up ≤ p.count .down ∧ ∀ t ∈ p.tails, t.count .up < n + t.count .down)
    (by simp only [PressesStay, List.mem_tails])

theorem one_le_deptWalk_iff {n : ℕ} (hn : 1 ≤ n) (p : List Button) :
    1 ≤ deptWalk n p ↔ PressesStay n p := by
  rw [deptWalk, Lib.one_le_cappedWalk_iff (by omega), sum_step, PressesStay]
  refine ⟨fun h => ?_, fun h => ?_⟩
  · obtain ⟨hfree, hcap⟩ := h
    refine ⟨by omega, fun t ht => ?_⟩
    have := hcap (t.map Button.step) (ht.map _)
    rw [sum_step] at this
    omega
  · obtain ⟨hfree, hcap⟩ := h
    refine ⟨by omega, fun t ht => ?_⟩
    obtain ⟨u, hu, rfl⟩ := List.suffix_map_iff.mp ht
    have := hcap u hu
    rw [sum_step]
    omega

/-- The menu never leaves its list: at every poll in front of OK the cursor and
all departments shown are in range, and OK stores the department whose name
is highlighted. -/
structure KeepsToList (m : Malloc) (env : SaveEnv) (deptRecords : List Deptrecord) (w : World)
    (presses : List Button) : Prop where
  inRange : ∀ p, p <+: presses → .ok ∉ p → ∃ s,
    setDepartment m env deptRecords w p = .ok (.inl s) ∧
      1 ≤ s.2 ∧ s.2 ≤ deptRecords.length ∧
      ∀ q ∈ pageLayout deptRecords.length s.2, 0 ≤ q.1 ∧ q.1 < deptRecords.length
  stores : ∀ p, p ++ [.ok] <+: presses → .ok ∉ p → ∃ r s w',
    setDepartment m env deptRecords w p = .ok (.inl s) ∧
    recordAt deptRecords (s.2 - 1) = .ok r ∧
    (∃ text, r.deptname = some text ∧ s.1.screen.Highlights text) ∧
    setDepartment m env deptRecords w (p ++ [.ok]) = .ok (.inr w') ∧
    setDeptrecord m w.department r.deptname r.deptid = .ok w'.department ∧
    (m = .ok → w'.department = r)

section SetDepartment

variable {m : Malloc} {env : SaveEnv} {w : World} {presses : List Button}

theorem KeepsToList.cursor_eq {deptRecords : List Deptrecord}
    (h : KeepsToList m env deptRecords w presses) (p : List Button) (hp : p <+: presses)
    (hok : .ok ∉ p) {s : World × ℤ}
    (hs : setDepartment m env deptRecords w p = .ok (.inl s)) :
    s.2 = deptWalk deptRecords.length p := by
  induction p using List.reverseRecOn generalizing s with
  | nil =>
      obtain ⟨ws, -, hloop⟩ := menuRun_eq_inl_iff.mp hs
      rw [Lib.pollLoop_nil, Except.ok.injEq, Sum.inl.injEq] at hloop
      rw [← hloop, deptWalk_nil]
  | append_singleton p b ih =>
      have hp' : p <+: presses := (List.prefix_append p [b]).trans hp
      have hok' : .ok ∉ p := fun hmem => hok (by simp [hmem])
      -- the rule for UP agrees with the walk only while the cursor is on the list
      obtain ⟨s₀, hs₀, h1, hn, -⟩ := h.inRange p hp' hok'
      have hmove := (menuPoll_eq_inl rfl (menuRun_snoc hs₀ hs)).2
      rw [hmove, setDepartmentMove_eq h1 hn, deptWalk_snoc, ih hp' hok' hs₀]

theorem setDepartment_atPoll (m : Malloc) (env : SaveEnv) (T : DeptTable) (w : World)
    (hne : T.records ≠ []) (hok : .ok ∉ presses)
    (hstay : ∀ p, p <+: presses → PressesStay T.records.length p) :
    ∃ s, setDepartment m env T.records w.cls presses = .ok (.inl s) ∧
      AtPoll (showSetDepartment T.records) w.toStore s ∧
      s.2 = deptWalk T.records.length presses ∧ 1 ≤ s.2 := by
  have hlen := List.length_pos_iff.mpr hne
  have hn := one_le_length hne
  refine menuRun_atPoll (C := fun p item => item = deptWalk T.records.length p ∧ 1 ≤ item) hok
    (fun _ => rfl) (showRecords_complete _ hne T.deptname_isSome le_rfl hn) ⟨rfl, le_rfl⟩ ?_
  rintro p b item hp ⟨hitem, h1⟩
  have hle : item ≤ T.records.length := hitem ▸ deptWalk_le hn p
  have hnext : setDepartmentMove T.records.length b item =
      deptWalk T.records.length (p ++ [b]) := by
    rw [setDepartmentMove_eq h1 hle, deptWalk_snoc, hitem]
  have h1' : 1 ≤ deptWalk T.records.length (p ++ [b]) :=
    (one_le_deptWalk_iff hlen _).mpr (hstay _ hp)
  exact ⟨⟨hnext, hnext ▸ h1'⟩,
    showRecords_complete _ hne T.deptname_isSome (hnext ▸ h1') (hnext ▸ deptWalk_le hn _)⟩

theorem setDepartmentConfirm_eq {deptRecords : List Deptrecord} {item : ℤ} {r : Deptrecord}
    (hr : recordAt deptRecords (item - 1) = .ok r) {d : Deptrecord}
    (hd : setDeptrecord m w.department r.deptname r.deptid = .ok d) :
    setDepartmentConfirm m deptRecords w item = .ok { w with department := d } := by
  simp [setDepartmentConfirm, length_ne_zero_of_recordAt hr, hr, hd, bind, Except.bind, pure,
    Except.pure]

/-- **Setting the department.** The menu keeps to its list exactly when, before
OK, UP is never pressed more often than DOWN, and within no stretch of the
presses by as much as the length of the list. -/
theorem setDepartment_keepsToList_iff (T : DeptTable) (hne : T.records ≠ []) (m : Malloc)
    (env : SaveEnv) (w : World) (presses : List Button) :
    KeepsToList m env T.records w.cls presses ↔
      ∀ p, p <+: presses → .ok ∉ p → PressesStay T.records.length p := by
  have hlen := List.length_pos_iff.mpr hne
  have hn := one_le_length hne
  constructor
  · intro h p hp hok
    obtain ⟨s, hs, h1, -⟩ := h.inRange p hp hok
    rw [h.cursor_eq p hp hok hs] at h1
    exact (one_le_deptWalk_iff hlen p).mp h1
  · intro hstay
    have hpoll (p : List Button) (hp : p <+: presses) (hok : .ok ∉ p) :=
      setDepartment_atPoll m env T w hne hok fun q hq =>
        hstay q (hq.trans hp) fun hmem => hok (hq.subset hmem)
    constructor
    · intro p hp hok
      obtain ⟨s, hs, -, hitem, h1⟩ := hpoll p hp hok
      have hle : s.2 ≤ T.records.length := hitem ▸ deptWalk_le hn p
      exact ⟨s, hs, h1, hle, fun q hq => pageLayout_index h1 hle hq⟩
    · intro p hp hok
      obtain ⟨s, hs, hat, hitem, h1⟩ := hpoll p ((List.prefix_append p [.ok]).trans hp) hok
      have hle : s.2 ≤ T.records.length := hitem ▸ deptWalk_le hn p
      obtain ⟨r, hr⟩ : ∃ r, recordAt T.records (s.2 - 1) = .ok r :=
        exists_recordAt (by omega) (by omega)
      obtain ⟨name, id, rfl⟩ :=
        T.populated r (List.mem_of_getElem? (recordAt_eq_ok.mp hr).2)
      obtain ⟨ws, hws, hscreen⟩ := hat.shown
      refine ⟨_, s, _, hs, hr, ?_, menuRun_ok hs (setDepartmentConfirm_eq hr rfl), ?_, ?_⟩
      · rw [hscreen]
        exact showRecords_highlights hne hws hr
      · simp
      · rintro rfl
        simp

end SetDepartment

theorem setDepartment_testDeptRecords :
    KeepsToList .ok .ok testDeptRecords.records
      World.unset.cls [.down, .up, .ok] := by
  apply (setDepartment_keepsToList_iff testDeptRecords (by simp [testDeptRecords]) .ok .ok
    World.unset [.down, .up, .ok]).mpr
  simp only [← List.mem_inits]
  decide

/-- On every list, UP on the first department shows the menu for row 0 and reads
`deptRecords[-4]`. -/
theorem setDepartment_up (T : DeptTable) (hne : T.records ≠ []) (m : Malloc) (env : SaveEnv)
    (w : World) : setDepartment m env T.records w [.up] = .error .outOfRange := by
  obtain ⟨ws, hws⟩ : ∃ ws, showSetDepartment T.records 1 = .ok ws :=
    showRecords_complete _ hne T.deptname_isSome le_rfl (one_le_length hne)
  have hup : setDepartmentMove T.records.length .up 1 = 0 := rfl
  have hzero : showSetDepartment T.records 0 = .error .outOfRange := showRecords_zero _ hne
  rw [setDepartment, menuRun, hws]
  simp [Lib.pollLoop, setDepartmentPoll, menuPoll, hup, hzero, bind, Except.bind]

theorem setDepartment_up_outOfRange :
    setDepartment .ok .ok testDeptRecords.records
        World.unset.cls [.up] =
      .error .outOfRange ∧
    ¬ KeepsToList .ok .ok testDeptRecords.records
      World.unset.cls [.up] := by
  have hfault := setDepartment_up testDeptRecords (by simp [testDeptRecords]) .ok .ok
    World.unset.cls
  refine ⟨hfault, fun h => ?_⟩
  obtain ⟨s, hs, -⟩ := h.inRange [.up] (List.prefix_refl _) (by decide)
  rw [hfault] at hs
  cases hs

end AndonConsole
