import AndonConsole.Persistence
import AndonConsole.SetDepartment

/-!
Saves that fail.

OK in both menus writes RAM first and saves after that, and a save that fails
is logged and given up. So RAM always holds the choice; flash holds it where
the `malloc` of the text and the three NVS operations have all succeeded, and
is as it was before otherwise. Which of the two it is shows at the next
power-up only.
-/

namespace AndonConsole

/-- A power-up loads exactly the configuration of `st`. -/
def Loads (flash : Flash) (st : Store) : Prop :=
  ∃ st', boot flash = .ok st' ∧ st'.calls = st.calls ∧ st'.department = st.department

def CleanDepts (deptRecords : List Deptrecord) : Prop :=
  ∀ r ∈ deptRecords, ∃ n i, r = ⟨some n, some i⟩ ∧
    ∀ s ∈ [n, i], s.IsField ∧ s ≠ CString.space

/-- What comes of the choice that makes `new` out of `old`. -/
structure SavesOrKeeps (env : SaveEnv) (old new : Store) (w' : World) : Prop where
  ram : w'.calls = new.calls ∧ w'.department = new.department
  saved : env = .ok → Loads w'.flash new
  kept : env ≠ .ok → w'.flash = old.flash ∧ Loads w'.flash old
  agree_iff : Loads w'.flash w'.toStore ↔
    env = .ok ∨ (old.calls = new.calls ∧ old.department = new.department)

section Loads

variable {flash : Flash} {st st' old new : Store} {env : SaveEnv} {w' : World}

theorem loads_iff :
    Loads flash st ↔
      (CallConfig.parse (initialised flash .nvsCalls)).toCalls = st.calls ∧
        ∃ e : DeptEntry, DeptEntry.parse (initialised flash .nvsDept) = some e ∧
          e.toRecord = st.department := by
  rw [Loads, boot_eq]
  cases DeptEntry.parse (initialised flash .nvsDept) <;> simp

theorem Loads.congr (h : Loads flash st) (hcalls : st.calls = st'.calls)
    (hdept : st.department = st'.department) : Loads flash st' := by
  obtain ⟨st₁, hboot, h₁, h₂⟩ := h
  exact ⟨st₁, hboot, h₁.trans hcalls, h₂.trans hdept⟩

theorem Loads.unique (h : Loads flash st) (h' : Loads flash st') :
    st.calls = st'.calls ∧ st.department = st'.department := by
  obtain ⟨st₁, hboot, hcalls, hdept⟩ := h
  obtain ⟨st₂, hboot', hcalls', hdept'⟩ := h'
  rw [hboot, Except.ok.injEq] at hboot'
  subst hboot'
  exact ⟨hcalls.symm.trans hcalls', hdept.symm.trans hdept'⟩

/-- A save that stores `new` completely or does nothing at all, with RAM written
before it. -/
theorem SavesOrKeeps.of_save (save : SaveEnv → Store → Store) (hold : Loads old.flash old)
    (hflash : new.flash = old.flash) (hw' : w'.toStore = save env new)
    (hram : (save .ok new).calls = new.calls ∧ (save .ok new).department = new.department)
    (hsaved : Loads (save .ok new).flash new) (hkept : env ≠ .ok → save env new = new) :
    SavesOrKeeps env old new w' := by
  by_cases henv : env = .ok
  · subst henv
    have hagree : Loads w'.flash w'.toStore := by
      rw [hw']
      exact hsaved.congr hram.1.symm hram.2.symm
    refine ⟨?_, fun _ => ?_, fun h => absurd rfl h, by simp [hagree]⟩
    · rw [hw']
      exact hram
    · rw [hw']
      exact hsaved
  · rw [hkept henv] at hw'
    refine ⟨by simp [hw'], fun h => absurd h henv, fun _ => ?_, ?_⟩
    · rw [hw', hflash]
      exact ⟨rfl, hold⟩
    · rw [hw', hflash]
      simp only [henv, false_or]
      exact ⟨hold.unique, fun h => hold.congr h.1 h.2⟩

end Loads

/-! ### The two saves -/

section Saves

variable {env : SaveEnv} {flash : Flash} {st : Store} {w : World}

theorem saveStringToNvs_of_ne_ok {env : SaveEnv} (henv : env ≠ .ok) (hmalloc : env.malloc = true)
    (key : Key) (value : CString) (flash : Flash) :
    saveStringToNvs env key value flash = flash := by
  obtain ⟨malloc, nvsOpen, nvsSetStr, nvsCommit⟩ := env
  rw [saveStringToNvs]
  split_ifs with hopen hset hcommit
  · exact absurd (by simp_all [SaveEnv.ok]) henv
  all_goals rfl

theorem saveCalls_of_ne_ok (henv : env ≠ .ok) (st : Store) : saveCalls env st = st := by
  rw [saveCalls]
  split_ifs with hmalloc
  · rw [saveStringToNvs_of_ne_ok henv hmalloc]
  · rfl

theorem saveDepts_of_ne_ok (henv : env ≠ .ok) (st : Store) : saveDepts env st = st := by
  rw [saveDepts]
  split_ifs with hmalloc
  · rw [saveStringToNvs_of_ne_ok henv hmalloc]
  · rfl

theorem DeptEntry.parse_serializedDept (e : DeptEntry) :
    DeptEntry.parse (serializedDept e.toRecord) = some e := by
  rw [DeptEntry.parse_eq_some, fields_serializedDept]
  simp [DeptEntry.toRecord, orDefault, CString.fields_of_isField e.deptname.isField,
    CString.fields_of_isField e.deptid.isField]

/-- What a completed save of the calls stores is loaded with the department that
was there. -/
theorem loads_saveCalls (h : Loads st.flash st) (c : CallConfig) :
    Loads (saveCalls .ok { st with calls := c.toCalls }).flash
      { st with calls := c.toCalls } := by
  obtain ⟨-, hdept⟩ := loads_iff.mp h
  rw [loads_iff, saveCalls_flash]
  refine ⟨?_, by simpa [initialised] using hdept⟩
  simp [initialised, CallConfig.parse_serializedCalls]

theorem loads_saveDepts (h : Loads st.flash st) (e : DeptEntry) :
    Loads (saveDepts .ok { st with department := e.toRecord }).flash
      { st with department := e.toRecord } := by
  obtain ⟨hcalls, -⟩ := loads_iff.mp h
  rw [loads_iff]
  refine ⟨by simpa [saveDepts, initialised] using hcalls, e, ?_, rfl⟩
  simp [saveDepts, initialised, DeptEntry.parse_serializedDept]

end Saves

/-! ### OK in the two menus -/

section Choices

variable {T : Tables} {env : SaveEnv} {w : World} {presses : List Button} {s : World × ℤ}

theorem CleanDepts.exists_entry {deptRecords : List Deptrecord} (hclean : CleanDepts deptRecords)
    {k : ℤ} {r : Deptrecord} (hr : recordAt deptRecords k = .ok r) :
    ∃ e : DeptEntry, r = e.toRecord := by
  obtain ⟨-, hget⟩ := recordAt_eq_ok.mp hr
  obtain ⟨n, i, rfl, hstr⟩ := hclean r (List.mem_of_getElem? hget)
  have hn := hstr n (by simp)
  have hi := hstr i (by simp)
  exact ⟨⟨⟨n, hn.1, hn.2⟩, ⟨i, hi.1, hi.2⟩⟩, rfl⟩

theorem chooseCalls_savesOrKeeps (hclean : CleanCalls T.callRecords)
    (hagree : Loads w.flash w.toStore) {i : Fin 3} {r : Callrecord}
    (hs : chooseCalls .ok env T.callRecords i w presses = .ok (.inl s))
    (hr : recordAt T.callRecords (s.2 - 1) = .ok r) :
    ∃ w', chooseCalls .ok env T.callRecords i w (presses ++ [.ok]) = .ok (.inr w') ∧
      SavesOrKeeps env w.toStore { w.toStore with calls := Function.update w.calls i r } w' := by
  have hne := length_ne_zero_of_recordAt hr
  have hstore : s.1.toStore = w.toStore := menuRun_of_ok hs
  obtain ⟨e, rfl⟩ := hclean.exists_entry hr
  obtain ⟨hram, -⟩ := loads_iff.mp hagree
  have hcfg : Function.update w.calls i e.toRecord = CallConfig.toCalls
      (Function.update (CallConfig.parse (initialised w.flash .nvsCalls)) i (some e)) := by
    rw [CallConfig.toCalls_update, hram]
  refine ⟨_, menuRun_ok hs ((chooseCallsConfirm_eq_ok hne).mpr ⟨_, hr, rfl⟩),
    SavesOrKeeps.of_save saveCalls hagree rfl ?_ ⟨rfl, rfl⟩ ?_
      fun henv => saveCalls_of_ne_ok henv _⟩
  · rw [chooseCallsLeave, if_pos hne]
    simp [hstore, CallEntry.toRecord]
  · rw [hcfg]
    exact loads_saveCalls hagree _

theorem setDepartment_savesOrKeeps (hclean : CleanDepts T.deptRecords)
    (hagree : Loads w.flash w.toStore) {r : Deptrecord}
    (hs : setDepartment .ok env T.deptRecords w presses = .ok (.inl s))
    (hr : recordAt T.deptRecords (s.2 - 1) = .ok r) :
    ∃ w', setDepartment .ok env T.deptRecords w (presses ++ [.ok]) = .ok (.inr w') ∧
      SavesOrKeeps env w.toStore { w.toStore with department := r } w' := by
  have hne := length_ne_zero_of_recordAt hr
  have hstore : s.1.toStore = w.toStore := menuRun_of_ok hs
  obtain ⟨e, rfl⟩ := hclean.exists_entry hr
  refine ⟨_, menuRun_ok hs (setDepartmentConfirm_eq hr rfl),
    SavesOrKeeps.of_save saveDepts hagree rfl ?_ ⟨rfl, rfl⟩ (loads_saveDepts hagree e)
      fun henv => saveDepts_of_ne_ok henv _⟩
  rw [setDepartmentLeave, if_pos hne]
  simp [hstore, DeptEntry.toRecord]

end Choices

/-- **Failed saves.** From a configuration that flash agrees with, OK in either menu on any
record in use leaves RAM with the choice, and flash with it exactly where all four
operations of the save have succeeded; else flash keeps the old configuration. -/
theorem choice_savesOrKeeps (T : Tables) (hcalls : CleanCalls T.callRecords)
    (hdepts : CleanDepts T.deptRecords) (w : World) (hagree : Loads w.flash w.toStore)
    (env : SaveEnv) (presses : List Button) (s : World × ℤ) :
    (∀ i r, chooseCalls .ok env T.callRecords i w presses = .ok (.inl s) →
      recordAt T.callRecords (s.2 - 1) = .ok r →
      ∃ w', chooseCalls .ok env T.callRecords i w (presses ++ [.ok]) = .ok (.inr w') ∧
        SavesOrKeeps env w.toStore { w.toStore with calls := Function.update w.calls i r } w') ∧
    ∀ r, setDepartment .ok env T.deptRecords w presses = .ok (.inl s) →
      recordAt T.deptRecords (s.2 - 1) = .ok r →
      ∃ w', setDepartment .ok env T.deptRecords w (presses ++ [.ok]) = .ok (.inr w') ∧
        SavesOrKeeps env w.toStore { w.toStore with department := r } w' :=
  ⟨fun _ _ hs hr => chooseCalls_savesOrKeeps hcalls hagree hs hr,
    fun _ hs hr => setDepartment_savesOrKeeps hdepts hagree hs hr⟩

theorem cleanDepts_testDeptRecords : CleanDepts testDeptRecords.records := by
  intro r hr
  simp only [testDeptRecords, List.mem_cons, List.not_mem_nil, or_false] at hr
  rcases hr with rfl | rfl
  · exact ⟨_, _, rfl, by decide⟩
  · exact ⟨_, _, rfl, by decide⟩

/-- The console as it comes up from `demoFlash`. -/
def demoWorld : World where
  calls := ![⟨some (.ofString "Blue"), some (.ofString "Jam"), some (.ofString "Ann")⟩,
    .unset, .unset]
  department := ⟨some (.ofString "Department 2"), some (.ofString "2")⟩
  flash := demoFlash
  screen := .blank

theorem demoWorld_loads : Loads demoWorld.flash demoWorld.toStore := by
  rw [loads_iff]
  refine ⟨?_, ⟨⟨.ofString "Department 2", by decide, by decide⟩,
    ⟨.ofString "2", by decide, by decide⟩⟩, ?_, rfl⟩
  · decide
  · rfl

theorem choice_savesOrKeeps_demo :
    (∃ w', chooseCalls .ok .ok testCallRecords.records 0 demoWorld [.down, .ok] =
        .ok (.inr w') ∧ Loads w'.flash w'.toStore) ∧
      ∃ w', setDepartment .ok .ok testDeptRecords.records demoWorld [.ok] = .ok (.inr w') ∧
        Loads w'.flash w'.toStore := by
  have hchoice := choice_savesOrKeeps demoTables cleanCalls_testCallRecords
    cleanDepts_testDeptRecords demoWorld demoWorld_loads .ok
  refine ⟨?_, ?_⟩
  · obtain ⟨w', hrun, hw'⟩ := (hchoice [.down] _).1 0 _ rfl rfl
    exact ⟨w', hrun, hw'.agree_iff.mpr (.inl rfl)⟩
  · obtain ⟨w', hrun, hw'⟩ := (hchoice [] _).2 _ rfl rfl
    exact ⟨w', hrun, hw'.agree_iff.mpr (.inl rfl)⟩

def commitFails : SaveEnv := ⟨true, true, true, false⟩

/-- OK on the first call, and the commit fails: RAM holds the new call and the flash
the old one. -/
theorem commitFails_diverges :
    CleanCalls testCallRecords.records ∧ Loads demoWorld.flash demoWorld.toStore ∧
      ∃ w', chooseCalls .ok commitFails testCallRecords.records 0 demoWorld [.ok] =
          .ok (.inr w') ∧
        some (w'.calls 0) = testCallRecords.records[0]? ∧
        w'.flash = demoWorld.flash ∧ ¬ Loads w'.flash w'.toStore := by
  refine ⟨cleanCalls_testCallRecords, demoWorld_loads, _, rfl, rfl, rfl, ?_⟩
  intro h
  have hcalls := congrFun (h.unique demoWorld_loads).1 0
  exact absurd hcalls (by decide)

end AndonConsole
