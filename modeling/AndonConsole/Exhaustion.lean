import AndonConsole.Console

/-!
Allocations that fail.

Both setters allocate their fields one by one and keep what they got, so a
record comes out whole only where the allocations of one call agree.
`showSetCalls` tests one field of a slot and shows another: a slot that has
its status and not its description is shown by a NULL pointer. What keeps the
menu safe over a run is that no status is ever allocated without the two texts
that belong to it.
-/

namespace AndonConsole

/-- The status is allocated only where both other texts are. -/
def Malloc.CoversStatus (m : Malloc) : Prop := m 0 = true → m 1 = true ∧ m 2 = true

/-- A slot with a status has the two texts that belong to it. -/
def Callrecord.IsShown (r : Callrecord) : Prop :=
  r.status ≠ none → r.mancalldesc ≠ none ∧ r.mancallto ≠ none

theorem Callrecord.IsWhole.isShown {r : Callrecord} (h : r.IsWhole) : r.IsShown := by
  rcases h with rfl | ⟨s, d, t, rfl⟩
  · exact fun h => absurd rfl h
  · exact fun _ => ⟨by simp, by simp⟩

/-! ### One setter -/

section Setters

variable {m : Malloc}

@[simp] theorem Malloc.copy_eq_some_iff {k : ℕ} {s t : CString} :
    m.copy k s = some t ↔ m k = true ∧ s = t := by
  rw [copy]
  split_ifs with h <;> simp [h]

@[simp] theorem Malloc.copy_eq_none_iff {k : ℕ} {s : CString} :
    m.copy k s = none ↔ m k = false := by
  rw [copy]
  split_ifs with h <;> simp [h]

/-- A call record comes out new, unset or unchanged exactly where its three
allocations agree. -/
theorem setCallrecord_whole_iff {record : Callrecord} (hrecord : record.IsWhole)
    (s d t : CString) :
    (setCallrecord m record (some s) (some d) (some t) = ⟨some s, some d, some t⟩ ∨
        setCallrecord m record (some s) (some d) (some t) = .unset ∨
        setCallrecord m record (some s) (some d) (some t) = record) ↔
      m 0 = m 1 ∧ m 1 = m 2 := by
  simp only [setCallrecord]
  constructor
  · -- a whole record has all of its fields, or none
    intro h
    have hwhole : (⟨m.copy 0 s, m.copy 1 d, m.copy 2 t⟩ : Callrecord).IsWhole := by
      rcases h with h | h | h
      · exact h ▸ .inr ⟨s, d, t, rfl⟩
      · exact .inl h
      · exact h ▸ hrecord
    rcases hwhole with hunset | ⟨s', d', t', hset⟩
    · simp only [Callrecord.unset, Callrecord.mk.injEq, Malloc.copy_eq_none_iff] at hunset
      simp [hunset]
    · simp only [Callrecord.mk.injEq, Malloc.copy_eq_some_iff] at hset
      simp [hset]
  · rintro ⟨h01, h12⟩
    cases h2 : m 2 with
    | false => exact .inr (.inl (by simp [Callrecord.unset, h01, h12, h2]))
    | true => exact .inl (by simp [h01, h12, h2])

theorem setDeptrecord_whole_iff {record : Deptrecord} (hrecord : record.IsWhole)
    (n i : CString) :
    (∃ r, setDeptrecord m record (some n) (some i) = .ok r ∧
        (r = ⟨some n, some i⟩ ∨ r = .unset ∨ r = record)) ↔ m 0 = m 1 := by
  simp only [setDeptrecord_some, Except.ok.injEq, exists_eq_left']
  constructor
  · intro h
    have hwhole : (⟨m.copy 0 n, m.copy 1 i⟩ : Deptrecord).IsWhole := by
      rcases h with h | h | h
      · exact h ▸ .inr ⟨n, i, rfl⟩
      · exact .inl h
      · exact h ▸ hrecord
    rcases hwhole with hunset | ⟨n', i', hset⟩
    · simp only [Deptrecord.unset, Deptrecord.mk.injEq, Malloc.copy_eq_none_iff] at hunset
      simp [hunset]
    · simp only [Deptrecord.mk.injEq, Malloc.copy_eq_some_iff] at hset
      simp [hset]
  · intro h01
    cases h1 : m 1 with
    | false => exact .inr (.inl (by simp [Deptrecord.unset, h01, h1]))
    | true => exact .inl (by simp [h01, h1])

theorem setCallrecord_isShown_iff (record : Callrecord) (s d t : CString) :
    (setCallrecord m record (some s) (some d) (some t)).IsShown ↔ m.CoversStatus := by
  simp [setCallrecord, Callrecord.IsShown, Malloc.CoversStatus]

/-- With a NULL argument the record is kept, and shown if it was. -/
theorem setCallrecord_isShown (hm : m.CoversStatus) {record : Callrecord}
    (hrecord : record.IsShown) (status desc mancallto : Option CString) :
    (setCallrecord m record status desc mancallto).IsShown := by
  unfold setCallrecord
  split
  · exact (setCallrecord_isShown_iff record _ _ _).mpr hm
  · exact hrecord

end Setters

/-! ### The menu of the slots -/

theorem drawTexts_eq_ok_iff {rows : List (Option CString × ℕ × Bool)} :
    (∃ ws, drawTexts rows = .ok ws) ↔ ∀ p ∈ rows, p.1 ≠ none := by
  rw [drawTexts, Lib.exists_mapM_eq_ok_iff]
  refine forall₂_congr fun p _ => ?_
  simp only [dispWrite_eq_ok]
  rw [ne_eq, ← ne_eq, Option.ne_none_iff_exists']
  refine ⟨fun h => ?_, fun h => ?_⟩
  · obtain ⟨w, htext, -⟩ := h
    exact ⟨w.distring, htext⟩
  · obtain ⟨s, hs⟩ := h
    exact ⟨⟨s, 5, p.2.1, p.2.2⟩, hs, rfl, rfl, rfl⟩

theorem callMenuText_ne_none_iff {r : Callrecord} {default : String} :
    callMenuText r default ≠ none ↔ (r.status ≠ none → r.mancalldesc ≠ none) := by
  rw [callMenuText]
  split_ifs with h <;> simp [h]

theorem showSetCalls_eq_ok_iff {calls : Calls} {item : ℤ} :
    (∃ ws, showSetCalls calls item = .ok ws) ↔
      ∀ i, (calls i).status ≠ none → (calls i).mancalldesc ≠ none := by
  have hslots : (∀ i, (calls i).status ≠ none → (calls i).mancalldesc ≠ none) ↔
      callMenuText (calls 0) "Choose Call 1" ≠ none ∧
        callMenuText (calls 1) "Choose Call 2" ≠ none ∧
        callMenuText (calls 2) "Choose Call 3" ≠ none := by
    simp only [callMenuText_ne_none_iff]
    refine ⟨fun h => ⟨h 0, h 1, h 2⟩, fun h i => ?_⟩
    obtain ⟨h0, h1, h2⟩ := h
    match i with
    | 0 => exact h0
    | 1 => exact h1
    | 2 => exact h2
  rw [hslots, showSetCalls]
  generalize callMenuText (calls 0) "Choose Call 1" = call1MenuText
  generalize callMenuText (calls 1) "Choose Call 2" = call2MenuText
  generalize callMenuText (calls 2) "Choose Call 3" = call3MenuText
  split_ifs
  all_goals
    rw [drawTexts_eq_ok_iff]
    simp
  all_goals tauto

/-! ### Runs -/

inductive Operation
  | chooseCalls (callIndex : Fin 3) (presses : List Button)
  | setDepartment (presses : List Button)
  | retreiveCalls
  | reset

/-- One operation, whatever the flash and the allocations answer; those of the
call records are among the `ok` ones. A reset keeps the flash only. -/
inductive Performs (T : Tables) (ok : Malloc → Prop) : World → Operation → World → Prop
  | chooseCalls {m : Malloc} {env : SaveEnv} {callIndex : Fin 3} {presses : List Button}
      {w w' : World} :
      ok m → chooseCalls m env T.callRecords callIndex w presses = .ok (.inr w') →
      Performs T ok w (.chooseCalls callIndex presses) w'
  | setDepartment {m : Malloc} {env : SaveEnv} {presses : List Button} {w w' : World} :
      setDepartment m env T.deptRecords w presses = .ok (.inr w') →
      Performs T ok w (.setDepartment presses) w'
  | retreiveCalls {env : ReadEnv} {m : Fin 3 → Malloc} {w : World} :
      (∀ i, ok (m i)) →
      Performs T ok w .retreiveCalls { w with toStore := retreiveCalls env m w.toStore }
  | reset {screen : Screen} {w : World} :
      Performs T ok w .reset { Store.powerOn w.flash with screen }

section Runs

variable {T : Tables} {m : Malloc} {env : SaveEnv} {w w' : World} {presses : List Button}

theorem chooseCalls_calls {callRecords : List Callrecord} {callIndex : Fin 3}
    (h : chooseCalls m env callRecords callIndex w presses = .ok (.inr w')) :
    w'.calls = w.calls ∨ ∃ r ∈ callRecords, w'.calls = Function.update w.calls callIndex
      (setCallrecord m (w.calls callIndex) r.status r.mancalldesc r.mancallto) := by
  obtain ⟨w₁, item, w₂, hw₁, hconfirm, rfl⟩ := menuRun_of_ok h
  rw [chooseCallsLeave_calls, ← congrArg Store.calls hw₁]
  by_cases hne : callRecords.length ≠ 0
  · obtain ⟨r, hr, rfl⟩ := (chooseCallsConfirm_eq_ok hne).mp hconfirm
    exact .inr ⟨r, List.mem_of_getElem? (recordAt_eq_ok.mp hr).2, rfl⟩
  · rw [chooseCallsConfirm, if_neg hne] at hconfirm
    cases hconfirm
    exact .inl rfl

theorem setDepartment_calls {deptRecords : List Deptrecord}
    (h : setDepartment m env deptRecords w presses = .ok (.inr w')) : w'.calls = w.calls := by
  obtain ⟨w₁, item, w₂, hw₁, hconfirm, rfl⟩ := menuRun_of_ok h
  obtain ⟨d, rfl⟩ := setDepartmentConfirm_frame hconfirm
  rw [(setDepartmentLeave_calls env deptRecords _).1, ← congrArg Store.calls hw₁]

theorem retreiveCalls_isShown {env : ReadEnv} {m : Fin 3 → Malloc}
    (hm : ∀ i, (m i).CoversStatus) {st : Store} (hst : ∀ i, (st.calls i).IsShown) (i : Fin 3) :
    ((retreiveCalls env m st).calls i).IsShown := by
  rw [retreiveCalls]
  split
  · exact hst i
  · split_ifs
    · simp only [setFromTokens_id]
      exact setCallrecord_isShown (hm i) (hst i) _ _ _
    · exact hst i

theorem Performs.isShown {op : Operation} (h : Performs T Malloc.CoversStatus w op w')
    (hw : ∀ i, (w.calls i).IsShown) (i : Fin 3) : (w'.calls i).IsShown := by
  cases h with
  | @chooseCalls m _ j _ _ _ hm hrun =>
      rcases chooseCalls_calls hrun with hcalls | ⟨r, -, hcalls⟩
      · rw [hcalls]
        exact hw i
      · rw [hcalls]
        by_cases hij : i = j
        · subst hij
          rw [Function.update_self]
          exact setCallrecord_isShown hm (hw i) _ _ _
        · rw [Function.update_of_ne hij]
          exact hw i
  | setDepartment hrun =>
      rw [setDepartment_calls hrun]
      exact hw i
  | retreiveCalls hm => exact retreiveCalls_isShown hm hw i
  | reset => exact Callrecord.IsWhole.isShown (.inl rfl)

end Runs

/-- **Memory exhaustion.** Each setter leaves its record new, unset or unchanged exactly
where the allocations of the call agree, and a slot is safe to show exactly where the
status is not allocated alone; over runs of such calls no slot is shown by a NULL text. -/
theorem setters_whole_iff (T : Tables) :
    (∀ (m : Malloc) (record : Callrecord) (s d t : CString), record.IsWhole →
      ((setCallrecord m record (some s) (some d) (some t) = ⟨some s, some d, some t⟩ ∨
          setCallrecord m record (some s) (some d) (some t) = .unset ∨
          setCallrecord m record (some s) (some d) (some t) = record) ↔
        m 0 = m 1 ∧ m 1 = m 2) ∧
      ((setCallrecord m record (some s) (some d) (some t)).IsShown ↔ m.CoversStatus)) ∧
    (∀ (m : Malloc) (record : Deptrecord) (n i : CString), record.IsWhole →
      ((∃ r, setDeptrecord m record (some n) (some i) = .ok r ∧
          (r = ⟨some n, some i⟩ ∨ r = .unset ∨ r = record)) ↔ m 0 = m 1)) ∧
    ∀ (w₀ w : World) (ops : List Operation), (∀ i, (w₀.calls i).IsWhole) →
      Lib.Run (Performs T Malloc.CoversStatus) w₀ ops w →
      (∀ i, (w.calls i).IsShown) ∧ ∀ item, ∃ ws, showSetCalls w.calls item = .ok ws := by
  refine ⟨fun m record s d t hrecord =>
      ⟨setCallrecord_whole_iff hrecord s d t, setCallrecord_isShown_iff record s d t⟩,
    fun m record n i hrecord => setDeptrecord_whole_iff hrecord n i,
    fun w₀ w ops hstart hrun => ?_⟩
  have hshown : ∀ i, (w.calls i).IsShown :=
    hrun.invariant (I := fun _ w => ∀ i, (w.calls i).IsShown) (fun i => (hstart i).isShown)
      fun _ _ _ _ hw hstep => hstep.isShown hw
  exact ⟨hshown, fun item => showSetCalls_eq_ok_iff.mpr fun i hi => (hshown i hi).1⟩

/-- No memory at all for the two setters, and enough for the first record of the demo
build, which is chosen for the last slot. -/
theorem setters_whole_iff_demo :
    (setCallrecord (fun _ => false) .unset (some (.ofString "Red")) (some (.ofString "Jam"))
      (some (.ofString "Ann"))).IsShown ∧
    (∃ r, setDeptrecord (fun _ => false) .unset (some (.ofString "Assembly"))
      (some (.ofString "1")) = .ok r ∧
      (r = ⟨some (.ofString "Assembly"), some (.ofString "1")⟩ ∨ r = .unset ∨ r = .unset)) ∧
    ∃ w : World, some (w.calls 2) = testCallRecords.records[0]? ∧
      (∀ i, (w.calls i).IsShown) ∧ ∀ item, ∃ ws, showSetCalls w.calls item = .ok ws := by
  obtain ⟨hcall, hdept, hruns⟩ := setters_whole_iff demoTables
  have hm : Malloc.ok.CoversStatus := fun _ => ⟨rfl, rfl⟩
  obtain ⟨w, hrun, hslot⟩ : ∃ w, Lib.Run (Performs demoTables Malloc.CoversStatus) World.unset
      [.chooseCalls 2 [.ok]] w ∧ some (w.calls 2) = testCallRecords.records[0]? :=
    ⟨_, .single (@Performs.chooseCalls _ _ .ok .ok _ _ _ _ hm rfl), rfl⟩
  refine ⟨?_, ?_, w, hslot, hruns World.unset w _ (fun _ => .inl rfl) hrun⟩
  · exact (hcall (fun _ => false) .unset _ _ _ (.inl rfl)).2.mpr fun h => nomatch h
  · exact (hdept (fun _ => false) .unset _ _ (.inl rfl)).mpr rfl

def firstOnly : Malloc := fun k => k == 0

/-- The slot chosen has a status without a description, and its menu passes NULL to
`disp_write`. -/
theorem firstOnly_not_whole :
    setCallrecord firstOnly .unset (some (.ofString "Red")) (some (.ofString "Jam"))
      (some (.ofString "Ann")) = ⟨some (.ofString "Red"), none, none⟩ ∧
    ∃ w, Lib.Run (Performs demoTables fun _ => True) World.unset [.chooseCalls 0 [.ok]] w ∧
      (w.calls 0).status ≠ none ∧ (w.calls 0).mancalldesc = none ∧
      showSetCalls w.calls 1 = .error .nullAccess := by
  refine ⟨rfl, _,
    .single (@Performs.chooseCalls _ _ firstOnly .ok _ _ _ _ trivial rfl), ?_, rfl, rfl⟩
  simp [Malloc.copy, firstOnly, setCallrecord]

end AndonConsole
