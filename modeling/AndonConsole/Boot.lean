import AndonConsole.Config

/-!
Power-up and Reset All.

`retreiveDepts` hands what it has read to `setDeptrecord`, which does not
check for NULL. So the console starts only from a stored department with
two fields that are not placeholders, and not from the value a new device
is given; and `resetAll`, which calls the same setter with two NULL
pointers, never completes.
-/

namespace AndonConsole

/-! ### Loading the department -/

/-- `retreiveDepts` after a reset, with `s` stored under `"nvs_dept"`. -/
def bootDept (flash : Flash) (s : CString) : Exec Store :=
  retreiveDepts .ok .ok (Store.powerOn (Function.update flash .nvsDept (some s)))

/-- The load runs to its end and leaves no half set department. -/
def BootsSafely (flash : Flash) (s : CString) : Prop :=
  ∃ st, bootDept flash s = .ok st ∧ st.department.IsWhole

/-- The name and the id, a missing one standing as the placeholder, have at
least two fields between them, and the first two are not placeholders. -/
def DeptBootable (d : Deptrecord) : Prop :=
  ∃ n i rest, (orDefault d.deptname).fields ++ (orDefault d.deptid).fields = n :: i :: rest ∧
    n ≠ CString.space ∧ i ≠ CString.space

theorem bootsSafely_iff_parse (flash : Flash) (s : CString) :
    BootsSafely flash s ↔ ∃ e : DeptEntry, DeptEntry.parse s = some e := by
  have hflash : (Store.powerOn (Function.update flash .nvsDept (some s))).flash .nvsDept =
      some s := by simp [Store.powerOn]
  have hboot := retreiveDepts_ok hflash
  rw [BootsSafely, bootDept, hboot]
  cases DeptEntry.parse s with
  | none => simp
  | some e =>
      constructor
      · exact fun _ => ⟨e, rfl⟩
      · exact fun _ => ⟨_, rfl, .inr ⟨_, _, rfl⟩⟩

theorem exists_parse_iff (s : CString) :
    (∃ e : DeptEntry, DeptEntry.parse s = some e) ↔
      ∃ n i rest, s.fields = n :: i :: rest ∧ n ≠ CString.space ∧ i ≠ CString.space := by
  simp only [DeptEntry.parse_eq_some]
  refine ⟨fun h => ?_, fun h => ?_⟩
  · obtain ⟨e, hn, hi⟩ := h
    rcases hs : s.fields with _ | ⟨n, _ | ⟨i, rest⟩⟩
    · simp [hs] at hn
    · simp [hs] at hi
    · simp only [hs, List.getElem?_cons_zero, List.getElem?_cons_succ, Option.some.injEq] at hn hi
      subst hn hi
      exact ⟨_, _, rest, rfl, e.deptname.notBlank, e.deptid.notBlank⟩
  · obtain ⟨n, i, rest, hs, hn, hi⟩ := h
    have hfield (f : CString) (hf : f ∈ [n, i]) : f.IsField := by
      apply CString.isField_of_mem_fields (s := s)
      rw [hs]
      simp only [List.mem_cons, List.not_mem_nil, or_false] at hf
      rcases hf with rfl | rfl <;> simp
    exact ⟨⟨⟨n, hfield n (by simp), hn⟩, ⟨i, hfield i (by simp), hi⟩⟩, by simp [hs], by simp [hs]⟩

theorem blankDept_eq : blankDept = serializedDept .unset := by decide

theorem not_deptBootable_unset : ¬ DeptBootable .unset := by
  rintro ⟨n, i, rest, hfields, hn, -⟩
  have hspaces : (orDefault Deptrecord.unset.deptname).fields ++
      (orDefault Deptrecord.unset.deptid).fields = [CString.space, CString.space] := by decide
  rw [hspaces, List.cons.injEq] at hfields
  exact hn hfields.1.symm

/-- **Starting up.** From the text a department was saved as, the console starts
exactly when the department has two fields that are not placeholders; from the
blank value of a new device it never starts. -/
theorem bootsSafely_iff (flash : Flash) :
    ¬ BootsSafely flash blankDept ∧
      ∀ d : Deptrecord, BootsSafely flash (serializedDept d) ↔ DeptBootable d := by
  have hsaved (d : Deptrecord) : BootsSafely flash (serializedDept d) ↔ DeptBootable d := by
    rw [bootsSafely_iff_parse, exists_parse_iff, fields_serializedDept, DeptBootable]
  refine ⟨?_, hsaved⟩
  rw [blankDept_eq, hsaved]
  exact not_deptBootable_unset

theorem parse_blankDept : DeptEntry.parse blankDept = none := by
  rfl

/-- On a new device the load passes NULL to `strlen`. -/
theorem bootDept_blankDept :
    bootDept (fun _ => none) blankDept = .error .nullAccess ∧
      ¬ BootsSafely (fun _ => none) blankDept := by
  have hfault : bootDept (fun _ => none) blankDept = .error .nullAccess := by
    rw [bootDept, retreiveDepts_ok (s := blankDept) (by simp [Store.powerOn]), parse_blankDept]
  refine ⟨hfault, ?_⟩
  rintro ⟨st, hst, -⟩
  rw [hfault] at hst
  cases hst

/-! ### The whole boot -/

def Key.blank : Key → CString
  | .nvsCalls => blankCalls
  | .nvsDept => blankDept

/-- The stored strings once `nvs_initial_alloc` has run for both keys. -/
def initialised (flash : Flash) (key : Key) : CString := (flash key).getD key.blank

theorem nvsInitialAlloc_ok (key : Key) (value : CString) (flash : Flash) :
    nvsInitialAlloc .ok key value flash =
      Function.update flash key (some ((flash key).getD value)) := by
  cases h : flash key with
  | none => simp [nvsInitialAlloc, SaveEnv.ok, saveStringToNvs, h]
  | some v => simp [nvsInitialAlloc, SaveEnv.ok, h]

theorem boot_eq (flash : Flash) :
    boot flash =
      match DeptEntry.parse (initialised flash .nvsDept) with
      | none => .error .nullAccess
      | some e => .ok
          { calls := (CallConfig.parse (initialised flash .nvsCalls)).toCalls
            department := e.toRecord
            flash := fun key => some (initialised flash key) } := by
  set flash₁ : Flash := Function.update flash .nvsCalls (some (initialised flash .nvsCalls))
    with hflash₁
  have hcalls : (retreiveCalls .ok (fun _ => .ok) (Store.powerOn flash₁)).calls =
      (CallConfig.parse (initialised flash .nvsCalls)).toCalls :=
    retreiveCalls_powerOn (by simp [hflash₁])
  have hflash₂ : nvsInitialAlloc .ok .nvsDept blankDept flash₁ =
      fun key => some (initialised flash key) := by
    rw [nvsInitialAlloc_ok]
    funext key
    cases key <;> simp [hflash₁, initialised, Key.blank]
  -- the two keys are initialised one after the other, with a load between them
  have hfirst : nvsInitialAlloc .ok .nvsCalls blankCalls flash = flash₁ :=
    nvsInitialAlloc_ok .nvsCalls blankCalls flash
  have hboot : boot flash = retreiveDepts .ok .ok
      { retreiveCalls .ok (fun _ => .ok) (Store.powerOn flash₁) with
        flash := fun key => some (initialised flash key) } := by
    simp [boot, bootWith, BootEnv.ok, nvsFlashInit, hfirst, hflash₂, Store.powerOn]
  rw [hboot, retreiveDepts_ok (s := initialised flash .nvsDept) rfl]
  cases DeptEntry.parse (initialised flash .nvsDept) with
  | none => rfl
  | some e =>
      exact congrArg (fun calls => Except.ok (Store.mk calls e.toRecord fun key =>
        some (initialised flash key))) hcalls

theorem boot_ok {flash : Flash} {st : Store} (h : boot flash = .ok st) :
    st.calls = (CallConfig.parse (initialised flash .nvsCalls)).toCalls ∧
      st.flash = fun key => some (initialised flash key) := by
  rw [boot_eq] at h
  split at h
  · cases h
  · cases h
    exact ⟨rfl, rfl⟩

/-- A device whose department was never set faults in `app_main` at every
power-up: the first one stores the blank text, the later ones find it. -/
theorem boot_of_blankDept {flash : Flash}
    (hflash : flash .nvsDept = none ∨ flash .nvsDept = some blankDept) :
    boot flash = .error .nullAccess := by
  have hinit : initialised flash .nvsDept = blankDept := by
    rcases hflash with h | h <;> simp [initialised, h, Key.blank]
  rw [boot_eq, hinit, parse_blankDept]

/-! ### Reset All -/

/-- The first statement of `resetAll` passes NULL to `strlen`. -/
theorem resetAll_eq (m : Malloc) (mcalls : Fin 3 → Malloc) (envCalls envDept : SaveEnv)
    (st : Store) : resetAll m mcalls envCalls envDept st = .error .nullAccess := rfl

/-- What Reset All is for: RAM unset, flash as on a new device, and the next
boot as unset as the first. -/
def ResetsToFactory (m : Malloc) (mcalls : Fin 3 → Malloc) (envCalls envDept : SaveEnv)
    (st : Store) : Prop :=
  ∃ st', resetAll m mcalls envCalls envDept st = .ok st' ∧
    st'.calls = (fun _ => .unset) ∧ st'.department = .unset ∧
    (∀ key, st'.flash key = some key.blank) ∧ boot st'.flash = .ok st'

/-- **Reset All never completes**, from no configuration and whatever the
allocations and the flash answer. -/
theorem resetAll_faults (m : Malloc) (mcalls : Fin 3 → Malloc) (envCalls envDept : SaveEnv)
    (st : Store) :
    resetAll m mcalls envCalls envDept st = .error .nullAccess ∧
      ¬ ResetsToFactory m mcalls envCalls envDept st := by
  refine ⟨resetAll_eq m mcalls envCalls envDept st, ?_⟩
  rintro ⟨st', hreset, -⟩
  rw [resetAll_eq] at hreset
  cases hreset

def configuredStore : Store where
  calls := ![⟨some (.ofString "Red"), some (.ofString "Test Problem1"),
    some (.ofString "Test person1")⟩, .unset, .unset]
  department := ⟨some (.ofString "Department 1"), some (.ofString "1")⟩
  flash _ := none

theorem resetAll_configuredStore :
    resetAll .ok (fun _ => .ok) .ok .ok configuredStore = .error .nullAccess ∧
      ¬ ResetsToFactory .ok (fun _ => .ok) .ok .ok configuredStore :=
  ⟨rfl, fun ⟨_, h, _⟩ => nomatch h⟩

end AndonConsole
