import AndonConsole.Lib.Except
import AndonConsole.Records
import Mathlib.Data.Fin.VecNotation
import Mathlib.Data.Fintype.Pi
import Mathlib.Tactic.FinCases

/-!
The configuration in RAM, its text form in flash, and the way between them.

The console keeps three call slots and one department in RAM and writes
each of the two as one comma-separated string under a key of the NVS. The
functions here are those of the firmware, with the answers of `malloc`,
`strdup` and the NVS calls as arguments; an operation that fails leaves
the stored value as it was. `bootWith` is the part of `app_main` that loads
the configuration at power-up, and `boot` a power-up where nothing fails.
-/

namespace AndonConsole

/-- The numerals `0`, `1` and `2` name the slots. -/
instance slotNumerals : NeZero 3 := ⟨by decide⟩

/-- `calls[3]`. -/
abbrev Calls := Fin 3 → Callrecord

/-- The two keys the firmware uses in the namespace `"NVSMem"`. -/
inductive Key
  | nvsCalls
  | nvsDept
  deriving DecidableEq, Repr

/-- The stored strings; `none` is `ESP_ERR_NVS_NOT_FOUND`. -/
abbrev Flash := Key → Option CString

structure Store where
  calls : Calls
  department : Deptrecord
  flash : Flash

/-- RAM as it is after a reset: nothing set, only the flash kept. -/
def Store.powerOn (flash : Flash) : Store where
  calls _ := .unset
  department := .unset
  flash := flash

/-- The answers met while writing: `malloc` of the text, then the NVS calls. -/
structure SaveEnv where
  malloc : Bool
  nvsOpen : Bool
  nvsSetStr : Bool
  nvsCommit : Bool

def SaveEnv.ok : SaveEnv := ⟨true, true, true, true⟩

/-- The answers met while reading: the NVS calls, `malloc` and `strdup`. -/
structure ReadEnv where
  nvsOpen : Bool
  nvsGetSize : Bool
  malloc : Bool
  nvsGetStr : Bool
  strdup : Bool

def ReadEnv.ok : ReadEnv := ⟨true, true, true, true, true⟩

/-! ### NVS -/

def saveStringToNvs (env : SaveEnv) (key : Key) (value : CString) (flash : Flash) : Flash :=
  if env.nvsOpen then
    if env.nvsSetStr then
      if env.nvsCommit then Function.update flash key (some value) else flash
    else flash
  else flash

def nvsInitialAlloc (env : SaveEnv) (key : Key) (value : CString) (flash : Flash) : Flash :=
  if env.nvsOpen then
    match flash key with
    | none => saveStringToNvs env key value flash
    | some _ => flash
  else flash

def readStringFromNvs (env : ReadEnv) (key : Key) (flash : Flash) : Option CString :=
  if env.nvsOpen then
    match flash key with
    | none => none
    | some value =>
        if env.nvsGetSize then
          if env.malloc then
            if env.nvsGetStr then some value else none
          else none
        else none
  else none

@[simp] theorem SaveEnv.ok_malloc : SaveEnv.ok.malloc = true := rfl

@[simp] theorem ReadEnv.ok_strdup : ReadEnv.ok.strdup = true := rfl

@[simp] theorem saveStringToNvs_ok (key : Key) (value : CString) (flash : Flash) :
    saveStringToNvs .ok key value flash = Function.update flash key (some value) := rfl

theorem saveStringToNvs_of_ne (env : SaveEnv) {key key' : Key} (h : key' ≠ key)
    (value : CString) (flash : Flash) :
    saveStringToNvs env key value flash key' = flash key' := by
  rw [saveStringToNvs]
  split_ifs
  all_goals simp [h]

theorem nvsInitialAlloc_of_ne (env : SaveEnv) {key key' : Key} (h : key' ≠ key)
    (value : CString) (flash : Flash) :
    nvsInitialAlloc env key value flash key' = flash key' := by
  rw [nvsInitialAlloc]
  split
  · cases flash key with
    | none => exact saveStringToNvs_of_ne env h value flash
    | some s => rfl
  · rfl

theorem nvsInitialAlloc_eq_some {env : SaveEnv} {key : Key} {value s : CString} {flash : Flash}
    (h : nvsInitialAlloc env key value flash key = some s) : flash key = some s ∨ s = value := by
  rw [nvsInitialAlloc] at h
  split at h
  · cases hkey : flash key with
    | none =>
        simp only [hkey, saveStringToNvs] at h
        split_ifs at h
        · exact .inr (by simpa using h.symm)
        all_goals rw [hkey] at h; cases h
    | some t =>
        simp only [hkey] at h
        exact .inl h
  · exact .inl h

theorem readStringFromNvs_eq_some {env : ReadEnv} {key : Key} {flash : Flash} {s : CString}
    (h : readStringFromNvs env key flash = some s) : flash key = some s := by
  rw [readStringFromNvs] at h
  split at h
  · cases hkey : flash key with
    | none => simp [hkey] at h
    | some value =>
        simp only [hkey] at h
        split_ifs at h
        exact h
  · cases h

@[simp] theorem readStringFromNvs_ok (key : Key) (flash : Flash) :
    readStringFromNvs .ok key flash = flash key := by
  cases h : flash key <;> simp [readStringFromNvs, ReadEnv.ok, h]

/-! ### Calls -/

/-- `(p != NULL) ? p : default_string`. -/
def orDefault (p : Option CString) : CString := p.getD CString.space

/-- The nine arguments of the `snprintf` in `saveCalls`. -/
def callFields (calls : Calls) : List CString :=
  [orDefault (calls 0).status, orDefault (calls 0).mancalldesc, orDefault (calls 0).mancallto,
   orDefault (calls 1).status, orDefault (calls 1).mancalldesc, orDefault (calls 1).mancallto,
   orDefault (calls 2).status, orDefault (calls 2).mancalldesc, orDefault (calls 2).mancallto]

/-- `total_len` of `saveCalls`: 8 commas and 1 null terminator. -/
def callsTotalLen (calls : Calls) : ℕ := ((callFields calls).map CString.strlen).sum + 9

/-- The content of the buffer after the `snprintf` in `saveCalls`. -/
def serializedCalls (calls : Calls) : CString :=
  (CString.commaJoin (callFields calls)).snprintf (callsTotalLen calls)

def saveCalls (env : SaveEnv) (st : Store) : Store :=
  if env.malloc then
    { st with flash := saveStringToNvs env .nvsCalls (serializedCalls st.calls) st.flash }
  else st

@[simp] theorem saveCalls_calls (env : SaveEnv) (st : Store) :
    (saveCalls env st).calls = st.calls := by
  rw [saveCalls]
  split <;> rfl

/-- The nine `strtok` calls of `retreiveCalls`, three to a slot. -/
def splitCalls : StateM CString (Fin 3 → Callrecord) := do
  let status0 ← CString.strtok
  let desc0 ← CString.strtok
  let to0 ← CString.strtok
  let status1 ← CString.strtok
  let desc1 ← CString.strtok
  let to1 ← CString.strtok
  let status2 ← CString.strtok
  let desc2 ← CString.strtok
  let to2 ← CString.strtok
  return ![⟨status0, desc0, to0⟩, ⟨status1, desc1, to1⟩, ⟨status2, desc2, to2⟩]

/-- `if (p != NULL && strcmp(p, " ") == 0) p = NULL;` -/
def dropPlaceholder (p : Option CString) : Option CString :=
  if p = some CString.space then none else p

/-- `retreiveCalls` behind the `strtok` calls: what `drop` leaves of the nine tokens is handed to
the setters. How a pointer is read depends on the monad. -/
def setFromTokens {μ : Type → Type} [Monad μ] {π ρ : Type} (drop : Option CString → μ π)
    (set : Fin 3 → π → π → π → μ ρ) (tok : Fin 3 → Callrecord) : μ (Fin 3 → ρ) := do
  let status0 ← drop (tok 0).status
  let desc0 ← drop (tok 0).mancalldesc
  let to0 ← drop (tok 0).mancallto
  let status1 ← drop (tok 1).status
  let desc1 ← drop (tok 1).mancalldesc
  let to1 ← drop (tok 1).mancallto
  let status2 ← drop (tok 2).status
  let desc2 ← drop (tok 2).mancalldesc
  let to2 ← drop (tok 2).mancallto
  let call0 ← set 0 status0 desc0 to0
  let call1 ← set 1 status1 desc1 to1
  let call2 ← set 2 status2 desc2 to2
  return ![call0, call1, call2]

theorem setFromTokens_id {π ρ : Type} (drop : Option CString → Id π)
    (set : Fin 3 → π → π → π → Id ρ) (tok : Fin 3 → Callrecord) :
    setFromTokens drop set tok = fun i =>
      set i (drop (tok i).status) (drop (tok i).mancalldesc) (drop (tok i).mancallto) := by
  funext i
  fin_cases i <;> rfl

def retreiveCalls (env : ReadEnv) (m : Fin 3 → Malloc) (st : Store) : Store :=
  match readStringFromNvs env .nvsCalls st.flash with
  | none => st
  | some serialized =>
      if env.strdup then
        let calls : Id Calls := setFromTokens dropPlaceholder
          (fun i => setCallrecord (m i) (st.calls i)) (splitCalls serialized).1
        { st with calls }
      else st

/-! ### Department -/

def deptFields (department : Deptrecord) : List CString :=
  [orDefault department.deptname, orDefault department.deptid]

/-- `total_len` of `saveDepts`: 1 comma and 1 null terminator. -/
def deptTotalLen (department : Deptrecord) : ℕ :=
  ((deptFields department).map CString.strlen).sum + 2

def serializedDept (department : Deptrecord) : CString :=
  (CString.commaJoin (deptFields department)).snprintf (deptTotalLen department)

def saveDepts (env : SaveEnv) (st : Store) : Store :=
  if env.malloc then
    { st with flash := saveStringToNvs env .nvsDept (serializedDept st.department) st.flash }
  else st

@[simp] theorem saveDepts_department (env : SaveEnv) (st : Store) :
    (saveDepts env st).department = st.department := by
  rw [saveDepts]
  split <;> rfl

theorem saveDepts_flash (env : SaveEnv) (st : Store) :
    (saveDepts env st).flash .nvsCalls = st.flash .nvsCalls := by
  rw [saveDepts]
  split
  · exact saveStringToNvs_of_ne env (by simp) _ _
  · rfl

@[simp] theorem saveDepts_calls (env : SaveEnv) (st : Store) :
    (saveDepts env st).calls = st.calls := by
  rw [saveDepts]
  split <;> rfl

def splitDept : StateM CString Deptrecord := do
  let deptname ← CString.strtok
  let deptid ← CString.strtok
  return ⟨deptname, deptid⟩

def retreiveDepts (env : ReadEnv) (m : Malloc) (st : Store) : Exec Store :=
  match readStringFromNvs env .nvsDept st.flash with
  | none => .ok st
  | some serialized =>
      if env.strdup then do
        let tok := (splitDept serialized).1
        let department ← setDeptrecord m st.department (dropPlaceholder tok.deptname)
          (dropPlaceholder tok.deptid)
        return { st with department }
      else .ok st

theorem retreiveDepts_frame {env : ReadEnv} {m : Malloc} {st st' : Store}
    (h : retreiveDepts env m st = .ok st') : st'.calls = st.calls ∧ st'.flash = st.flash := by
  rw [retreiveDepts] at h
  split at h
  · cases h
    exact ⟨rfl, rfl⟩
  · split at h
    · obtain ⟨department, -, h⟩ := Lib.bind_eq_ok.mp h
      cases h
      exact ⟨rfl, rfl⟩
    · cases h
      exact ⟨rfl, rfl⟩

/-! ### Reset and boot -/

def resetAll (m : Malloc) (mcalls : Fin 3 → Malloc) (envCalls envDept : SaveEnv)
    (st : Store) : Exec Store := do
  let department ← setDeptrecord m st.department none none
  let calls : Calls := fun i => setCallrecord (mcalls i) (st.calls i) none none none
  return saveDepts envDept (saveCalls envCalls { st with department, calls })

/-- The literal `app_main` stores under `"nvs_calls"` on a new device. -/
def blankCalls : CString := .ofString " , , , , , , , , "

def blankDept : CString := .ofString " , "

/-- The answers met in `app_main` before its main loop. `nvsErased` says that
`nvs_flash_init` wants the partition erased; where it fails otherwise, or the
erasing does, `ESP_ERROR_CHECK` ends the start. -/
structure BootEnv where
  nvsErased : Bool
  initCalls : SaveEnv
  readCalls : ReadEnv
  callMallocs : Fin 3 → Malloc
  initDept : SaveEnv
  readDept : ReadEnv
  deptMalloc : Malloc

def BootEnv.ok : BootEnv where
  nvsErased := false
  initCalls := .ok
  readCalls := .ok
  callMallocs _ := .ok
  initDept := .ok
  readDept := .ok
  deptMalloc := .ok

/-- The stored strings behind `nvs_flash_init`. -/
def nvsFlashInit (erased : Bool) (flash : Flash) : Flash :=
  if erased then fun _ => none else flash

/-- `app_main` from the initialisation of NVS to the main loop. -/
def bootWith (env : BootEnv) (flash : Flash) : Exec Store :=
  let st := Store.powerOn
    (nvsInitialAlloc env.initCalls .nvsCalls blankCalls (nvsFlashInit env.nvsErased flash))
  let st := retreiveCalls env.readCalls env.callMallocs st
  retreiveDepts env.readDept env.deptMalloc
    { st with flash := nvsInitialAlloc env.initDept .nvsDept blankDept st.flash }

/-- A start in which every allocation and NVS operation succeeds. -/
def boot (flash : Flash) : Exec Store := bootWith .ok flash

end AndonConsole
