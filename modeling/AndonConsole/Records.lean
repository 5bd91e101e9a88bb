import AndonConsole.CString

/-!
Call and department records, and the two setters.

A record is a row of `char *` fields. Both setters free the old fields and
then allocate the new ones one by one, going on after an allocation that
failed; `Malloc` gives the answers of the `malloc` calls of one such
setter. They differ in what they do with a NULL argument: `setCallrecord`
returns without touching the record, `setDeptrecord` has no such check and
runs into `strlen(NULL)`.
-/

namespace AndonConsole

/-- Read through a pointer, as `strlen`, `strcpy` and `TFT_print` do. -/
def deref : Option CString → Exec CString
  | none => .error .nullAccess
  | some s => .ok s

@[simp] theorem deref_some (s : CString) : deref (some s) = .ok s := rfl

@[simp] theorem deref_none : deref none = .error .nullAccess := rfl

/-- Whether the `k`-th `malloc` of a call succeeds. -/
abbrev Malloc := ℕ → Bool

def Malloc.ok : Malloc := fun _ => true

/-- `p = malloc(strlen(s) + 1); if (p != NULL) strcpy(p, s);` -/
def Malloc.copy (m : Malloc) (k : ℕ) (s : CString) : Option CString :=
  if m k then some s else none

@[simp] theorem Malloc.ok_copy (k : ℕ) (s : CString) : Malloc.ok.copy k s = some s := rfl

structure Callrecord where
  status : Option CString
  mancalldesc : Option CString
  mancallto : Option CString
  deriving DecidableEq

structure Deptrecord where
  deptname : Option CString
  deptid : Option CString
  deriving DecidableEq

namespace Callrecord

def unset : Callrecord := ⟨none, none, none⟩

def strings (r : Callrecord) : List CString :=
  [r.status, r.mancalldesc, r.mancallto].reduceOption

@[simp] theorem strings_some (s d t : CString) :
    strings ⟨some s, some d, some t⟩ = [s, d, t] := rfl

@[simp] theorem strings_unset : unset.strings = [] := rfl

def IsSet (r : Callrecord) : Prop :=
  ∃ s d t, r = ⟨some s, some d, some t⟩

/-- Wholly set or wholly unset. -/
def IsWhole (r : Callrecord) : Prop := r = unset ∨ r.IsSet

end Callrecord

namespace Deptrecord

def unset : Deptrecord := ⟨none, none⟩

def IsSet (r : Deptrecord) : Prop := ∃ n i, r = ⟨some n, some i⟩

/-- Wholly set or wholly unset. -/
def IsWhole (r : Deptrecord) : Prop := r = unset ∨ r.IsSet

end Deptrecord

/-- The records below `callRecordCount`: each of them has its three texts. -/
structure CallTable where
  records : List Callrecord
  populated : ∀ r ∈ records, r.IsSet

/-- The records below `deptRecordCount`: each of them has its two texts. -/
structure DeptTable where
  records : List Deptrecord
  populated : ∀ r ∈ records, r.IsSet

theorem CallTable.mancalldesc_isSome (T : CallTable) :
    ∀ r ∈ T.records, r.mancalldesc.isSome := by
  intro r hr
  obtain ⟨s, d, t, rfl⟩ := T.populated r hr
  rfl

theorem DeptTable.deptname_isSome (T : DeptTable) : ∀ r ∈ T.records, r.deptname.isSome := by
  intro r hr
  obtain ⟨n, i, rfl⟩ := T.populated r hr
  rfl

def testCallRecords : CallTable where
  records :=
    [⟨some (.ofString "Red"), some (.ofString "Test Problem1"), some (.ofString "Test person1")⟩,
     ⟨some (.ofString "Yellow"), some (.ofString "Test Problem2"),
      some (.ofString "Test person2")⟩,
     ⟨some (.ofString "Green"), some (.ofString "Test Problem3"),
      some (.ofString "Test person3")⟩]
  populated r hr := by
    simp only [List.mem_cons, List.not_mem_nil, or_false] at hr
    rcases hr with rfl | rfl | rfl <;> exact ⟨_, _, _, rfl⟩

def testDeptRecords : DeptTable where
  records :=
    [⟨some (.ofString "Department 1"), some (.ofString "1")⟩,
     ⟨some (.ofString "Department 2"), some (.ofString "2")⟩]
  populated r hr := by
    simp only [List.mem_cons, List.not_mem_nil, or_false] at hr
    rcases hr with rfl | rfl <;> exact ⟨_, _, rfl⟩

def setCallrecord (m : Malloc) (record : Callrecord) (status desc mancallto : Option CString) :
    Callrecord :=
  match status, desc, mancallto with
  | some status, some desc, some mancallto =>
      { status := m.copy 0 status
        mancalldesc := m.copy 1 desc
        mancallto := m.copy 2 mancallto }
  | _, _, _ => record

/-- The lengths are taken before anything is copied, so a NULL argument faults
whatever `malloc` answers. -/
def setDeptrecord (m : Malloc) (_record : Deptrecord) (dept id : Option CString) :
    Exec Deptrecord := do
  let dept ← deref dept
  let id ← deref id
  return { deptname := m.copy 0 dept, deptid := m.copy 1 id }

@[simp] theorem setCallrecord_ok_some (record : Callrecord) (s d t : CString) :
    setCallrecord .ok record (some s) (some d) (some t) = ⟨some s, some d, some t⟩ := rfl

@[simp] theorem setDeptrecord_some (m : Malloc) (record : Deptrecord) (n i : CString) :
    setDeptrecord m record (some n) (some i) = .ok ⟨m.copy 0 n, m.copy 1 i⟩ := rfl

end AndonConsole
