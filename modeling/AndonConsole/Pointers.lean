import AndonConsole.Store
import AndonConsole.Lib.Heap
import AndonConsole.Lib.Runs
import Mathlib.Algebra.BigOperators.Fin

/-!
The configuration by pointers.

The functions that set, save and load the configuration, once more, with the
fields of the records as addresses of the heap: what is allocated, what is
freed, and what is read through which pointer. A field that is not NULL is
meant to point to a block of its own that holds a text; the other blocks live
for the length of one function. The store by values says what such an
operation does to the texts.
-/

namespace AndonConsole

open Lib (HeapM Allocator)

/-- A `const char *` argument: NULL, a literal, or a place inside a block, each with the
text that is read there. -/
inductive CharPtr
  | null
  | literal (s : CString)
  | inside (block : ℕ) (s : CString)

def CharPtr.value : CharPtr → Option CString
  | null => none
  | literal s => some s
  | inside _ s => some s

def CharPtr.deref : CharPtr → HeapM CString CString
  | null => HeapM.fault .null
  | literal s => return s
  | inside block s => do
      let _ ← HeapM.read block
      return s

/-- The same place, or NULL. -/
def CharPtr.ofToken (block : ℕ) : Option CString → CharPtr
  | none => .null
  | some s => .inside block s

namespace Ptr

structure Callrecord where
  status : Option ℕ
  mancalldesc : Option ℕ
  mancallto : Option ℕ

structure Deptrecord where
  deptname : Option ℕ
  deptid : Option ℕ

structure Store where
  calls : Fin 3 → Callrecord
  department : Deptrecord
  flash : Flash

def Store.powerOn (flash : Flash) : Store where
  calls _ := ⟨none, none, none⟩
  department := ⟨none, none⟩
  flash := flash

/-- What the `malloc` calls of a setter answer: NULL, or a block. -/
abbrev Malloc := ℕ → Option (Allocator CString)

/-- The same answers by values. -/
def Malloc.toValues (m : Malloc) : AndonConsole.Malloc := fun k => (m k).isSome

/-- The answers met while writing: the buffer of the text, then the NVS calls. -/
structure SaveEnv where
  malloc : Option (Allocator CString)
  nvsOpen : Bool
  nvsSetStr : Bool
  nvsCommit : Bool

structure ReadEnv where
  nvsOpen : Bool
  nvsGetSize : Bool
  malloc : Option (Allocator CString)
  nvsGetStr : Bool
  strdup : Option (Allocator CString)

def SaveEnv.toValues (env : SaveEnv) : AndonConsole.SaveEnv :=
  ⟨env.malloc.isSome, env.nvsOpen, env.nvsSetStr, env.nvsCommit⟩

def ReadEnv.toValues (env : ReadEnv) : AndonConsole.ReadEnv :=
  ⟨env.nvsOpen, env.nvsGetSize, env.malloc.isSome, env.nvsGetStr, env.strdup.isSome⟩

/-- `if (p != NULL) free(p);` -/
def freeField : Option ℕ → HeapM CString Unit
  | none => return ()
  | some p => HeapM.free p

/-- `malloc(strlen(s) + 1)`. -/
def mallocFor (answer : Option (Allocator CString)) (s : CharPtr) :
    HeapM CString (Option ℕ) := do
  let text ← s.deref
  HeapM.malloc answer (text.strlen + 1)

/-- `if (p != NULL) strcpy(p, s);` -/
def strcpy (p : Option ℕ) (s : CharPtr) : HeapM CString Unit :=
  match p with
  | none => return ()
  | some p => do
      let text ← s.deref
      HeapM.write p (text.strlen + 1) text

def setCallrecord (m : Malloc) (record : Callrecord) (status desc mancallto : CharPtr) :
    HeapM CString Callrecord :=
  if status.value = none ∨ desc.value = none ∨ mancallto.value = none then return record
  else do
    freeField record.status
    freeField record.mancalldesc
    freeField record.mancallto
    let status' ← mallocFor (m 0) status
    let mancalldesc' ← mallocFor (m 1) desc
    let mancallto' ← mallocFor (m 2) mancallto
    strcpy status' status
    strcpy mancalldesc' desc
    strcpy mancallto' mancallto
    return ⟨status', mancalldesc', mancallto'⟩

def setDeptrecord (m : Malloc) (record : Deptrecord) (dept id : CharPtr) :
    HeapM CString Deptrecord := do
  freeField record.deptname
  freeField record.deptid
  let deptname ← mallocFor (m 0) dept
  let deptid ← mallocFor (m 1) id
  strcpy deptname dept
  strcpy deptid id
  return ⟨deptname, deptid⟩

/-- `(p != NULL) ? p : default_string`. -/
def orDefault : Option ℕ → HeapM CString CString
  | none => return CString.space
  | some p => HeapM.read p

/-- The common part of `saveCalls` and `saveDepts`: the fields are measured, and written with
commas between them to a buffer of `total_len` bytes. -/
def saveFields (env : SaveEnv) (key : Key) (fields : List (Option ℕ)) (flash : Flash) :
    HeapM CString Flash := do
  let texts ← fields.mapM orDefault
  let total_len := (texts.map CString.strlen).sum + fields.length
  match ← HeapM.malloc env.malloc total_len with
  | none => return flash
  | some serialized => do
      let texts ← fields.mapM orDefault
      let text := (CString.commaJoin texts).snprintf total_len
      HeapM.write serialized (text.strlen + 1) text
      let value ← HeapM.read serialized
      let saved := saveStringToNvs ⟨true, env.nvsOpen, env.nvsSetStr, env.nvsCommit⟩ key value flash
      HeapM.free serialized
      return saved

def Store.callFields (st : Store) : List (Option ℕ) :=
  [(st.calls 0).status, (st.calls 0).mancalldesc, (st.calls 0).mancallto,
   (st.calls 1).status, (st.calls 1).mancalldesc, (st.calls 1).mancallto,
   (st.calls 2).status, (st.calls 2).mancalldesc, (st.calls 2).mancallto]

def saveCalls (env : SaveEnv) (st : Store) : HeapM CString Store := do
  let flash ← saveFields env .nvsCalls st.callFields st.flash
  return { st with flash }

def saveDepts (env : SaveEnv) (st : Store) : HeapM CString Store := do
  let flash ← saveFields env .nvsDept [st.department.deptname, st.department.deptid] st.flash
  return { st with flash }

/-- The caller has to free what is returned. -/
def readStringFromNvs (env : ReadEnv) (key : Key) (flash : Flash) :
    HeapM CString (Option ℕ) :=
  if env.nvsOpen then
    match flash key with
    | none => return none
    | some text =>
        if env.nvsGetSize then do
          match ← HeapM.malloc env.malloc (text.strlen + 1) with
          | none => return none
          | some value =>
              if env.nvsGetStr then do
                HeapM.write value (text.strlen + 1) text
                return some value
              else do
                HeapM.free value
                return none
        else return none
  else return none

/-- The common part of `retreiveCalls` and `retreiveDepts`: the text of the flash is read and
copied, `use` works on the copy, and both blocks are freed. A `strdup` that fails returns with
the text that was read still allocated. -/
def withCopy (env : ReadEnv) (key : Key) (flash : Flash) {α : Type} (unchanged : α)
    (use : ℕ → CString → HeapM CString α) : HeapM CString α := do
  match ← readStringFromNvs env key flash with
  | none => return unchanged
  | some serialized => do
      let text ← HeapM.read serialized
      match ← HeapM.malloc env.strdup (text.strlen + 1) with
      | none => return unchanged
      | some copy => do
          HeapM.write copy (text.strlen + 1) text
          HeapM.free serialized
          let result ← use copy text
          HeapM.free copy
          return result

/-- `if (p != NULL && strcmp(p, " ") == 0) p = NULL;` for a token of the copy. -/
def dropPlaceholder (copy : ℕ) (token : Option CString) : HeapM CString CharPtr :=
  match token with
  | none => return .null
  | some s => do
      let text ← (CharPtr.inside copy s).deref
      return CharPtr.ofToken copy (AndonConsole.dropPlaceholder (some text))

def retreiveCalls (env : ReadEnv) (m : Fin 3 → Malloc) (st : Store) : HeapM CString Store :=
  withCopy env .nvsCalls st.flash st fun copy text => do
    let calls ← setFromTokens (dropPlaceholder copy) (fun i => setCallrecord (m i) (st.calls i))
      (splitCalls text).1
    return { st with calls }

def retreiveDepts (env : ReadEnv) (m : Malloc) (st : Store) : HeapM CString Store :=
  withCopy env .nvsDept st.flash st fun copy text => do
    let tok := (splitDept text).1
    let deptname ← dropPlaceholder copy tok.deptname
    let deptid ← dropPlaceholder copy tok.deptid
    let department ← setDeptrecord m st.department deptname deptid
    return { st with department }

def resetAll (m : Malloc) (mcalls : Fin 3 → Malloc) (envCalls envDept : SaveEnv)
    (st : Store) : HeapM CString Store := do
  let department ← setDeptrecord m st.department .null .null
  let call0 ← setCallrecord (mcalls 0) (st.calls 0) .null .null .null
  let call1 ← setCallrecord (mcalls 1) (st.calls 1) .null .null .null
  let call2 ← setCallrecord (mcalls 2) (st.calls 2) .null .null .null
  let st ← saveCalls envCalls { st with department, calls := ![call0, call1, call2] }
  saveDepts envDept st

end Ptr

end AndonConsole
