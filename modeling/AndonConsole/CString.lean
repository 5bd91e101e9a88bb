import AndonConsole.Lib.Fields
import Mathlib.Algebra.GroupWithZero.Nat

/-!
C strings as the firmware sees them: bytes without a NUL, behind a pointer
that may be NULL.

A `char *` is an `Option CString`, `none` being NULL; the bytes behind a
non-NULL pointer end at the first NUL, so a `CString` carries the proof that
it holds none. Lengths are natural numbers: the strings of one configuration
are live at the same time in one address space, and `size_t` counts that.
The two ways a run can go wrong in what follows are the constructors of
`Fault`.
-/

namespace AndonConsole

/-- What ends a run: a NULL pointer handed to `strlen`, `strcpy` or
`TFT_print`, or an array access outside the records in use. -/
inductive Fault
  | nullAccess
  | outOfRange
  deriving DecidableEq, Repr

abbrev Exec (α : Type*) := Except Fault α

@[ext] structure CString where
  bytes : List UInt8
  nul_free : 0 ∉ bytes
  deriving DecidableEq

namespace CString

/-- The C string of a literal, which ends at its first NUL. -/
def ofString (s : String) : CString where
  bytes := (s.toList.map fun c => UInt8.ofNat c.toNat).takeWhile (· != 0)
  nul_free h := by simpa using List.mem_takeWhile_imp h

theorem bytes_injective : Function.Injective CString.bytes :=
  fun _ _ h => CString.ext h

def empty : CString := ⟨[], by simp⟩

def comma : UInt8 := 44

/-- `" "`, the placeholder for a field that is NULL. -/
def space : CString := ⟨[32], by decide⟩

def strlen (s : CString) : ℕ := s.bytes.length

/-- What `snprintf` leaves in a buffer of `n` bytes: the text cut to `n - 1`
bytes in front of the NUL. -/
def snprintf (n : ℕ) (s : CString) : CString where
  bytes := s.bytes.take (n - 1)
  nul_free h := s.nul_free (List.mem_of_mem_take h)

theorem snprintf_of_lt {n : ℕ} {s : CString} (h : s.strlen < n) : s.snprintf n = s := by
  apply CString.ext
  rw [strlen] at h
  exact List.take_of_length_le (by omega)

/-- What `%.ns` prints of a text: its first `n` bytes. -/
def precision (n : ℕ) (s : CString) : CString where
  bytes := s.bytes.take n
  nul_free h := s.nul_free (List.mem_of_mem_take h)

def append (s t : CString) : CString where
  bytes := s.bytes ++ t.bytes
  nul_free h := (List.mem_append.mp h).elim s.nul_free t.nul_free

/-- The format `"%s,%s,..."` with one `%s` for each string. -/
def commaJoin (l : List CString) : CString where
  bytes := [comma].intercalate (l.map CString.bytes)
  nul_free := by
    induction l with
    | nil => simp [List.intercalate]
    | cons s l ih =>
        cases l with
        | nil => simpa [List.intercalate] using s.nul_free
        | cons t l =>
            rw [List.map_cons, List.map_cons, List.intercalate_cons_cons]
            rw [List.map_cons] at ih
            have hcomma : (0 : UInt8) ≠ comma := by decide
            simp [s.nul_free, ih, hcomma]

theorem strlen_commaJoin (l : List CString) :
    (commaJoin l).strlen = (l.map strlen).sum + (l.length - 1) := by
  induction l with
  | nil => rfl
  | cons s l ih =>
      cases l with
      | nil => simp [commaJoin, strlen, List.intercalate]
      | cons t l =>
          simp only [commaJoin, strlen, List.map_cons, List.intercalate_cons_cons,
            List.length_append, List.length_cons, List.length_nil, List.sum_cons] at ih ⊢
          omega

/-! ### Fields and `strtok` -/

def fields (s : CString) : List CString :=
  (Lib.fields comma s.bytes).pmap CString.mk fun _ hf h =>
    s.nul_free ((Lib.mem_fields hf).2.2 h)

@[simp] theorem map_bytes_fields (s : CString) :
    s.fields.map CString.bytes = Lib.fields comma s.bytes := by
  simp [fields, List.map_pmap]

theorem fields_eq_iff {s : CString} {l : List CString} :
    s.fields = l ↔ Lib.fields comma s.bytes = l.map CString.bytes := by
  rw [← map_bytes_fields, List.map_inj_right fun _ _ h => CString.ext h]

/-- Non-empty and without a comma: what a token can be. -/
def IsField (s : CString) : Prop := s.bytes ≠ [] ∧ comma ∉ s.bytes

instance : DecidablePred IsField := fun _ => inferInstanceAs (Decidable (_ ∧ _))

theorem isField_of_mem_fields {s f : CString} (hf : f ∈ s.fields) : f.IsField := by
  have hbytes : f.bytes ∈ s.fields.map CString.bytes := List.mem_map_of_mem hf
  rw [map_bytes_fields] at hbytes
  exact ⟨(Lib.mem_fields hbytes).1, (Lib.mem_fields hbytes).2.1⟩

theorem fields_of_isField {s : CString} (hs : s.IsField) : s.fields = [s] := by
  rw [fields_eq_iff, Lib.fields_of_notMem hs.2 hs.1]
  rfl

theorem fields_commaJoin (l : List CString) :
    (commaJoin l).fields = l.flatMap fields := by
  rw [fields_eq_iff, commaJoin, Lib.fields_intercalate, List.flatMap_map, List.map_flatMap]
  simp

/-- `strtok(NULL, ",")`, on the text behind the saved position; the first
call `strtok(copy, ",")` is the same on the whole copy. -/
def strtok : StateM CString (Option CString) := fun saved =>
  ((Lib.nextField comma saved.bytes).1.pmap CString.mk fun f hf h => by
      rw [Lib.nextField_fst] at hf
      exact saved.nul_free ((Lib.mem_fields (List.mem_of_mem_head? hf)).2.2 h),
    ⟨(Lib.nextField comma saved.bytes).2, fun h =>
      saved.nul_free (Lib.nextField_snd_subset _ _ h)⟩)

theorem strtok_fst (saved : CString) : (strtok saved).1 = saved.fields.head? := by
  apply Option.map_injective bytes_injective
  rw [← List.head?_map, map_bytes_fields, ← Lib.nextField_fst]
  simp [strtok, Option.map_pmap]

theorem fields_strtok_snd (saved : CString) :
    (strtok saved).2.fields = saved.fields.tail := by
  rw [fields_eq_iff, List.map_tail, map_bytes_fields, ← Lib.fields_nextField_snd]
  rfl

end CString

end AndonConsole
