import AndonConsole.Store
import Mathlib.Tactic.FinCases

/-!
The configuration without its representation.

What the flash can hold of a call slot is three texts, each of them a field
of the stored string that is not the placeholder. `CallConfig` is a map
from slots to such entries, and `CallConfig.parse` reads one off a string
by position in its list of fields. The faithful `retreiveCalls` refines
this parser, the text `saveCalls` writes is parsed back to the
configuration it was made from, and the results about flash and RAM are
read off these two facts.
-/

namespace AndonConsole

/-- A text that survives the flash: one field, and not the placeholder. -/
@[ext] structure Field where
  str : CString
  isField : str.IsField
  notBlank : str ≠ CString.space

structure CallEntry where
  status : Field
  mancalldesc : Field
  mancallto : Field

structure DeptEntry where
  deptname : Field
  deptid : Field

/-- What each of the three call slots is set to. -/
abbrev CallConfig := Fin 3 → Option CallEntry

def Field.ofToken : Option CString → Option Field
  | some s => if h : s.IsField ∧ s ≠ CString.space then some ⟨s, h.1, h.2⟩ else none
  | none => none

def CallEntry.ofTokens (tokens : List CString) (k : ℕ) : Option CallEntry := do
  let status ← Field.ofToken tokens[k]?
  let mancalldesc ← Field.ofToken tokens[k + 1]?
  let mancallto ← Field.ofToken tokens[k + 2]?
  return ⟨status, mancalldesc, mancallto⟩

/-- Slot `i` is made of the fields `3 i`, `3 i + 1` and `3 i + 2`. -/
def CallConfig.parse (s : CString) : CallConfig := fun i => CallEntry.ofTokens s.fields (3 * i)

def DeptEntry.parse (s : CString) : Option DeptEntry := do
  let deptname ← Field.ofToken s.fields[0]?
  let deptid ← Field.ofToken s.fields[1]?
  return ⟨deptname, deptid⟩

def DeptEntry.toRecord (e : DeptEntry) : Deptrecord :=
  ⟨some e.deptname.str, some e.deptid.str⟩

def CallEntry.toRecord (e : CallEntry) : Callrecord :=
  ⟨some e.status.str, some e.mancalldesc.str, some e.mancallto.str⟩

def CallConfig.toCalls (c : CallConfig) : Calls := fun i =>
  match c i with
  | none => .unset
  | some e => e.toRecord

@[simp] theorem Field.ofToken_str (f : Field) : Field.ofToken (some f.str) = some f := by
  simp [Field.ofToken, f.isField, f.notBlank]

@[simp] theorem Field.ofToken_space : Field.ofToken (some CString.space) = none := by
  simp [Field.ofToken]

theorem Field.ofToken_eq_some {p : Option CString} {f : Field} :
    Field.ofToken p = some f ↔ p = some f.str := by
  constructor
  · intro h
    cases p with
    | none => simp [Field.ofToken] at h
    | some s =>
        simp only [Field.ofToken] at h
        split at h
        · rw [← Option.some.inj h]
        · simp at h
  · rintro rfl
    simp

theorem CallEntry.ofTokens_eq_some {tokens : List CString} {k : ℕ} {e : CallEntry} :
    CallEntry.ofTokens tokens k = some e ↔
      tokens[k]? = some e.status.str ∧ tokens[k + 1]? = some e.mancalldesc.str ∧
        tokens[k + 2]? = some e.mancallto.str := by
  obtain ⟨status, mancalldesc, mancallto⟩ := e
  simp only [CallEntry.ofTokens, Option.bind_eq_bind, Option.bind_eq_some_iff,
    Field.ofToken_eq_some, Option.pure_def, Option.some.injEq, CallEntry.mk.injEq]
  refine ⟨fun h => ?_, fun h => ?_⟩
  · obtain ⟨a, ha, b, hb, c, hc, rfl, rfl, rfl⟩ := h
    exact ⟨ha, hb, hc⟩
  · obtain ⟨ha, hb, hc⟩ := h
    exact ⟨status, ha, mancalldesc, hb, mancallto, hc, rfl, rfl, rfl⟩

theorem DeptEntry.parse_eq_some {s : CString} {e : DeptEntry} :
    DeptEntry.parse s = some e ↔
      s.fields[0]? = some e.deptname.str ∧ s.fields[1]? = some e.deptid.str := by
  obtain ⟨deptname, deptid⟩ := e
  simp only [DeptEntry.parse, Option.bind_eq_bind, Option.bind_eq_some_iff,
    Field.ofToken_eq_some, Option.pure_def, Option.some.injEq, DeptEntry.mk.injEq]
  refine ⟨fun h => ?_, fun h => ?_⟩
  · obtain ⟨a, ha, b, hb, rfl, rfl⟩ := h
    exact ⟨ha, hb⟩
  · obtain ⟨ha, hb⟩ := h
    exact ⟨deptname, ha, deptid, hb, rfl, rfl⟩

theorem CallEntry.toRecord_injective : Function.Injective CallEntry.toRecord := by
  rintro ⟨⟨a, _, _⟩, ⟨b, _, _⟩, ⟨c, _, _⟩⟩ ⟨⟨a', _, _⟩, ⟨b', _, _⟩, ⟨c', _, _⟩⟩ h
  simp only [CallEntry.toRecord, Callrecord.mk.injEq, Option.some.injEq] at h
  obtain ⟨rfl, rfl, rfl⟩ := h
  rfl

@[simp] theorem CallConfig.toCalls_of_none {c : CallConfig} {i : Fin 3} (h : c i = none) :
    c.toCalls i = .unset := by
  simp [CallConfig.toCalls, h]

@[simp] theorem CallConfig.toCalls_of_some {c : CallConfig} {i : Fin 3} {e : CallEntry}
    (h : c i = some e) : c.toCalls i = e.toRecord := by
  simp [CallConfig.toCalls, h]

theorem CallConfig.toCalls_update (c : CallConfig) (i : Fin 3) (e : CallEntry) :
    CallConfig.toCalls (Function.update c i (some e)) =
      Function.update c.toCalls i e.toRecord := by
  funext j
  by_cases hj : j = i
  · subst hj
    simp [CallConfig.toCalls]
  · simp [CallConfig.toCalls, Function.update_of_ne hj]

/-! ### `retreiveCalls` refines the parser -/

/-- The `k`-th call of `strtok` returns the `k`-th field: the saved position
stands behind as many fields as calls were made. -/
theorem splitCalls_fst (s : CString) :
    (splitCalls s).1 = fun i : Fin 3 =>
      ⟨s.fields[3 * (i : ℕ)]?, s.fields[3 * (i : ℕ) + 1]?, s.fields[3 * (i : ℕ) + 2]?⟩ := by
  have hbind (k : Option CString → StateM CString (Fin 3 → Callrecord)) (s : CString) :
      (CString.strtok >>= k) s = k (CString.strtok s).1 (CString.strtok s).2 := rfl
  simp only [splitCalls, hbind, CString.strtok_fst, CString.fields_strtok_snd,
    List.head?_eq_getElem?, List.getElem?_tail]
  funext i
  fin_cases i <;> rfl

/-- On a token, clearing the placeholder is the check of the parser. -/
theorem dropPlaceholder_getElem? (s : CString) (k : ℕ) :
    dropPlaceholder s.fields[k]? = (Field.ofToken s.fields[k]?).map Field.str := by
  cases h : s.fields[k]? with
  | none => rfl
  | some t =>
      have ht : t.IsField := CString.isField_of_mem_fields (List.mem_of_getElem? h)
      by_cases hspace : t = CString.space
      · subst hspace
        simp [dropPlaceholder]
      · simp [dropPlaceholder, Field.ofToken, ht, hspace]

/-- Every slot becomes the entry the parser reads for it, and stays as it was
where the parser reads none. -/
theorem retreiveCalls_calls {st : Store} {s : CString} (hs : st.flash .nvsCalls = some s) :
    (retreiveCalls .ok (fun _ => .ok) st).calls = fun i =>
      match CallConfig.parse s i with
      | none => st.calls i
      | some e => e.toRecord := by
  simp only [retreiveCalls, readStringFromNvs_ok, hs, ReadEnv.ok_strdup, if_true, splitCalls_fst,
    setFromTokens_id, dropPlaceholder_getElem?]
  funext i
  simp only [CallConfig.parse, CallEntry.ofTokens]
  cases Field.ofToken s.fields[3 * (i : ℕ)]? <;>
    cases Field.ofToken s.fields[3 * (i : ℕ) + 1]? <;>
      cases Field.ofToken s.fields[3 * (i : ℕ) + 2]? <;> rfl

@[simp] theorem retreiveCalls_department (env : ReadEnv) (m : Fin 3 → Malloc) (st : Store) :
    (retreiveCalls env m st).department = st.department := by
  rw [retreiveCalls]
  split
  · rfl
  · split <;> rfl

@[simp] theorem retreiveCalls_flash (env : ReadEnv) (m : Fin 3 → Malloc) (st : Store) :
    (retreiveCalls env m st).flash = st.flash := by
  rw [retreiveCalls]
  split
  · rfl
  · split <;> rfl

theorem retreiveCalls_powerOn {flash : Flash} {s : CString} (hs : flash .nvsCalls = some s) :
    (retreiveCalls .ok (fun _ => .ok) (Store.powerOn flash)).calls =
      (CallConfig.parse s).toCalls :=
  have hflash : (Store.powerOn flash).flash .nvsCalls = some s := hs
  retreiveCalls_calls hflash

theorem splitDept_fst (s : CString) : (splitDept s).1 = ⟨s.fields[0]?, s.fields[1]?⟩ := by
  have hbind (k : Option CString → StateM CString Deptrecord) (s : CString) :
      (CString.strtok >>= k) s = k (CString.strtok s).1 (CString.strtok s).2 := rfl
  simp only [splitDept, hbind, CString.strtok_fst, CString.fields_strtok_snd,
    List.head?_eq_getElem?, List.getElem?_tail]
  rfl

/-- Where the parser reads no department the setter is handed a NULL pointer. -/
theorem retreiveDepts_ok {st : Store} {s : CString} (hs : st.flash .nvsDept = some s) :
    retreiveDepts .ok .ok st =
      match DeptEntry.parse s with
      | none => .error .nullAccess
      | some e => .ok { st with department := e.toRecord } := by
  simp only [retreiveDepts, readStringFromNvs_ok, hs, ReadEnv.ok_strdup, if_true,
    splitDept_fst, dropPlaceholder_getElem?, DeptEntry.parse]
  cases Field.ofToken s.fields[0]? <;> cases Field.ofToken s.fields[1]? <;> rfl

/-! ### `saveCalls` writes what the parser reads -/

def slotFields (r : Callrecord) : List CString :=
  [orDefault r.status, orDefault r.mancalldesc, orDefault r.mancallto]

theorem callFields_eq (calls : Calls) :
    callFields calls = slotFields (calls 0) ++ (slotFields (calls 1) ++ slotFields (calls 2)) :=
  rfl

/-- The exact-size buffer holds the whole text. -/
theorem serializedCalls_eq (calls : Calls) :
    serializedCalls calls = CString.commaJoin (callFields calls) := by
  apply CString.snprintf_of_lt
  rw [CString.strlen_commaJoin, callsTotalLen]
  have hlen : (callFields calls).length = 9 := rfl
  omega

/-- The fields of the stored text that come from one slot. -/
def slotRuns (r : Callrecord) : List CString := (slotFields r).flatMap CString.fields

theorem fields_serializedCalls (calls : Calls) :
    (serializedCalls calls).fields =
      slotRuns (calls 0) ++ (slotRuns (calls 1) ++ slotRuns (calls 2)) := by
  rw [serializedCalls_eq, CString.fields_commaJoin, callFields_eq, List.flatMap_append,
    List.flatMap_append]
  rfl

theorem serializedDept_eq (d : Deptrecord) :
    serializedDept d = CString.commaJoin (deptFields d) := by
  apply CString.snprintf_of_lt
  rw [CString.strlen_commaJoin, deptTotalLen]
  have hlen : (deptFields d).length = 2 := rfl
  omega

theorem fields_serializedDept (d : Deptrecord) :
    (serializedDept d).fields = (orDefault d.deptname).fields ++ (orDefault d.deptid).fields := by
  rw [serializedDept_eq, CString.fields_commaJoin]
  simp [deptFields]

@[simp] theorem slotRuns_unset :
    slotRuns .unset = [CString.space, CString.space, CString.space] := by
  decide

@[simp] theorem slotRuns_toRecord (e : CallEntry) :
    slotRuns e.toRecord = [e.status.str, e.mancalldesc.str, e.mancallto.str] := by
  simp [slotRuns, slotFields, CallEntry.toRecord, orDefault,
    CString.fields_of_isField e.status.isField, CString.fields_of_isField e.mancalldesc.isField,
    CString.fields_of_isField e.mancallto.isField]

/-- A slot of a configuration takes three fields, and the parser reads the slot
back from them wherever they stand. -/
theorem slotRuns_toCalls_length (c : CallConfig) (i : Fin 3) :
    (slotRuns (c.toCalls i)).length = 3 := by
  cases h : c i with
  | none => simp [CallConfig.toCalls_of_none h]
  | some e => simp [CallConfig.toCalls_of_some h]

theorem CallEntry.ofTokens_slotRuns (c : CallConfig) (i : Fin 3) (before after : List CString) :
    CallEntry.ofTokens (before ++ (slotRuns (c.toCalls i) ++ after)) before.length = c i := by
  cases h : c i with
  | none =>
      simp [CallEntry.ofTokens, CallConfig.toCalls_of_none h]
  | some e =>
      rw [CallEntry.ofTokens_eq_some, CallConfig.toCalls_of_some h]
      simp

/-- **Saving and parsing.** The text of a configuration is read back as that
configuration. -/
theorem CallConfig.parse_serializedCalls (c : CallConfig) :
    CallConfig.parse (serializedCalls c.toCalls) = c := by
  have hlen := slotRuns_toCalls_length c
  funext i
  rw [CallConfig.parse, fields_serializedCalls]
  fin_cases i
  · exact CallEntry.ofTokens_slotRuns c 0 [] _
  · have := CallEntry.ofTokens_slotRuns c 1 (slotRuns (c.toCalls 0)) (slotRuns (c.toCalls 2))
    rwa [hlen 0] at this
  · have := CallEntry.ofTokens_slotRuns c 2 (slotRuns (c.toCalls 0) ++ slotRuns (c.toCalls 1)) []
    rwa [List.length_append, hlen 0, hlen 1, List.append_nil, List.append_assoc] at this

end AndonConsole
