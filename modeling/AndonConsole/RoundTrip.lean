import AndonConsole.Config
import Mathlib.Algebra.Order.BigOperators.Group.List
import Mathlib.Algebra.Order.Group.Nat

/-!
Configurations through flash: what a save followed by a power cycle keeps.

Whole call slots come back exactly when all their strings are fields and
none of them is the placeholder. One slot on its own is at the mercy of the
slots in front of it: whatever it holds, it comes back exactly if these fill
three fields each. Where they do not, the text is shifted, and a slot comes
back only if the text happens to repeat it.
-/

namespace AndonConsole

/-- The store after saving the calls, a power cycle and reading them back. -/
def saveAndReboot (st : Store) : Store :=
  retreiveCalls .ok (fun _ => .ok) (Store.powerOn (saveCalls .ok st).flash)

theorem saveCalls_flash (st : Store) :
    (saveCalls .ok st).flash =
      Function.update st.flash .nvsCalls (some (serializedCalls st.calls)) := rfl

theorem saveAndReboot_calls (st : Store) :
    (saveAndReboot st).calls = (CallConfig.parse (serializedCalls st.calls)).toCalls :=
  retreiveCalls_powerOn (by simp [saveCalls_flash])

/-! ### All slots together -/

theorem CallEntry.strings_toRecord (e : CallEntry) :
    e.toRecord.strings = [e.status.str, e.mancalldesc.str, e.mancallto.str] := rfl

theorem Callrecord.exists_entry {r : Callrecord} (hset : r.IsSet)
    (hstr : ∀ s ∈ r.strings, s.IsField ∧ s ≠ CString.space) :
    ∃ e : CallEntry, r = e.toRecord := by
  obtain ⟨s, d, t, rfl⟩ := hset
  have hs := hstr s (by simp)
  have hd := hstr d (by simp)
  have ht := hstr t (by simp)
  exact ⟨⟨⟨s, hs.1, hs.2⟩, ⟨d, hd.1, hd.2⟩, ⟨t, ht.1, ht.2⟩⟩, rfl⟩

theorem exists_config_iff {calls : Calls} (hwhole : ∀ i, (calls i).IsWhole) :
    (∃ c : CallConfig, c.toCalls = calls) ↔
      ∀ i, ∀ s ∈ (calls i).strings, s.IsField ∧ s ≠ CString.space := by
  constructor
  · rintro ⟨c, rfl⟩ i s hs
    cases hc : c i with
    | none =>
        rw [CallConfig.toCalls_of_none hc] at hs
        simp at hs
    | some e =>
        rw [CallConfig.toCalls_of_some hc, CallEntry.strings_toRecord] at hs
        simp only [List.mem_cons, List.not_mem_nil, or_false] at hs
        rcases hs with rfl | rfl | rfl
        · exact ⟨e.status.isField, e.status.notBlank⟩
        · exact ⟨e.mancalldesc.isField, e.mancalldesc.notBlank⟩
        · exact ⟨e.mancallto.isField, e.mancallto.notBlank⟩
  · intro hstr
    have hslot : ∀ i, ∃ o : Option CallEntry,
        o.elim Callrecord.unset CallEntry.toRecord = calls i := by
      intro i
      rcases hwhole i with hunset | hset
      · exact ⟨none, hunset.symm⟩
      · obtain ⟨e, he⟩ := Callrecord.exists_entry hset (hstr i)
        exact ⟨some e, he.symm⟩
    choose c hc using hslot
    refine ⟨c, funext fun i => ?_⟩
    rw [← hc i, CallConfig.toCalls]
    cases c i <;> rfl

/-- **Round trip.** Whole slots come back from flash exactly when every string
of every set slot is non-empty, free of commas and not the placeholder; and
the text is never cut, whatever the strings are. -/
theorem saveAndReboot_calls_eq_iff (st : Store) (hwhole : ∀ i, (st.calls i).IsWhole) :
    ((saveAndReboot st).calls = st.calls ↔
        ∀ i, ∀ s ∈ (st.calls i).strings, s.IsField ∧ s ≠ CString.space) ∧
      (saveCalls .ok st).flash .nvsCalls = some (CString.commaJoin (callFields st.calls)) ∧
      (CString.commaJoin (callFields st.calls)).strlen + 1 = callsTotalLen st.calls := by
  refine ⟨?_, ?_, ?_⟩
  · rw [← exists_config_iff hwhole, saveAndReboot_calls]
    constructor
    · intro h
      exact ⟨_, h⟩
    · rintro ⟨c, hc⟩
      rw [← hc, CallConfig.parse_serializedCalls]
  · simp [saveCalls_flash, serializedCalls_eq]
  · rw [CString.strlen_commaJoin, callsTotalLen]
    rfl

def demoStore : Store where
  calls := ![⟨some (.ofString "Red"), some (.ofString "Test Problem1"),
    some (.ofString "Test person1")⟩, .unset, .unset]
  department := .unset
  flash _ := none

theorem demoStore_isWhole (i : Fin 3) : (demoStore.calls i).IsWhole := by
  fin_cases i
  · exact .inr ⟨_, _, _, rfl⟩
  · exact .inl rfl
  · exact .inl rfl

theorem demoStore_saveAndReboot :
    (saveAndReboot demoStore).calls = demoStore.calls := by
  apply (saveAndReboot_calls_eq_iff demoStore demoStore_isWhole).1.mpr
  decide

/-! ### One slot among the others -/

/-- The fields of the stored text in front of those of slot `i`. -/
def runsBefore (calls : Calls) : Fin 3 → List CString
  | 0 => []
  | 1 => slotRuns (calls 0)
  | 2 => slotRuns (calls 0) ++ slotRuns (calls 1)

def runsAfter (calls : Calls) : Fin 3 → List CString
  | 0 => slotRuns (calls 1) ++ slotRuns (calls 2)
  | 1 => slotRuns (calls 2)
  | 2 => []

/-- The strings of slot `i`, between what the other slots make of the text, are
where three fields for every slot in front put them. -/
def SlotInPlace (calls : Calls) (i : Fin 3) : Prop :=
  (calls i).strings <+:
    (runsBefore calls i ++ ((calls i).strings ++ runsAfter calls i)).drop (3 * (i : ℕ))

/-- Slots in front that fill three fields each keep every slot in place. -/
theorem slotInPlace_of_length {calls : Calls} {i : Fin 3}
    (h : (runsBefore calls i).length = 3 * (i : ℕ)) : SlotInPlace calls i := by
  rw [SlotInPlace, ← h, List.drop_left]
  exact List.prefix_append _ _

theorem fields_serializedCalls_at (calls : Calls) (i : Fin 3) :
    (serializedCalls calls).fields =
      runsBefore calls i ++ (slotRuns (calls i) ++ runsAfter calls i) := by
  rw [fields_serializedCalls]
  fin_cases i <;> simp [runsBefore, runsAfter]

theorem three_isPrefix_drop {α : Type*} (a b c : α) (l : List α) (k : ℕ) :
    [a, b, c] <+: l.drop k ↔
      l[k]? = some a ∧ l[k + 1]? = some b ∧ l[k + 2]? = some c := by
  rw [List.prefix_iff_getElem?]
  simp only [List.length_cons, List.length_nil, List.getElem?_drop]
  constructor
  · intro h
    exact ⟨h 0 (by simp), h 1 (by simp), h 2 (by simp)⟩
  · rintro ⟨ha, hb, hc⟩ i hi
    match i, hi with
    | 0, _ => exact ha
    | 1, _ => exact hb
    | 2, _ => exact hc

theorem saveAndReboot_slot_iff (st : Store) (i : Fin 3) (e : CallEntry)
    (he : st.calls i = e.toRecord) :
    (saveAndReboot st).calls i = st.calls i ↔ SlotInPlace st.calls i := by
  have hread : (saveAndReboot st).calls i = st.calls i ↔
      CallConfig.parse (serializedCalls st.calls) i = some e := by
    rw [saveAndReboot_calls, he]
    cases hp : CallConfig.parse (serializedCalls st.calls) i with
    | none =>
        simp [CallConfig.toCalls_of_none hp, CallEntry.toRecord, Callrecord.unset]
    | some e' =>
        simp [CallConfig.toCalls_of_some hp, CallEntry.toRecord_injective.eq_iff]
  rw [hread, CallConfig.parse, CallEntry.ofTokens_eq_some, ← three_isPrefix_drop,
    fields_serializedCalls_at st.calls i, SlotInPlace, he, slotRuns_toRecord,
    CallEntry.strings_toRecord]

theorem runsBefore_update (calls : Calls) (i : Fin 3) (r : Callrecord) :
    runsBefore (Function.update calls i r) i = runsBefore calls i := by
  fin_cases i <;> simp [runsBefore]

theorem runsAfter_update (calls : Calls) (i : Fin 3) (r : Callrecord) :
    runsAfter (Function.update calls i r) i = runsAfter calls i := by
  fin_cases i <;> simp [runsAfter]

/-- There is always a field that a given list does not hold: a longer one. -/
theorem Field.exists_notMem (l : List CString) : ∃ f : Field, f.str ∉ l := by
  have hmem (n : ℕ) : ∀ b ∈ List.replicate (n + 2) (65 : UInt8), b = 65 := by simp
  let long : CString :=
    ⟨List.replicate ((l.map CString.strlen).sum + 2) 65, fun h => by
      simpa using hmem _ _ h⟩
  refine ⟨⟨long, ⟨by simp [long], fun h => ?_⟩, fun h => ?_⟩, fun h => ?_⟩
  · simpa [CString.comma] using hmem _ _ h
  · simpa [long, CString.space, CString.strlen] using congrArg CString.strlen h
  · have hle : long.strlen ≤ (l.map CString.strlen).sum :=
      List.le_sum_of_mem (List.mem_map_of_mem h)
    simp only [CString.strlen, long, List.length_replicate] at hle
    omega

/-- Whatever a slot may be set to, it comes back only if the slots in front of
it fill three fields each. -/
theorem saveAndReboot_every_entry_iff (st : Store) (i : Fin 3) :
    (∀ e : CallEntry, (saveAndReboot
        { st with calls := Function.update st.calls i e.toRecord }).calls i = e.toRecord) ↔
      (runsBefore st.calls i).length = 3 * (i : ℕ) := by
  have hiff (e : CallEntry) := saveAndReboot_slot_iff
    { st with calls := Function.update st.calls i e.toRecord } i e (Function.update_self ..)
  simp only [Function.update_self] at hiff
  constructor
  · intro h
    simp only [SlotInPlace, Function.update_self, runsBefore_update, runsAfter_update,
      CallEntry.strings_toRecord, three_isPrefix_drop] at hiff
    obtain ⟨g, -⟩ := Field.exists_notMem []
    obtain ⟨f, hf⟩ := Field.exists_notMem (g.str :: (runsBefore st.calls i ++ runsAfter st.calls i))
    simp only [List.mem_cons, List.mem_append, not_or] at hf
    obtain ⟨hhead, -, -⟩ := (hiff ⟨f, g, g⟩).mp (h ⟨f, g, g⟩)
    -- a string that stands nowhere else shows where the slot is
    rcases lt_trichotomy (3 * (i : ℕ)) (runsBefore st.calls i).length with hlt | heq | hgt
    · rw [List.getElem?_append_left hlt] at hhead
      exact absurd (List.mem_of_getElem? hhead) hf.2.1
    · exact heq.symm
    · rw [List.getElem?_append_right hgt.le, List.cons_append,
        List.getElem?_cons, if_neg (by omega)] at hhead
      have := List.mem_of_getElem? hhead
      simp [hf.1, hf.2.2] at this
  · intro hlen e
    exact (hiff e).mpr (slotInPlace_of_length ((runsBefore_update _ _ _).symm ▸ hlen))

/-! ### The department -/

/-- The department after saving it, a power cycle and reading it back. -/
def saveDeptAndReboot (st : Store) : Exec Deptrecord :=
  (retreiveDepts .ok .ok (Store.powerOn (saveDepts .ok st).flash)).map Store.department

theorem saveDeptAndReboot_eq (st : Store) :
    saveDeptAndReboot st =
      match DeptEntry.parse (serializedDept st.department) with
      | none => .error .nullAccess
      | some e => .ok e.toRecord := by
  rw [saveDeptAndReboot, retreiveDepts_ok (s := serializedDept st.department)
    (by simp [Store.powerOn, saveDepts])]
  cases DeptEntry.parse (serializedDept st.department) <;> rfl

/-- Of the fields that the name and the id make of the text, the first is not the
placeholder and the second is the id. -/
def DeptIdInPlace (name id : CString) : Prop :=
  name.fields.head? ≠ some CString.space ∧ (name.fields ++ [id])[1]? = some id

theorem saveDeptAndReboot_id_iff (st : Store) (name : CString) (id : Field)
    (hdept : st.department = ⟨some name, some id.str⟩) :
    (∃ d, saveDeptAndReboot st = .ok d ∧ d.deptid = some id.str) ↔
      DeptIdInPlace name id.str := by
  have hruns : (serializedDept st.department).fields = name.fields ++ [id.str] := by
    rw [fields_serializedDept, hdept]
    simp [orDefault, CString.fields_of_isField id.isField]
  have hparse : (∃ d, saveDeptAndReboot st = .ok d ∧ d.deptid = some id.str) ↔
      ∃ e : DeptEntry, DeptEntry.parse (serializedDept st.department) = some e ∧
        e.deptid.str = id.str := by
    rw [saveDeptAndReboot_eq]
    cases DeptEntry.parse (serializedDept st.department) <;> simp [DeptEntry.toRecord]
  rw [hparse, DeptIdInPlace]
  simp only [DeptEntry.parse_eq_some, hruns]
  cases hname : name.fields with
  | nil => simp
  | cons x rest =>
      have hx : x.IsField := CString.isField_of_mem_fields (by rw [hname]; simp)
      simp only [List.cons_append, List.getElem?_cons_zero, List.getElem?_cons_succ,
        Option.some.injEq, List.head?_cons, ne_eq]
      refine ⟨fun h => ?_, fun h => ?_⟩
      · obtain ⟨e, ⟨hfst, hsnd⟩, hid⟩ := h
        exact ⟨fun h => e.deptname.notBlank (hfst ▸ h), by rw [hsnd, hid]⟩
      · obtain ⟨hblank, hsnd⟩ := h
        exact ⟨⟨⟨x, hx, hblank⟩, id⟩, ⟨rfl, hsnd⟩, rfl⟩

/-- Whatever the id is, it comes back only behind a name that is one field and
not the placeholder. -/
theorem saveDeptAndReboot_every_id_iff (st : Store) (name : CString) :
    (∀ id : Field, ∃ d, saveDeptAndReboot
        { st with department := ⟨some name, some id.str⟩ } = .ok d ∧ d.deptid = some id.str) ↔
      ∃ x, name.fields = [x] ∧ x ≠ CString.space := by
  have hiff (id : Field) := saveDeptAndReboot_id_iff
    { st with department := ⟨some name, some id.str⟩ } name id rfl
  simp only [hiff, DeptIdInPlace]
  refine ⟨fun h => ?_, fun h id => ?_⟩
  · obtain ⟨id, hid⟩ := Field.exists_notMem name.fields
    obtain ⟨hblank, hsnd⟩ := h id
    rcases hname : name.fields with _ | ⟨x, _ | ⟨y, rest⟩⟩
    · simp [hname] at hsnd
    · exact ⟨x, rfl, by simpa [hname] using hblank⟩
    · simp only [hname, List.cons_append, List.getElem?_cons_succ, List.getElem?_cons_zero,
        Option.some.injEq] at hsnd
      exact absurd (by simp [hname, hsnd]) hid
  · obtain ⟨x, hname, hx⟩ := h
    simp [hname, hx]

/-! ### Fields do not protect each other -/

/-- **Interference.** Whatever it is set to, a slot made of fields comes back
exactly when the slots in front of it fill three fields each, and an id exactly
when the name is one field. In one store a slot comes back exactly when it is in
place, and so does the id. -/
theorem stored_fields_kept_iff (st : Store) :
    ((∀ i : Fin 3, (∀ e : CallEntry, (saveAndReboot
          { st with calls := Function.update st.calls i e.toRecord }).calls i = e.toRecord) ↔
        (runsBefore st.calls i).length = 3 * (i : ℕ)) ∧
      ∀ (i : Fin 3) (e : CallEntry), st.calls i = e.toRecord →
        ((saveAndReboot st).calls i = e.toRecord ↔ SlotInPlace st.calls i)) ∧
    (∀ name : CString, (∀ id : Field, ∃ d, saveDeptAndReboot
          { st with department := ⟨some name, some id.str⟩ } = .ok d ∧
            d.deptid = some id.str) ↔
        ∃ x, name.fields = [x] ∧ x ≠ CString.space) ∧
      ∀ (name : CString) (id : Field), st.department = ⟨some name, some id.str⟩ →
        ((∃ d, saveDeptAndReboot st = .ok d ∧ d.deptid = some id.str) ↔
          DeptIdInPlace name id.str) := by
  refine ⟨⟨saveAndReboot_every_entry_iff st, fun i e he => ?_⟩,
    saveDeptAndReboot_every_id_iff st, fun name id hdept => ?_⟩
  · rw [← he]
    exact saveAndReboot_slot_iff st i e he
  · exact saveDeptAndReboot_id_iff st name id hdept

def fieldRed : Field := ⟨.ofString "Red", by decide, by decide⟩

def fieldJam : Field := ⟨.ofString "Jam", by decide, by decide⟩

def fieldOne : Field := ⟨.ofString "1", by decide, by decide⟩

/-- A comma in the description of the first slot and in the department name. -/
def commaStore : Store where
  calls := ![⟨some (.ofString "Red"), some (.ofString "Leak, Press 2"),
    some (.ofString "Foreman")⟩, (⟨fieldRed, fieldJam, fieldOne⟩ : CallEntry).toRecord, .unset]
  department := ⟨some (.ofString "Assembly, Line 2"), some fieldOne.str⟩
  flash _ := none

theorem commaStore_isWhole (i : Fin 3) : (commaStore.calls i).IsWhole := by
  fin_cases i
  · exact .inr ⟨_, _, _, rfl⟩
  · exact .inr ⟨_, _, _, rfl⟩
  · exact .inl rfl

theorem stored_fields_kept_demo :
    (saveAndReboot demoStore).calls 0 = demoStore.calls 0 ∧
      ∃ d, saveDeptAndReboot
        { commaStore with department := ⟨some fieldJam.str, some fieldOne.str⟩ } = .ok d ∧
        d.deptid = some fieldOne.str :=
  ⟨((stored_fields_kept_iff demoStore).1.2 0
      ⟨⟨.ofString "Red", by decide, by decide⟩, ⟨.ofString "Test Problem1", by decide, by decide⟩,
        ⟨.ofString "Test person1", by decide, by decide⟩⟩ rfl).mpr (slotInPlace_of_length rfl),
    ((stored_fields_kept_iff _).2.2 fieldJam.str fieldOne rfl).mpr
      ⟨by decide, by decide⟩⟩

/-- The second slot of `commaStore` and its department id are clean, and neither
comes back. -/
theorem commaStore_not_kept :
    (∀ j, (commaStore.calls j).IsWhole) ∧
      commaStore.calls 1 = (⟨fieldRed, fieldJam, fieldOne⟩ : CallEntry).toRecord ∧
      (saveAndReboot commaStore).calls 1 ≠ commaStore.calls 1 ∧
      saveDeptAndReboot commaStore =
        .ok ⟨some (.ofString "Assembly"), some (.ofString " Line 2")⟩ := by
  refine ⟨commaStore_isWhole, rfl, ?_, ?_⟩
  · decide
  · rw [saveDeptAndReboot_eq]
    decide

end AndonConsole
