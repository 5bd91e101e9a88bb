import AndonConsole.RoundTrip

/-!
Loading the calls from any text, and saving what was loaded.

The stored text can be anything that a flash may hold. `retreiveCalls` is
first shown to read no NULL pointer, on a version of it in which every read
is checked, and to set each slot by a reference parser: all three fields
where they exist and none is the placeholder, or nothing at all. Saving what
has been loaded gives a normal form, which is loaded and saved as it is.
-/

namespace AndonConsole

/-! ### Every pointer read -/

namespace Checked

/-- `setCallrecord` with `strlen` and `strcpy` as reads of their arguments. -/
def setCallrecord (m : Malloc) (record : Callrecord) (status desc mancallto : Option CString) :
    Exec Callrecord :=
  if status = none ∨ desc = none ∨ mancallto = none then return record
  else do
    let status ← deref status
    let desc ← deref desc
    let mancallto ← deref mancallto
    return {
      status := m.copy 0 status
      mancalldesc := m.copy 1 desc
      mancallto := m.copy 2 mancallto }

/-- `if (p != NULL && strcmp(p, " ") == 0) p = NULL;` with `strcmp` as a read. -/
def dropPlaceholder (p : Option CString) : Exec (Option CString) :=
  if p ≠ none then do
    let s ← deref p
    return if s = CString.space then none else p
  else return p

def retreiveCalls (env : ReadEnv) (m : Fin 3 → Malloc) (st : Store) : Exec Store :=
  match readStringFromNvs env .nvsCalls st.flash with
  | none => return st
  | some serialized =>
      if env.strdup then do
        let calls ← setFromTokens dropPlaceholder (fun i => setCallrecord (m i) (st.calls i))
          (splitCalls serialized).1
        return { st with calls }
      else return st

theorem setCallrecord_eq (m : Malloc) (record : Callrecord)
    (status desc mancallto : Option CString) :
    setCallrecord m record status desc mancallto =
      .ok (AndonConsole.setCallrecord m record status desc mancallto) := by
  cases status <;> cases desc <;> cases mancallto <;> rfl

theorem dropPlaceholder_eq (p : Option CString) :
    dropPlaceholder p = .ok (AndonConsole.dropPlaceholder p) := by
  cases p with
  | none => rfl
  | some s =>
      by_cases hs : s = CString.space <;>
        simp [dropPlaceholder, AndonConsole.dropPlaceholder, hs, bind, Except.bind, pure,
          Except.pure]

/-- The NULL checks of `retreiveCalls` and of the setter cover every read. -/
theorem retreiveCalls_eq (env : ReadEnv) (m : Fin 3 → Malloc) (st : Store) :
    retreiveCalls env m st = .ok (AndonConsole.retreiveCalls env m st) := by
  rw [retreiveCalls, AndonConsole.retreiveCalls]
  cases readStringFromNvs env .nvsCalls st.flash with
  | none => rfl
  | some serialized =>
      cases env.strdup with
      | false => rfl
      | true =>
          simp only [if_true, setFromTokens, dropPlaceholder_eq, setCallrecord_eq, bind,
            Except.bind, pure, Except.pure]

end Checked

/-! ### The reference parser -/

/-- `ts` are the maximal non-empty runs of `s` without a comma, in order. -/
def CString.IsFields (s : CString) (ts : List CString) : Prop :=
  Lib.IsFields comma s.bytes (ts.map bytes)

theorem CString.isFields_iff {s : CString} {ts : List CString} :
    s.IsFields ts ↔ ts = s.fields := by
  rw [IsFields, Lib.isFields_iff, ← map_bytes_fields]
  exact (List.map_injective_iff.mpr bytes_injective).eq_iff

/-- What a slot becomes: its three fields, if they exist and none is the
placeholder. -/
def referenceSlot (ts : List CString) (i : Fin 3) (old : Callrecord) : Callrecord :=
  match ts[3 * (i : ℕ)]?, ts[3 * (i : ℕ) + 1]?, ts[3 * (i : ℕ) + 2]? with
  | some a, some b, some c =>
      if a ≠ CString.space ∧ b ≠ CString.space ∧ c ≠ CString.space then
        ⟨some a, some b, some c⟩
      else old
  | _, _, _ => old

/-- A token is a field, so only the placeholder is refused. -/
theorem Field.ofToken_of_mem {s t : CString} (ht : t ∈ s.fields) :
    Field.ofToken (some t) =
      if h : t ≠ CString.space then some ⟨t, CString.isField_of_mem_fields ht, h⟩ else none := by
  simp [Field.ofToken, CString.isField_of_mem_fields ht]

theorem referenceSlot_fields (s : CString) (i : Fin 3) (old : Callrecord) :
    referenceSlot s.fields i old =
      match CallConfig.parse s i with
      | none => old
      | some e => e.toRecord := by
  rw [referenceSlot, CallConfig.parse, CallEntry.ofTokens]
  cases ha : s.fields[3 * (i : ℕ)]? with
  | none => rfl
  | some a =>
      rw [Field.ofToken_of_mem (List.mem_of_getElem? ha)]
      cases hb : s.fields[3 * (i : ℕ) + 1]? with
      | none => by_cases a = CString.space <;> simp [*, Field.ofToken]
      | some b =>
          rw [Field.ofToken_of_mem (List.mem_of_getElem? hb)]
          cases hc : s.fields[3 * (i : ℕ) + 2]? with
          | none =>
              by_cases a = CString.space <;> by_cases b = CString.space <;>
                simp [*, Field.ofToken]
          | some c =>
              rw [Field.ofToken_of_mem (List.mem_of_getElem? hc)]
              by_cases a = CString.space <;> by_cases b = CString.space <;>
                by_cases c = CString.space <;> simp [*, CallEntry.toRecord]

/-- **Reading any text.** `retreiveCalls` reads no NULL pointer, and makes every slot
what the reference parser makes of the fields of the text. -/
theorem retreiveCalls_eq_reference (st : Store) (s : CString)
    (hs : st.flash .nvsCalls = some s) :
    (∀ ts, s.IsFields ts ↔ ts = s.fields) ∧
      ∃ st', Checked.retreiveCalls .ok (fun _ => .ok) st = .ok st' ∧
        ∀ i, st'.calls i = referenceSlot s.fields i (st.calls i) := by
  refine ⟨fun ts => CString.isFields_iff, _, Checked.retreiveCalls_eq _ _ _, fun i => ?_⟩
  rw [referenceSlot_fields]
  exact congrFun (retreiveCalls_calls hs) i

/-- A text that ends in the middle of the second slot, read over set slots. -/
theorem retreiveCalls_eq_reference_truncated :
    ∃ st', Checked.retreiveCalls .ok (fun _ => .ok)
        { commaStore with flash := fun _ => some (.ofString ",Blue,,Jam,Ann,Red,Leak") } =
        .ok st' ∧
      st'.calls 0 = ⟨some (.ofString "Blue"), some (.ofString "Jam"), some (.ofString "Ann")⟩ ∧
      st'.calls 1 = commaStore.calls 1 := by
  obtain ⟨-, st', hst', hslots⟩ := retreiveCalls_eq_reference
    { commaStore with flash := fun _ => some (.ofString ",Blue,,Jam,Ann,Red,Leak") }
    (.ofString ",Blue,,Jam,Ann,Red,Leak") rfl
  refine ⟨st', hst', ?_, ?_⟩
  · rw [hslots 0]
    decide
  · rw [hslots 1]
    decide

/-! ### The normal form of a text -/

def loadCalls (s : CString) : Calls :=
  (retreiveCalls .ok (fun _ => .ok) (Store.powerOn fun _ => some s)).calls

/-- Nine fields between single commas, the three of a slot all placeholders or
none of them. -/
def IsCanonical (s : CString) : Prop :=
  ∃ f : List CString, f.length = 9 ∧ (∀ t ∈ f, t.IsField) ∧ s = CString.commaJoin f ∧
    ∀ i : Fin 3, (∀ j : Fin 3, f[3 * (i : ℕ) + j]? = some CString.space) ∨
      ∀ j : Fin 3, f[3 * (i : ℕ) + j]? ≠ some CString.space

theorem loadCalls_eq (s : CString) : loadCalls s = (CallConfig.parse s).toCalls :=
  retreiveCalls_powerOn rfl

theorem slotFields_toCalls (c : CallConfig) (i : Fin 3) :
    (∀ t ∈ slotFields (c.toCalls i), t.IsField) ∧
      ((∀ t ∈ slotFields (c.toCalls i), t = CString.space) ∨
        ∀ t ∈ slotFields (c.toCalls i), t ≠ CString.space) := by
  cases h : c i with
  | none =>
      rw [CallConfig.toCalls_of_none h]
      refine ⟨?_, .inl ?_⟩
      all_goals decide
  | some e =>
      rw [CallConfig.toCalls_of_some h]
      simp [slotFields, CallEntry.toRecord, orDefault, e.status.isField, e.mancalldesc.isField,
        e.mancallto.isField, e.status.notBlank, e.mancalldesc.notBlank, e.mancallto.notBlank]

theorem isCanonical_serializedCalls (c : CallConfig) : IsCanonical (serializedCalls c.toCalls) := by
  refine ⟨callFields c.toCalls, rfl, ?_, serializedCalls_eq _, fun i => ?_⟩
  · intro t ht
    simp only [callFields_eq, List.mem_append] at ht
    rcases ht with ht | ht | ht
    all_goals exact (slotFields_toCalls c _).1 t ht
  · have hslot : ∀ j : Fin 3, ∃ t ∈ slotFields (c.toCalls i),
        (callFields c.toCalls)[3 * (i : ℕ) + j]? = some t := by
      intro j
      fin_cases i <;> fin_cases j <;> exact ⟨_, by simp [slotFields], rfl⟩
    rcases (slotFields_toCalls c i).2 with hall | hnone
    · refine .inl fun j => ?_
      obtain ⟨t, ht, hget⟩ := hslot j
      rw [hget, hall t ht]
    · refine .inr fun j => ?_
      obtain ⟨t, ht, hget⟩ := hslot j
      rw [hget, ne_eq, Option.some.injEq]
      exact hnone t ht

theorem slotFields_parse {s : CString} {i : Fin 3} {a b c : CString}
    (ha : s.fields[3 * (i : ℕ)]? = some a) (hb : s.fields[3 * (i : ℕ) + 1]? = some b)
    (hc : s.fields[3 * (i : ℕ) + 2]? = some c)
    (h : (a = CString.space ∧ b = CString.space ∧ c = CString.space) ∨
      (a ≠ CString.space ∧ b ≠ CString.space ∧ c ≠ CString.space)) :
    slotFields ((CallConfig.parse s).toCalls i) = [a, b, c] := by
  rcases h with ⟨rfl, rfl, rfl⟩ | ⟨hna, hnb, hnc⟩
  · have hnone : CallConfig.parse s i = none := by
      rw [Option.eq_none_iff_forall_ne_some]
      intro e he
      have hstatus := (CallEntry.ofTokens_eq_some.mp he).1
      rw [ha, Option.some.injEq] at hstatus
      exact e.status.notBlank hstatus.symm
    rw [CallConfig.toCalls_of_none hnone]
    rfl
  · have hfield {t : CString} {k : ℕ} (ht : s.fields[k]? = some t) : t.IsField :=
      CString.isField_of_mem_fields (List.mem_of_getElem? ht)
    have hsome : CallConfig.parse s i =
        some ⟨⟨a, hfield ha, hna⟩, ⟨b, hfield hb, hnb⟩, ⟨c, hfield hc, hnc⟩⟩ :=
      CallEntry.ofTokens_eq_some.mpr ⟨ha, hb, hc⟩
    rw [CallConfig.toCalls_of_some hsome]
    rfl

theorem CString.fields_commaJoin_of_isField {f : List CString} (hf : ∀ t ∈ f, t.IsField) :
    (commaJoin f).fields = f := by
  rw [fields_commaJoin]
  induction f with
  | nil => rfl
  | cons t f ih =>
      rw [List.flatMap_cons, fields_of_isField (hf t (by simp)), ih fun u hu => hf u (by simp [hu])]
      rfl

theorem serializedCalls_loadCalls {s : CString} (h : IsCanonical s) :
    serializedCalls (loadCalls s) = s := by
  obtain ⟨f, hlen, hfield, hs, hslots⟩ := h
  have hfields : s.fields = f := by rw [hs, CString.fields_commaJoin_of_isField hfield]
  have hslot (i : Fin 3) : slotFields ((CallConfig.parse s).toCalls i) =
      (f.drop (3 * (i : ℕ))).take 3 := by
    have hlt : 3 * (i : ℕ) + 2 < f.length := by omega
    have hget {k : ℕ} (hk : k < f.length) : s.fields[k]? = some f[k] := by
      rw [hfields, List.getElem?_eq_getElem hk]
    rw [slotFields_parse (hget (by omega)) (hget (by omega)) (hget hlt) ?_]
    · rw [List.drop_eq_getElem_cons (by omega), List.drop_eq_getElem_cons (by omega),
        List.drop_eq_getElem_cons hlt]
      rfl
    · have hval {k : ℕ} (hk : k < f.length) : f[k]? = some f[k] := List.getElem?_eq_getElem hk
      have hiff (j : Fin 3) (hj : 3 * (i : ℕ) + j < f.length) :
          f[3 * (i : ℕ) + j]? = some CString.space ↔ f[3 * (i : ℕ) + j] = CString.space := by
        rw [hval hj, Option.some.injEq]
      rcases hslots i with hall | hnone
      · exact .inl ⟨(hiff 0 (by omega)).mp (hall 0), (hiff 1 (by omega)).mp (hall 1),
          (hiff 2 hlt).mp (hall 2)⟩
      · exact .inr ⟨(hiff 0 (by omega)).not.mp (hnone 0), (hiff 1 (by omega)).not.mp (hnone 1),
          (hiff 2 hlt).not.mp (hnone 2)⟩
  rw [loadCalls_eq, serializedCalls_eq, callFields_eq, hslot 0, hslot 1, hslot 2, hs]
  congr 1
  -- the three threes of a list of nine
  have h3 : (f.drop 6).take 3 = f.drop 6 := List.take_of_length_le (by simp [hlen])
  calc (f.drop 0).take 3 ++ ((f.drop 3).take 3 ++ (f.drop 6).take 3)
      = f.take 3 ++ ((f.drop 3).take 3 ++ (f.drop 3).drop 3) := by rw [h3, List.drop_drop]; rfl
    _ = f := by rw [List.take_append_drop, List.take_append_drop]

/-- **Saving what was loaded.** Loading any text and saving it again gives a text that is
loaded to the same calls and saved as it is; and the texts that are saved as they are, are
the canonical ones. -/
theorem serializedCalls_loadCalls_normal (s : CString) :
    (∀ st : Store, (saveCalls .ok st).flash .nvsCalls = some (serializedCalls st.calls)) ∧
      loadCalls (serializedCalls (loadCalls s)) = loadCalls s ∧
      serializedCalls (loadCalls (serializedCalls (loadCalls s))) = serializedCalls (loadCalls s) ∧
      (serializedCalls (loadCalls s) = s ↔ IsCanonical s) := by
  have hload : loadCalls (serializedCalls (loadCalls s)) = loadCalls s := by
    rw [loadCalls_eq, loadCalls_eq, CallConfig.parse_serializedCalls]
  refine ⟨fun st => ?_, hload, by rw [hload], fun hs => ?_, serializedCalls_loadCalls⟩
  · rw [saveCalls_flash, Function.update_self]
  · rw [← hs, loadCalls_eq]
    exact isCanonical_serializedCalls _

end AndonConsole
