import AndonConsole.Console
import AndonConsole.RoundTrip
import Mathlib.Data.List.ReduceOption

/-!
Texts of one line.

A line feed in a text would take `TFT_print` out of its row. If there is none in
the records, in the configuration and in the stored text of the calls, there is
none in any text that comes to the display, in any run: the texts are copied,
cut, joined with commas and split at commas, and the literals have none.
-/

namespace AndonConsole

namespace CString

def OneLine (s : CString) : Prop := 0x0A ∉ s.bytes

instance : DecidablePred OneLine := fun _ => inferInstanceAs (Decidable (_ ∉ _))

variable {s t : CString}

theorem OneLine.snprintf (h : s.OneLine) (n : ℕ) : (s.snprintf n).OneLine :=
  fun hmem => h (List.mem_of_mem_take hmem)

theorem OneLine.precision (h : s.OneLine) (n : ℕ) : (s.precision n).OneLine :=
  fun hmem => h (List.mem_of_mem_take hmem)

theorem OneLine.append (hs : s.OneLine) (ht : t.OneLine) : (s.append t).OneLine :=
  fun hmem => (List.mem_append.mp hmem).elim hs ht

theorem oneLine_commaJoin {l : List CString} (h : ∀ s ∈ l, s.OneLine) :
    (commaJoin l).OneLine := by
  induction l with
  | nil => simp [OneLine, commaJoin, List.intercalate]
  | cons s l ih =>
      have hs : 0x0A ∉ s.bytes := h s (by simp)
      cases l with
      | nil => simpa [OneLine, commaJoin, List.intercalate] using hs
      | cons t l =>
          have hrest : (0x0A : UInt8) ∉ (commaJoin (t :: l)).bytes :=
            ih fun s' hs' => h s' (by simp [hs'])
          have hbytes : (commaJoin (s :: t :: l)).bytes =
              s.bytes ++ [comma] ++ (commaJoin (t :: l)).bytes := List.intercalate_cons_cons
          have hcomma : (0x0A : UInt8) ≠ comma := by decide
          rw [OneLine, hbytes]
          simp [hs, hrest, hcomma]

theorem OneLine.of_mem_fields (h : s.OneLine) (ht : t ∈ s.fields) : t.OneLine := by
  have hbytes : t.bytes ∈ s.fields.map bytes := List.mem_map_of_mem ht
  rw [map_bytes_fields] at hbytes
  exact fun hmem => h ((Lib.mem_fields hbytes).2.2 hmem)

end CString

/-! ### Records -/

theorem oneLine_orDefault {p : Option CString} (h : ∀ s, p = some s → s.OneLine) :
    (orDefault p).OneLine := by
  cases p with
  | none => decide
  | some s => exact h s rfl

def Callrecord.OneLine (r : Callrecord) : Prop := ∀ s ∈ r.strings, s.OneLine

instance : DecidablePred Callrecord.OneLine := fun _ =>
  inferInstanceAs (Decidable (∀ s ∈ _, _))

namespace Callrecord

variable {r : Callrecord}

theorem mem_strings {s : CString} :
    s ∈ r.strings ↔ r.status = some s ∨ r.mancalldesc = some s ∨ r.mancallto = some s := by
  simp [strings, List.reduceOption_mem_iff, @eq_comm _ (some s)]

theorem OneLine.mancalldesc (h : r.OneLine) {s : CString} (hs : r.mancalldesc = some s) :
    s.OneLine :=
  h s (mem_strings.mpr (.inr (.inl hs)))

theorem OneLine.setCallrecord {old : Callrecord} (hold : old.OneLine) (h : r.OneLine)
    (m : Malloc) :
    (AndonConsole.setCallrecord m old r.status r.mancalldesc r.mancallto).OneLine := by
  obtain ⟨status, desc, mancallto⟩ := r
  cases status with
  | none => exact hold
  | some s =>
    cases desc with
    | none => exact hold
    | some d =>
      cases mancallto with
      | none => exact hold
      | some t =>
        intro u hu
        have hcopies : u ∈ [s, d, t] := by
          rw [mem_strings] at hu
          simp only [AndonConsole.setCallrecord, Malloc.copy, Option.ite_none_right_eq_some,
            Option.some.injEq] at hu
          rcases hu with ⟨-, rfl⟩ | ⟨-, rfl⟩ | ⟨-, rfl⟩ <;> simp
        exact h u hcopies

end Callrecord

/-- No line feed in the call slots and in their stored text. -/
structure Store.OneLine (st : Store) : Prop where
  calls : ∀ i, (st.calls i).OneLine
  flash : ∀ s, st.flash .nvsCalls = some s → s.OneLine

structure Tables.OneLine (T : Tables) : Prop where
  callRecords : ∀ r ∈ T.callRecords, r.OneLine
  deptRecords : ∀ r ∈ T.deptRecords, ∀ s, r.deptname = some s → s.OneLine

theorem oneLine_serializedCalls {calls : Calls} (h : ∀ i, (calls i).OneLine) :
    (serializedCalls calls).OneLine := by
  have hslot (i : Fin 3) : ∀ s ∈ slotFields (calls i), s.OneLine := by
    intro s hs
    simp only [slotFields, List.mem_cons, List.not_mem_nil, or_false] at hs
    rcases hs with rfl | rfl | rfl
    all_goals
      refine oneLine_orDefault fun s hs => h i s (Callrecord.mem_strings.mpr ?_)
      simp [hs]
  rw [serializedCalls_eq, callFields_eq]
  refine CString.oneLine_commaJoin fun s hs => ?_
  rcases List.mem_append.mp hs with hs | hs
  · exact hslot 0 s hs
  · rcases List.mem_append.mp hs with hs | hs
    · exact hslot 1 s hs
    · exact hslot 2 s hs

/-! ### Menus -/

theorem oneLine_drawTexts {rows : List (Option CString × ℕ × Bool)} {ws : List DispWrite}
    (h : drawTexts rows = .ok ws) (hrows : ∀ p ∈ rows, ∀ s, p.1 = some s → s.OneLine) :
    ∀ v ∈ ws, v.distring.OneLine := by
  intro v hv
  obtain ⟨p, hp, hdraw⟩ := Lib.exists_of_mem_mapM h hv
  exact hrows p hp v.distring (dispWrite_eq_ok.mp hdraw).1

theorem oneLine_showRecords {α : Type} {title : String} {records : List α}
    {text : α → Option CString} {m : ℤ} {ws : List DispWrite}
    (h : showRecords title records text m = .ok ws) (htitle : (CString.ofString title).OneLine)
    (hrecords : ∀ r ∈ records, ∀ s, text r = some s → s.OneLine) :
    ∀ v ∈ ws, v.distring.OneLine := by
  rw [showRecords] at h
  split_ifs at h
  · cases h
    have hset : (CString.ofString "Please set on mgmt console").OneLine := by decide
    have hback : (CString.ofString "Go back").OneLine := by decide
    simp [literal, htitle, hset, hback]
  · intro v hv
    obtain ⟨p, -, hdraw⟩ := Lib.exists_of_mem_mapM h hv
    obtain ⟨r, hr, hwrite⟩ := Lib.bind_eq_ok.mp hdraw
    have hmem := List.mem_of_getElem? (recordAt_eq_ok.mp hr).2
    exact hrecords r hmem v.distring (dispWrite_eq_ok.mp hwrite).1

theorem oneLine_callMenuText {r : Callrecord} (h : r.OneLine) {default : String}
    (hdefault : (CString.ofString default).OneLine) {s : CString}
    (hs : callMenuText r default = some s) : s.OneLine := by
  rw [callMenuText] at hs
  split_ifs at hs
  · exact h.mancalldesc hs
  · cases hs
    exact hdefault

theorem oneLine_mainMenuRow {r : Callrecord} (h : r.OneLine) {label : String}
    (hlabel : (CString.ofString label).OneLine) (line : ℕ) :
    ∀ v ∈ mainMenuRow label line r, v.distring.OneLine := by
  rw [mainMenuRow]
  cases hdesc : r.mancalldesc with
  | none => simp
  | some desc =>
      intro v hv
      obtain rfl := List.mem_singleton.mp hv
      exact (hlabel.append ((h.mancalldesc hdesc).precision 41)).snprintf 50

theorem Menu.oneLine_shows {T : Tables} (hT : T.OneLine) {w : World} (hw : w.toStore.OneLine)
    {menu : Menu} {ws : List DispWrite} (h : menu.shows T w = .ok ws) :
    ∀ v ∈ ws, v.distring.OneLine := by
  cases menu with
  | appMain =>
      cases h
      simp
  | mainMenu t =>
      cases h
      rw [showMainMenu]
      split_ifs
      · decide
      · intro v hv
        simp only [List.mem_append, List.mem_singleton] at hv
        rcases hv with ((hv | hv) | hv) | rfl
        · exact oneLine_mainMenuRow (hw.calls 0) (by decide) 1 v hv
        · exact oneLine_mainMenuRow (hw.calls 1) (by decide) 2 v hv
        · exact oneLine_mainMenuRow (hw.calls 2) (by decide) 3 v hv
        · decide
  | settings t item =>
      cases h
      rw [showSettings]
      split_ifs
      all_goals decide
  | setCalls t s item =>
      have htext (i : Fin 3) {default : String} (hdefault : (CString.ofString default).OneLine)
          (u : CString) (hu : callMenuText (w.calls i) default = some u) : u.OneLine :=
        oneLine_callMenuText (hw.calls i) hdefault hu
      have hback : (CString.ofString "Back").OneLine := by decide
      rw [Menu.shows, showSetCalls] at h
      split_ifs at h
      all_goals
        refine oneLine_drawTexts h fun p hp u hu => ?_
        simp only [List.mem_cons, List.not_mem_nil, or_false] at hp
        rcases hp with rfl | rfl | rfl | rfl
        all_goals first
          | exact htext 0 (by decide) u hu
          | exact htext 1 (by decide) u hu
          | exact htext 2 (by decide) u hu
          | exact Option.some.inj hu ▸ hback
  | chooseCalls t s k i item =>
      exact oneLine_showRecords h (by decide) fun r hr u hu =>
        (hT.callRecords r hr).mancalldesc hu
  | setDepartment t s item => exact oneLine_showRecords h (by decide) hT.deptRecords

/-! ### Runs -/

variable {T : Tables} {ans : Answers → Prop} {c c' : Console}

theorem Store.OneLine.saveCalls {st : Store} (h : st.OneLine) (env : SaveEnv) :
    (AndonConsole.saveCalls env st).OneLine := by
  refine ⟨by simpa using h.calls, fun s hs => ?_⟩
  rw [AndonConsole.saveCalls, saveStringToNvs] at hs
  split_ifs at hs
  · dsimp only at hs
    rw [Function.update_self, Option.some.injEq] at hs
    rw [← hs]
    exact oneLine_serializedCalls h.calls
  all_goals exact h.flash s hs

theorem Store.OneLine.congr {st st' : Store} (h : st.OneLine) (hcalls : st'.calls = st.calls)
    (hflash : st'.flash .nvsCalls = st.flash .nvsCalls) : st'.OneLine :=
  ⟨by simpa [hcalls] using h.calls, by simpa [hflash] using h.flash⟩

/-- What is loaded was cut out of the stored text, whichever copies fail. -/
theorem Store.OneLine.retreiveCalls {st : Store} (h : st.OneLine) (env : ReadEnv)
    (m : Fin 3 → Malloc) : (AndonConsole.retreiveCalls env m st).OneLine := by
  refine ⟨fun i => ?_, by simpa using h.flash⟩
  rw [AndonConsole.retreiveCalls]
  split
  · exact h.calls i
  · rename_i s hs
    split
    · have hline := h.flash s (readStringFromNvs_eq_some hs)
      have htoken (k : ℕ) (t : CString) (ht : dropPlaceholder s.fields[k]? = some t) :
          t.OneLine := by
        rw [dropPlaceholder, Option.ite_none_left_eq_some] at ht
        exact hline.of_mem_fields (List.mem_of_getElem? ht.2)
      simp only [setFromTokens_id]
      refine (h.calls i).setCallrecord (r := ⟨_, _, _⟩) (fun t ht => ?_) (m i)
      rw [splitCalls_fst, Callrecord.mem_strings] at ht
      rcases ht with ht | ht | ht
      all_goals exact htoken _ t ht
    · exact h.calls i

theorem Store.OneLine.bootWith {st st' : Store} {env : BootEnv} (h : st.OneLine)
    (hboot : AndonConsole.bootWith env st.flash = .ok st') : st'.OneLine := by
  have hinit (s : CString) (hs : nvsInitialAlloc env.initCalls .nvsCalls blankCalls
      (nvsFlashInit env.nvsErased st.flash) .nvsCalls = some s) : s.OneLine := by
    rcases nvsInitialAlloc_eq_some hs with hs | rfl
    · refine h.flash s ?_
      rw [nvsFlashInit] at hs
      split_ifs at hs
      exact hs
    · decide
  have hreset : (Store.powerOn (nvsInitialAlloc env.initCalls .nvsCalls blankCalls
      (nvsFlashInit env.nvsErased st.flash))).OneLine :=
    ⟨fun _ _ hs => (List.not_mem_nil hs).elim, hinit⟩
  have hloaded := hreset.retreiveCalls env.readCalls env.callMallocs
  obtain ⟨hcalls, hflash⟩ := retreiveDepts_frame hboot
  refine hloaded.congr hcalls ?_
  rw [hflash]
  exact nvsInitialAlloc_of_ne _ (by simp) _ _

theorem Transition.oneLine {a : Answers} {w : World} {menu : Menu} (hT : T.OneLine)
    (hw : w.toStore.OneLine) (h : Transition T a w menu c) : c.world.toStore.OneLine := by
  have henter {menu' : Menu} {w' : World} (hstore : w'.toStore = w.toStore)
      (h' : enter T menu' w' = .ok c) : c.world.toStore.OneLine := by
    obtain ⟨ws, -, rfl⟩ := enter_eq_ok.mp h'
    exact hstore ▸ hw
  cases h with
  | stay => exact hw
  | shown h' => exact henter w.cls_toStore h'
  | redraw h' => exact henter rfl h'
  | back h' => exact henter rfl h'
  | sleep hstore => exact hstore ▸ hw
  | @confirmCall _ _ _ i _ _ hne h' =>
      obtain ⟨r, hr, rfl⟩ := (chooseCallsConfirm_eq_ok hne).mp h'
      have hr' := hT.callRecords r (List.mem_of_getElem? (recordAt_eq_ok.mp hr).2)
      refine ⟨fun j => ?_, hw.flash⟩
      by_cases hj : j = i
      · subst hj
        dsimp only
        rw [Function.update_self]
        exact (hw.calls j).setCallrecord hr' _
      · dsimp only
        rw [Function.update_of_ne hj]
        exact hw.calls j
  | confirmDept h' =>
      obtain ⟨d, rfl⟩ := setDepartmentConfirm_frame h'
      exact ⟨hw.calls, hw.flash⟩

theorem Step.oneLine {e : Event} (hT : T.OneLine) (hc : c.world.toStore.OneLine)
    (h : Step T ans c e c') : c'.world.toStore.OneLine := by
  cases h with
  | poll _ h => exact (poll_transition h).oneLine hT hc
  | @saveCall a _ _ _ _ _ _ w _ _ _ h =>
      obtain ⟨ws, -, rfl⟩ := enter_eq_ok.mp h
      show (chooseCallsLeave a.saveCalls T.callRecords w).toStore.OneLine
      rw [chooseCallsLeave]
      split_ifs
      · exact hc.saveCalls a.saveCalls
      · exact hc
  | @saveDept a _ _ _ w _ _ h =>
      obtain ⟨ws, -, rfl⟩ := enter_eq_ok.mp h
      obtain ⟨hcalls, hflash⟩ := setDepartmentLeave_calls a.saveDepts T.deptRecords w
      exact hc.congr hcalls hflash
  | powerCycle _ hboot => exact hc.bootWith hboot

end AndonConsole
