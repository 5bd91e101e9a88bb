import AndonConsole.Exhaustion
import AndonConsole.SetDepartment
import AndonConsole.Persistence

/-!
Where the console crashes.

Over runs with any answers of the allocations and of the flash, at power-up too,
four steps of the menus can fault and no others: OK on Reset All, UP on the
first department, the way back from a choice whose status could be allocated
and whose description could not, and OK on Choose Calls while a slot was loaded
so. What excludes the rest is that the cursors stay on their lists and that
`setCalls` is entered only with a text for every slot.
-/

namespace AndonConsole

/-- `showSetCalls` has a text for the slot. -/
def Callrecord.HasText (r : Callrecord) : Prop := r.status ≠ none → r.mancalldesc ≠ none

instance (r : Callrecord) : Decidable r.HasText :=
  inferInstanceAs (Decidable (r.status ≠ none → r.mancalldesc ≠ none))

/-- The fault the next step runs into, if it does. -/
def Console.fault (T : Tables) (b : Button) : Console → Option Fault
  -- OK on Reset All, and on Choose Calls with a slot that has no text
  | ⟨.polling (.settings _ menu_item), w⟩ =>
      if menu_item = 4 ∧ b = .ok then some .nullAccess
      else if menu_item = 2 ∧ b = .ok ∧ ¬ ∀ i, (w.calls i).HasText then some .nullAccess
      else none
  -- UP on the first department
  | ⟨.polling (.setDepartment _ _ menu_item), _⟩ =>
      if menu_item = 1 ∧ b = .up ∧ T.deptRecords.length ≠ 0 then some .outOfRange else none
  | ⟨.savingCall _ _ _ callIndex _, w⟩ =>
      if (w.calls callIndex).HasText then none else some .nullAccess
  | _ => none

def Tables.of (C : CallTable) (D : DeptTable) : Tables := ⟨C.records, D.records⟩

@[simp] theorem Tables.of_callRecords (C : CallTable) (D : DeptTable) :
    (Tables.of C D).callRecords = C.records := rfl

@[simp] theorem Tables.of_deptRecords (C : CallTable) (D : DeptTable) :
    (Tables.of C D).deptRecords = D.records := rfl

/-! ### The invariants -/

/-- The cursor is on its list, if the list is not empty. -/
def OnList (count : ℕ) (menu_item : ℤ) : Prop := count ≠ 0 → 1 ≤ menu_item ∧ menu_item ≤ count

def Menu.OnItems (T : Tables) : Menu → Prop
  | .appMain => True
  | .mainMenu _ => True
  | .settings _ menu_item => OnList 5 menu_item
  | .setCalls _ s menu_item => OnList 5 s ∧ OnList 4 menu_item
  | .chooseCalls _ s k _ menu_item =>
      OnList 5 s ∧ OnList 4 k ∧ OnList T.callRecords.length menu_item
  | .setDepartment _ s menu_item => OnList 5 s ∧ OnList T.deptRecords.length menu_item

def Control.OnItems (T : Tables) : Control → Prop
  | .polling menu => menu.OnItems T
  | .savingCall _ s k _ menu_item =>
      OnList 5 s ∧ OnList 4 k ∧ T.callRecords.length ≠ 0 ∧ OnList T.callRecords.length menu_item
  | .savingDept _ s _ => OnList 5 s

/-- `showSetCalls` comes next, and shows the slot as it is. -/
def Control.ShowsSlot (i : Fin 3) : Control → Prop
  | .polling (.setCalls _ _ _) => True
  | .polling (.chooseCalls _ _ _ _ _) => True
  | .savingCall _ _ _ callIndex _ => i ≠ callIndex
  | _ => False

def Console.HasTexts (c : Console) : Prop :=
  ∀ i, c.control.ShowsSlot i → (c.world.calls i).HasText

structure CrashInv (T : Tables) (c : Console) : Prop where
  onItems : c.control.OnItems T
  hasTexts : c.HasTexts

/-- What comes of a step: its fault, or a state that keeps the invariants. -/
def Settles (T : Tables) (fault : Option Fault) (r : Exec Console) : Prop :=
  match fault with
  | some f => r = .error f
  | none => ∃ c, r = .ok c ∧ CrashInv T c

section Invariant

variable {C : CallTable} {D : DeptTable} {a : Answers} {b : Button} {w : World} {menu : Menu}
  {c c' : Console}

theorem onList_one (count : ℕ) : OnList count 1 := fun h => ⟨le_rfl, by omega⟩

theorem OnList.wrapMove {count : ℕ} {item : ℤ} (h : OnList count item) (b : Button) :
    OnList count (wrapMove count b item) := by
  intro hcount
  obtain ⟨h1, hn⟩ := h hcount
  cases b with
  | none => exact ⟨h1, hn⟩
  | ok => exact ⟨h1, hn⟩
  | up =>
      simp only [AndonConsole.wrapMove, Lib.wrapBack]
      split_ifs <;> omega
  | down =>
      simp only [AndonConsole.wrapMove, Lib.wrapNext]
      split_ifs <;> omega

theorem OnList.setDepartmentMove {count : ℕ} {item : ℤ} (h : OnList count item)
    (hb : ¬ (item = 1 ∧ b = .up ∧ count ≠ 0)) : OnList count (setDepartmentMove count b item) := by
  intro hcount
  obtain ⟨h1, hn⟩ := h hcount
  cases b with
  | none => exact ⟨h1, hn⟩
  | ok => exact ⟨h1, hn⟩
  | up =>
      have hne : item ≠ 1 := fun h => hb ⟨h, rfl, hcount⟩
      rw [AndonConsole.setDepartmentMove, if_neg (by omega)]
      omega
  | down =>
      rw [AndonConsole.setDepartmentMove]
      split_ifs <;> omega

theorem hasTexts_setCalls {t : ℕ} {s item : ℤ} :
    Console.HasTexts ⟨.polling (.setCalls t s item), w⟩ ↔ ∀ i, (w.calls i).HasText :=
  ⟨fun h i => h i trivial, fun h i _ => h i⟩

theorem hasTexts_chooseCalls {t : ℕ} {s k item : ℤ} {i : Fin 3} :
    Console.HasTexts ⟨.polling (.chooseCalls t s k i item), w⟩ ↔ ∀ j, (w.calls j).HasText :=
  ⟨fun h j => h j trivial, fun h j _ => h j⟩

/-- Outside `setCalls` and `chooseCalls` no slot need have a text. -/
theorem crashInv_of_not_showsSlot {T : Tables} (hitem : menu.OnItems T)
    (hshows : ∀ i, ¬ (Control.polling menu).ShowsSlot i) : CrashInv T ⟨.polling menu, w⟩ :=
  ⟨hitem, fun i h => absurd h (hshows i)⟩

theorem dispWrite_eq_error {text : Option CString} {x : ℤ} {line : ℕ} {highlight : Bool}
    {f : Fault} (h : dispWrite text x line highlight = .error f) : f = .nullAccess := by
  cases text with
  | none =>
      cases h
      rfl
  | some s => cases h

theorem drawTexts_eq_error {rows : List (Option CString × ℕ × Bool)} {f : Fault}
    (h : drawTexts rows = .error f) : f = .nullAccess := by
  obtain ⟨p, -, hp⟩ := Lib.exists_of_mapM_eq_error h
  exact dispWrite_eq_error hp

theorem showSetCalls_hasText {calls : Calls} (h : ∀ i, (calls i).HasText) (item : ℤ) :
    ∃ ws, showSetCalls calls item = .ok ws :=
  showSetCalls_eq_ok_iff.mpr h

theorem showRecords_onList {α : Type} (title : String) {records : List α}
    {text : α → Option CString} (htext : ∀ r ∈ records, (text r).isSome) {item : ℤ}
    (hitem : OnList records.length item) :
    ∃ ws, showRecords title records text item = .ok ws := by
  by_cases hne : records = []
  · subst hne
    exact ⟨_, showRecords_nil⟩
  · obtain ⟨h1, hn⟩ := hitem (by simpa using hne)
    exact showRecords_complete title hne htext h1 hn

/-- With its cursor on the list, and a text for the slots it shows, a menu can be shown. -/
theorem CrashInv.exists_shows (hinv : CrashInv (.of C D) ⟨.polling menu, w⟩) :
    ∃ ws, menu.shows (.of C D) w = .ok ws := by
  obtain ⟨hitem, htext⟩ := hinv
  cases menu with
  | appMain => exact ⟨_, rfl⟩
  | mainMenu t => exact ⟨_, rfl⟩
  | settings t item => exact ⟨_, rfl⟩
  | setCalls t s item => exact showSetCalls_hasText (hasTexts_setCalls.mp htext) item
  | chooseCalls t s k i item => exact showRecords_onList _ C.mancalldesc_isSome hitem.2.2
  | setDepartment t s item => exact showRecords_onList _ D.deptname_isSome hitem.2

theorem enter_settles (hinv : CrashInv (.of C D) ⟨.polling menu, w⟩) :
    Settles (.of C D) none (enter (.of C D) menu w) := by
  obtain ⟨ws, hws⟩ := hinv.exists_shows
  exact ⟨_, enter_eq_ok.mpr ⟨ws, hws, rfl⟩, hinv.onItems, hinv.hasTexts⟩

theorem enter_settings_settles {t : ℕ} {item : ℤ} (hitem : OnList 5 item) :
    Settles (.of C D) none (enter (.of C D) (.settings t item) w) :=
  enter_settles (crashInv_of_not_showsSlot hitem fun _ h => h)

theorem enter_setCalls_settles {t : ℕ} {s item : ℤ} (hs : OnList 5 s) (hitem : OnList 4 item)
    (htext : ∀ i, (w.calls i).HasText) :
    Settles (.of C D) none (enter (.of C D) (.setCalls t s item) w) :=
  enter_settles ⟨⟨hs, hitem⟩, hasTexts_setCalls.mpr htext⟩

theorem enter_setCalls_eq_error {T : Tables} {t : ℕ} {s item : ℤ}
    (htext : ¬ ∀ i, (w.calls i).HasText) :
    enter T (.setCalls t s item) w = .error .nullAccess := by
  cases hshow : showSetCalls w.calls item with
  | ok ws => exact absurd (showSetCalls_eq_ok_iff.mp ⟨ws, hshow⟩) htext
  | error f =>
      have hf : f = .nullAccess := by
        rw [showSetCalls] at hshow
        split_ifs at hshow
        all_goals exact drawTexts_eq_error hshow
      subst hf
      change (showSetCalls w.calls item >>= _) = _
      rw [hshow]
      rfl

theorem afterMainMenu_settles {t : ℕ} :
    Settles (.of C D) none (afterMainMenu (.of C D) t w) := by
  rw [afterMainMenu]
  split_ifs
  · exact enter_settles (crashInv_of_not_showsSlot trivial fun _ h => h)
  · exact ⟨_, rfl, crashInv_of_not_showsSlot trivial fun _ h => h⟩

/-- A poll of a menu that is shown for every cursor it moves to either stays in the menu or
hands its cursor on. -/
theorem menuPoll_settles (menuAt : ℤ → Menu) {shows : ℤ → Exec (List DispWrite)}
    {move : Button → ℤ → ℤ} {confirm : World → ℤ → Exec World}
    {next : ((World × ℤ) ⊕ (World × ℤ)) → Exec Console} {item : ℤ} {fault : Option Fault}
    (hmove : ∀ item, move .none item = item)
    (hinl : ∀ w item, next (.inl (w, item)) = .ok ⟨.polling (menuAt item), w⟩)
    (hpoll : b ≠ .ok → fault = none ∧ (∃ ws, shows (move b item) = .ok ws) ∧
      CrashInv (.of C D) ⟨.polling (menuAt (move b item)), w⟩)
    (hok : b = .ok → Settles (.of C D) fault (confirm w item >>= fun w => next (.inr (w, item)))) :
    Settles (.of C D) fault (menuPoll shows move confirm (w, item) b >>= next) := by
  cases b with
  | none =>
      obtain ⟨rfl, -, hinv⟩ := hpoll (by simp)
      rw [hmove] at hinv
      exact ⟨_, hinl w item, hinv⟩
  | ok =>
      have h := hok rfl
      simp only [menuPoll]
      cases hw : confirm w item with
      | error f =>
          rw [hw] at h
          exact h
      | ok w' =>
          rw [hw] at h
          exact h
  | up | down =>
      obtain ⟨rfl, ⟨ws, hws⟩, hinv⟩ := hpoll (by simp)
      refine ⟨⟨.polling (menuAt _), w.cls.draw ws⟩, ?_, hinv.onItems, hinv.hasTexts⟩
      simp only [menuPoll]
      rw [hws]
      exact hinl _ _

/-- OK in `settings` crashes on Reset All, and on Choose Calls with a slot without a text. -/
theorem settingsSelect_settles {t : ℕ} {item : ℤ} (hitem : OnList 5 item) :
    Settles (.of C D) (Console.fault (.of C D) .ok ⟨.polling (.settings t item), w⟩)
      (settingsSelect (.of C D) a t item w) := by
  by_cases h4 : item = 4
  · subst h4
    rfl
  · rw [Console.fault, if_neg fun h => h4 h.1]
    by_cases h2 : item = 2
    · subst h2
      by_cases htext : ∀ i, (w.calls i).HasText
      · rw [if_neg fun h => h.2.2 htext]
        exact enter_setCalls_settles hitem (onList_one 4) htext
      · rw [if_pos ⟨rfl, rfl, htext⟩]
        exact enter_setCalls_eq_error htext
    · rw [if_neg fun h => h2 h.1, settingsSelect]
      split_ifs
      · exact ⟨_, rfl, crashInv_of_not_showsSlot hitem fun _ h => h⟩
      · exact enter_settles (crashInv_of_not_showsSlot ⟨hitem, onList_one _⟩ fun _ h => h)
      · exact afterMainMenu_settles

theorem settings_settles {t : ℕ} {item : ℤ} (hitem : OnList 5 item) :
    Settles (.of C D) (Console.fault (.of C D) b ⟨.polling (.settings t item), w⟩)
      (poll (.of C D) a b w (.settings t item)) := by
  rw [poll]
  refine menuPoll_settles (.settings t) (fun _ => rfl) (fun _ _ => rfl) (fun hb => ?_) fun hb => ?_
  · exact ⟨by simp [Console.fault, hb], ⟨_, rfl⟩,
      crashInv_of_not_showsSlot (hitem.wrapMove b) fun _ h => h⟩
  · subst hb
    exact settingsSelect_settles hitem

theorem setCalls_settles {t : ℕ} {s item : ℤ} (hitem : OnList 5 s ∧ OnList 4 item)
    (htext : ∀ i, (w.calls i).HasText) :
    Settles (.of C D) none (poll (.of C D) a b w (.setCalls t s item)) := by
  rw [poll]
  refine menuPoll_settles (.setCalls t s) (fun _ => rfl) (fun _ _ => rfl) (fun _ => ?_)
    fun _ => ?_
  · exact ⟨rfl, showSetCalls_hasText htext _, ⟨hitem.1, hitem.2.wrapMove b⟩,
      hasTexts_setCalls.mpr htext⟩
  · change Settles _ _ (setCallsSelect _ t s item w)
    have hchoose (i : Fin 3) :
        Settles (.of C D) none (enter (.of C D) (.chooseCalls t s item i 1) w.cls) :=
      enter_settles ⟨⟨hitem.1, hitem.2, onList_one _⟩, hasTexts_chooseCalls.mpr htext⟩
    rw [setCallsSelect]
    split_ifs
    · exact hchoose 0
    · exact hchoose 1
    · exact hchoose 2
    · exact enter_settings_settles hitem.1

theorem chooseCalls_settles {t : ℕ} {s k item : ℤ} {i : Fin 3}
    (hitem : OnList 5 s ∧ OnList 4 k ∧ OnList C.records.length item)
    (htext : ∀ i, (w.calls i).HasText) :
    Settles (.of C D) none (poll (.of C D) a b w (.chooseCalls t s k i item)) := by
  rw [poll]
  refine menuPoll_settles (.chooseCalls t s k i) (fun _ => rfl) (fun _ _ => rfl) (fun _ => ?_)
    fun _ => ?_
  · have hmoved := hitem.2.2.wrapMove b
    exact ⟨rfl, showRecords_onList _ C.mancalldesc_isSome hmoved,
      ⟨hitem.1, hitem.2.1, hmoved⟩, hasTexts_chooseCalls.mpr htext⟩
  · rw [Tables.of_callRecords]
    by_cases hlen : C.records.length = 0
    · rw [chooseCallsConfirm, if_neg (by simpa using hlen), hlen]
      refine enter_setCalls_settles hitem.1 hitem.2.1 ?_
      rw [chooseCallsLeave_calls]
      exact htext
    · obtain ⟨h1, hn⟩ := hitem.2.2 hlen
      obtain ⟨r, hr⟩ : ∃ r, recordAt C.records (item - 1) = .ok r :=
        exists_recordAt (by omega) (by omega)
      rw [(chooseCallsConfirm_eq_ok hlen).mpr ⟨r, hr, rfl⟩]
      refine ⟨_, if_pos hlen, ⟨hitem.1, hitem.2.1, hlen, hitem.2.2⟩, fun j hj => ?_⟩
      -- the other slots are as they were
      exact (congrArg Callrecord.HasText (Function.update_of_ne hj _ _)).mpr (htext j)

theorem setDepartment_settles {t : ℕ} {s item : ℤ}
    (hitem : OnList 5 s ∧ OnList D.records.length item) :
    Settles (.of C D) (Console.fault (.of C D) b ⟨.polling (.setDepartment t s item), w⟩)
      (poll (.of C D) a b w (.setDepartment t s item)) := by
  by_cases hup : item = 1 ∧ b = .up ∧ D.records.length ≠ 0
  · obtain ⟨rfl, rfl, hlen⟩ := hup
    have hzero : showSetDepartment D.records 0 = .error .outOfRange :=
      showRecords_zero _ (List.length_pos_iff.mp (Nat.pos_of_ne_zero hlen))
    have hpoll : setDepartmentPoll a.malloc D.records (w, 1) .up = .error .outOfRange := by
      change (showSetDepartment D.records 0 >>= _) = _
      rw [hzero]
      rfl
    have hfault : Console.fault (.of C D) .up ⟨.polling (.setDepartment t s 1), w⟩ =
        some .outOfRange := if_pos ⟨rfl, rfl, hlen⟩
    rw [hfault, poll, Tables.of_deptRecords, hpoll]
    rfl
  · rw [Console.fault, Tables.of_deptRecords, if_neg hup, poll]
    refine menuPoll_settles (.setDepartment t s) (fun _ => rfl) (fun _ _ => rfl) (fun _ => ?_)
      fun hb => ?_
    · have hmoved := hitem.2.setDepartmentMove hup
      exact ⟨rfl, showRecords_onList _ D.deptname_isSome hmoved,
        crashInv_of_not_showsSlot ⟨hitem.1, hmoved⟩ fun _ h => h⟩
    · rw [Tables.of_deptRecords]
      by_cases hlen : D.records.length = 0
      · rw [setDepartmentConfirm, if_neg (by simpa using hlen), hlen]
        exact enter_settings_settles hitem.1
      · obtain ⟨h1, hn⟩ := hitem.2 hlen
        obtain ⟨r, hr⟩ : ∃ r, recordAt D.records (item - 1) = .ok r :=
          exists_recordAt (by omega) (by omega)
        obtain ⟨name, id, rfl⟩ := D.populated r (List.mem_of_getElem? (recordAt_eq_ok.mp hr).2)
        rw [setDepartmentConfirm_eq hr rfl]
        exact ⟨_, if_pos hlen, hitem.1, fun _ h => False.elim h⟩

theorem poll_settles (hinv : CrashInv (.of C D) ⟨.polling menu, w⟩) :
    Settles (.of C D) (Console.fault (.of C D) b ⟨.polling menu, w⟩)
      (poll (.of C D) a b w menu) := by
  obtain ⟨hitem, htext⟩ := hinv
  cases menu with
  | appMain =>
      rw [poll]
      split_ifs
      · exact enter_settles (crashInv_of_not_showsSlot trivial fun _ h => h)
      · exact ⟨_, rfl, crashInv_of_not_showsSlot trivial fun _ h => h⟩
  | mainMenu t =>
      rw [poll]
      split_ifs
      · exact enter_settings_settles (onList_one 5)
      · exact afterMainMenu_settles
  | settings t item => exact settings_settles hitem
  | setCalls t s item => exact setCalls_settles hitem (hasTexts_setCalls.mp htext)
  | chooseCalls t s k i item => exact chooseCalls_settles hitem (hasTexts_chooseCalls.mp htext)
  | setDepartment t s item => exact setDepartment_settles hitem

/-- The way back from a choice faults on the slot that was chosen, or not at all. -/
theorem savingCall_settles {t : ℕ} {s k item : ℤ} {i : Fin 3}
    (hinv : CrashInv (.of C D) ⟨.savingCall t s k i item, w⟩) :
    Settles (.of C D) (Console.fault (.of C D) b ⟨.savingCall t s k i item, w⟩)
      (enter (.of C D) (.setCalls t s k) (chooseCallsLeave a.saveCalls C.records w)) := by
  obtain ⟨⟨hs, hk, -, -⟩, htext⟩ := hinv
  rw [Console.fault]
  split_ifs with hi
  · refine enter_setCalls_settles hs hk fun j => ?_
    rw [chooseCallsLeave_calls]
    by_cases hji : j = i
    · exact hji ▸ hi
    · exact htext j hji
  · refine enter_setCalls_eq_error fun h => hi ?_
    rw [chooseCallsLeave_calls] at h
    exact h i

theorem crashInv_boot {T : Tables} : CrashInv T ⟨.polling .appMain, w⟩ :=
  crashInv_of_not_showsSlot trivial fun _ h => h

theorem CrashInv.step {ans : Answers → Prop} {e : Event} (hinv : CrashInv (.of C D) c)
    (h : Step (.of C D) ans c e c') : CrashInv (.of C D) c' := by
  -- a step that ends is not the one with the fault
  have hkept {fault : Option Fault} {r : Exec Console} (h : Settles (.of C D) fault r)
      (hr : r = .ok c') : CrashInv (.of C D) c' := by
    subst hr
    cases fault with
    | some f => cases h
    | none =>
        obtain ⟨c, hc, hinv⟩ := h
        cases hc
        exact hinv
  cases h with
  | poll _ h => exact hkept (poll_settles hinv) h
  | saveCall _ _ h => exact hkept (savingCall_settles (b := .none) hinv) h
  | saveDept _ h => exact hkept (enter_settings_settles hinv.onItems) h
  | powerCycle _ _ => exact crashInv_boot

theorem next_eq_error_iff (hinv : CrashInv (.of C D) c) {f : Fault} :
    c.next (.of C D) a b = .error f ↔ c.fault (.of C D) b = some f := by
  have hiff {r : Exec Console} {g : Console → Event × Console}
      (h : Settles (.of C D) (c.fault (.of C D) b) r) :
      (do let c ← r; return g c) = .error f ↔ c.fault (.of C D) b = some f := by
    cases hfault : c.fault (.of C D) b with
    | some f' =>
        rw [hfault] at h
        rw [h]
        simp [bind, Except.bind]
    | none =>
        rw [hfault] at h
        obtain ⟨c, rfl, -⟩ := h
        simp [bind, Except.bind, pure, Except.pure]
  obtain ⟨control, w⟩ := c
  cases control with
  | polling menu => exact hiff (poll_settles hinv)
  | savingCall t s k i item =>
      obtain ⟨-, -, hlen, hitem⟩ := hinv.onItems
      obtain ⟨h1, hn⟩ := hitem hlen
      obtain ⟨r, hr⟩ : ∃ r, recordAt C.records (item - 1) = .ok r :=
        exists_recordAt (by omega) (by rw [Tables.of_callRecords] at hn; omega)
      rw [Console.next, Tables.of_callRecords, hr]
      exact hiff (savingCall_settles hinv)
  | savingDept t s item => exact hiff (enter_settings_settles hinv.onItems)

theorem crashInv_of_run {ans : Answers → Prop} {es : List Event}
    (hrun : Lib.Run (Step (.of C D) ans) ⟨.polling .appMain, w⟩ es c) : CrashInv (.of C D) c :=
  hrun.invariant (I := fun _ c => CrashInv (.of C D) c) crashInv_boot
    fun _ _ _ _ hinv hstep => hinv.step hstep

end Invariant

/-- **The four crashes.** In every run from the idle loop, whatever a start has loaded and
whatever the allocations and the flash answer, at power-up too: the next step faults exactly
on Reset All, above the first department, on a chosen call without a description and on
Choose Calls while a slot is loaded so, each with its own fault. -/
theorem crashes_iff (C : CallTable) (D : DeptTable) (ans : Answers → Prop) (w : World)
    {es : List Event} {c : Console}
    (hrun : Lib.Run (Step (.of C D) ans) ⟨.polling .appMain, w⟩ es c) (a : Answers) (b : Button)
    (f : Fault) : c.next (.of C D) a b = .error f ↔ c.fault (.of C D) b = some f :=
  next_eq_error_iff (crashInv_of_run hrun)

/-- A power-up with memory for the statuses of the slots alone. -/
def BootEnv.scarce : BootEnv := { BootEnv.ok with callMallocs := fun _ => firstOnly }

/-- A call is loaded without its description, and OK on Choose Calls faults. -/
theorem crashes_iff_demo : ∃ st es c, bootWith .scarce demoFlash = .ok st ∧
    Lib.Run (Step demoTables fun _ => True)
      ⟨.polling .appMain, { st with screen := .blank }⟩ es c ∧
    c.next demoTables .ok .ok = .error .nullAccess := by
  obtain ⟨st, es, c, hboot, hrun, hfault⟩ : ∃ st es c, bootWith .scarce demoFlash = .ok st ∧
      Lib.Run (Step demoTables fun _ => True)
        ⟨.polling .appMain, { st with screen := .blank }⟩ es c ∧
      c.fault demoTables .ok = some .nullAccess :=
    ⟨_, _, _, rfl, Console.run_of_follow [.ok, .ok, .down] (a := .ok) trivial rfl, rfl⟩
  exact ⟨st, es, c, hboot, hrun, (crashes_iff testCallRecords testDeptRecords _ _ hrun
    .ok .ok .nullAccess).mpr hfault⟩

end AndonConsole
