import AndonConsole.Crashes

/-!
The way out of the menus.

From every place the console can reach, short of a crash that is already under
way, a few readings lead back to the loop of `app_main`: a pick is finished
with OK, `setCalls` and `settings` are left by their last items, and the main
menu by waiting. Reset All is passed by and never chosen. On the way out of a
menu that picks no record the configuration stays as it is.
-/

namespace AndonConsole

/-- At most `n` readings lead back to the loop of `app_main`, with the store `st`. -/
def Console.Exits (T : Tables) (a : Answers) (n : ℕ) (st : Store) (c : Console) : Prop :=
  ∃ bs es w, bs.length ≤ n ∧ c.follow T a bs = .ok (es, ⟨.polling .appMain, w⟩) ∧
    w.toStore = st

/-- The places where no record is being picked or saved. -/
def Control.Browses : Control → Prop
  | .polling (.chooseCalls _ _ _ _ _) => False
  | .polling (.setDepartment _ _ _) => False
  | .polling _ => True
  | .savingCall _ _ _ _ _ => False
  | .savingDept _ _ _ => False

section Exits

variable {C : CallTable} {D : DeptTable} {a : Answers} {b : Button} {w : World} {st : Store}
  {c c' : Console} {n : ℕ}

theorem exits_appMain {T : Tables} (n : ℕ) :
    Console.Exits T a n w.toStore ⟨.polling .appMain, w⟩ :=
  ⟨[], [], w, Nat.zero_le n, rfl, rfl⟩

theorem Console.Exits.mono {T : Tables} {m : ℕ} (h : c.Exits T a n st) (hnm : n ≤ m) :
    c.Exits T a m st := by
  obtain ⟨bs, es, w, hlen, hfollow, hst⟩ := h
  exact ⟨bs, es, w, hlen.trans hnm, hfollow, hst⟩

theorem Console.Exits.of_next {T : Tables} {e : Event} (hnext : c.next T a b = .ok (e, c'))
    (h : c'.Exits T a n st) : c.Exits T a (n + 1) st := by
  obtain ⟨bs, es, w, hlen, hfollow, hst⟩ := h
  refine ⟨b :: bs, e :: es, w, by simpa using hlen, ?_, hst⟩
  simp [Console.follow, hnext, hfollow, bind, Except.bind, pure, Except.pure]

theorem Console.Exits.of_poll {T : Tables} {menu : Menu} (hpoll : poll T a b w menu = .ok c)
    (h : c.Exits T a n st) : Console.Exits T a (n + 1) st ⟨.polling menu, w⟩ := by
  refine Console.Exits.of_next (e := .polled b) (b := b) ?_ h
  simp [Console.next, hpoll, bind, Except.bind, pure, Except.pure]

theorem exits_mainMenu {T : Tables} {t : ℕ} (hn : 15 ≤ t + 1 + n) :
    Console.Exits T a (n + 1) w.toStore ⟨.polling (.mainMenu t), w⟩ := by
  induction n generalizing t w with
  | zero =>
      have hpoll : poll T a .none w (.mainMenu t) = .ok ⟨.polling .appMain, w⟩ := by
        rw [poll, if_neg (by simp), afterMainMenu, if_neg (by omega)]
        rfl
      exact .of_poll hpoll (exits_appMain 0)
  | succ n ih =>
      by_cases ht : t + 1 < 15
      · have hpoll : poll T a .none w (.mainMenu t) =
            .ok ⟨.polling (.mainMenu (t + 1)), w.draw (showMainMenu w.calls)⟩ := by
          rw [poll, if_neg (by simp), afterMainMenu, if_pos ht]
          rfl
        exact .of_poll hpoll (ih (by omega))
      · exact (ih (by omega)).mono (Nat.le_succ _)

theorem exits_afterMainMenu {T : Tables} {t : ℕ} :
    ∃ c, afterMainMenu T t w = .ok c ∧ c.Exits T a 15 w.toStore := by
  rw [afterMainMenu]
  split_ifs with ht
  · exact ⟨_, rfl, (exits_mainMenu (n := 13) (by omega)).mono (by omega)⟩
  · exact ⟨_, rfl, exits_appMain 15⟩

theorem exits_settings {T : Tables} {t : ℕ} {item : ℤ} (h1 : 1 ≤ item) (hn : item + n = 5) :
    Console.Exits T a (n + 16) w.toStore ⟨.polling (.settings t item), w⟩ := by
  induction n generalizing item w with
  | zero =>
      obtain rfl : item = 5 := by omega
      obtain ⟨c, hc, hexits⟩ := exits_afterMainMenu (T := T) (a := a) (w := w.cls) (t := t)
      exact .of_poll (b := .ok) hc hexits
  | succ n ih =>
      have hmove : wrapMove 5 .down item = item + 1 := by
        rw [wrapMove, Lib.wrapNext, if_neg (by omega)]
      have hpoll : poll T a .down w (.settings t item) =
          .ok ⟨.polling (.settings t (item + 1)), w.cls.draw (showSettings (item + 1))⟩ := by
        rw [← hmove]
        rfl
      have hnext : item + 1 + n = 5 := by
        push_cast at hn
        omega
      exact .of_poll hpoll (ih (by omega) hnext)

theorem exits_settings_onList {T : Tables} {t : ℕ} {item : ℤ} (hitem : OnList 5 item) :
    Console.Exits T a 20 w.toStore ⟨.polling (.settings t item), w⟩ := by
  obtain ⟨h1, h5⟩ := hitem (by simp)
  exact (exits_settings (n := (5 - item).toNat) h1 (by omega)).mono (by omega)

theorem exits_setCalls {T : Tables} {t : ℕ} {s item : ℤ} (hs : OnList 5 s)
    (htext : ∀ i, (w.calls i).HasText) (h1 : 1 ≤ item) (hn : item + n = 4) :
    Console.Exits T a (n + 21) w.toStore ⟨.polling (.setCalls t s item), w⟩ := by
  induction n generalizing item w with
  | zero =>
      obtain rfl : item = 4 := by omega
      have hpoll : poll T a .ok w (.setCalls t s 4) =
          .ok ⟨.polling (.settings t s), w.cls.draw (showSettings s)⟩ := rfl
      exact .of_poll hpoll (exits_settings_onList hs)
  | succ n ih =>
      have hmove : wrapMove 4 .down item = item + 1 := by
        rw [wrapMove, Lib.wrapNext, if_neg (by omega)]
      obtain ⟨ws, hws⟩ := showSetCalls_hasText htext (item + 1)
      have hpoll : poll T a .down w (.setCalls t s item) =
          .ok ⟨.polling (.setCalls t s (item + 1)), w.cls.draw ws⟩ := by
        rw [poll, menuPoll, hmove, hws]
        all_goals first | rfl | simp
      have hnext : item + 1 + n = 4 := by
        push_cast at hn
        omega
      have hrest := ih (w := w.cls.draw ws) htext (by omega) hnext
      exact .of_poll hpoll hrest

theorem exits_enter_setCalls {T : Tables} {t : ℕ} {s k : ℤ} (hs : OnList 5 s) (hk : OnList 4 k)
    (htext : ∀ i, (w.calls i).HasText) :
    ∃ c, enter T (.setCalls t s k) w = .ok c ∧ c.Exits T a 24 w.toStore := by
  obtain ⟨ws, hws⟩ := showSetCalls_hasText htext k
  obtain ⟨h1, h4⟩ := hk (by simp)
  refine ⟨_, enter_eq_ok.mpr ⟨ws, hws, rfl⟩, ?_⟩
  exact (exits_setCalls (n := (4 - k).toNat) (w := w.draw ws) hs htext h1 (by omega)).mono
    (by omega)

theorem exits_savingCall {t : ℕ} {s k item : ℤ} {i : Fin 3}
    (hitem : Control.OnItems (.of C D) (.savingCall t s k i item))
    (htext : ∀ i, (w.calls i).HasText) :
    ∃ st, Console.Exits (.of C D) a 25 st ⟨.savingCall t s k i item, w⟩ := by
  obtain ⟨hs, hk, hlen, hitem⟩ := hitem
  obtain ⟨h1, hn⟩ := hitem hlen
  rw [Tables.of_callRecords] at hn
  obtain ⟨r, hr⟩ : ∃ r, recordAt C.records (item - 1) = .ok r :=
    exists_recordAt (by omega) (by omega)
  obtain ⟨c, hc, hexits⟩ := exits_enter_setCalls (T := .of C D) (a := a) (t := t)
    (w := chooseCallsLeave a.saveCalls C.records w) hs hk (by simpa using htext)
  refine ⟨_, .of_next (b := .none) (e := .saved i r) ?_ hexits⟩
  simp [Console.next, hr, hc, bind, Except.bind, pure, Except.pure]

theorem exits_savingDept {T : Tables} {t : ℕ} {s item : ℤ} (hs : OnList 5 s) :
    ∃ st, Console.Exits T a 21 st ⟨.savingDept t s item, w⟩ :=
  ⟨_, .of_next (b := .none) (e := .savedDept) rfl (exits_settings_onList hs)⟩

/-- OK takes the record under the cursor, and its description with its status. -/
theorem exists_chooseCallsConfirm {m : Malloc} (hm : m 0 = true → m 1 = true) {item : ℤ}
    {i : Fin 3} (hlen : C.records.length ≠ 0) (hitem : OnList C.records.length item)
    (htext : ∀ i, (w.calls i).HasText) :
    ∃ w', chooseCallsConfirm m C.records i w item = .ok w' ∧ ∀ j, (w'.calls j).HasText := by
  obtain ⟨h1, hn⟩ := hitem hlen
  obtain ⟨r, hr⟩ : ∃ r, recordAt C.records (item - 1) = .ok r :=
    exists_recordAt (by omega) (by omega)
  refine ⟨_, (chooseCallsConfirm_eq_ok hlen).mpr ⟨r, hr, rfl⟩, fun j => ?_⟩
  obtain ⟨status, desc, mancallto, rfl⟩ :=
    C.populated r (List.mem_of_getElem? (recordAt_eq_ok.mp hr).2)
  by_cases hji : j = i
  · subst hji
    simpa [Callrecord.HasText, setCallrecord] using hm
  · simpa [Function.update_of_ne hji] using htext j

theorem exits_chooseCalls (ha : a.malloc 0 = true → a.malloc 1 = true) {t : ℕ} {s k item : ℤ}
    {i : Fin 3} (hitem : Menu.OnItems (.of C D) (.chooseCalls t s k i item))
    (htext : ∀ i, (w.calls i).HasText) :
    ∃ st, Console.Exits (.of C D) a 26 st ⟨.polling (.chooseCalls t s k i item), w⟩ := by
  obtain ⟨hs, hk, hitem⟩ := hitem
  rw [Tables.of_callRecords] at hitem
  by_cases hlen : C.records.length = 0
  · obtain ⟨c, hc, hexits⟩ := exits_enter_setCalls (T := .of C D) (a := a) (t := t)
      (w := chooseCallsLeave a.saveCalls C.records w) hs hk (by simpa using htext)
    refine ⟨_, (Console.Exits.of_poll (b := .ok) (c := c) ?_ hexits).mono (by omega)⟩
    simp [poll, chooseCallsPoll, menuPoll, chooseCallsConfirm, hlen, hc, bind, Except.bind, pure,
      Except.pure]
  · obtain ⟨w', hconfirm, htext'⟩ := exists_chooseCallsConfirm (i := i) ha hlen hitem htext
    have hsaving : Control.OnItems (.of C D) (.savingCall t s k i item) := ⟨hs, hk, hlen, hitem⟩
    obtain ⟨st, hexits⟩ := exits_savingCall (a := a) hsaving htext'
    refine ⟨st, .of_poll (b := .ok) ?_ hexits⟩
    simp [poll, chooseCallsPoll, menuPoll, hconfirm, hlen, bind, Except.bind, pure, Except.pure]

theorem exits_setDepartment {t : ℕ} {s item : ℤ}
    (hitem : Menu.OnItems (.of C D) (.setDepartment t s item)) :
    ∃ st, Console.Exits (.of C D) a 26 st ⟨.polling (.setDepartment t s item), w⟩ := by
  obtain ⟨hs, hitem⟩ := hitem
  rw [Tables.of_deptRecords] at hitem
  by_cases hlen : D.records.length = 0
  · have hpoll : poll (.of C D) a .ok w (.setDepartment t s item) =
        enter (.of C D) (.settings t s) (setDepartmentLeave a.saveDepts D.records w) := by
      simp [poll, setDepartmentPoll, menuPoll, setDepartmentConfirm, hlen, bind, Except.bind, pure,
        Except.pure]
    refine ⟨_, (Console.Exits.of_poll (b := .ok) (hpoll.trans rfl)
      (exits_settings_onList hs)).mono (by omega)⟩
  · obtain ⟨h1, hn⟩ := hitem hlen
    obtain ⟨r, hr⟩ : ∃ r, recordAt D.records (item - 1) = .ok r :=
      exists_recordAt (by omega) (by omega)
    obtain ⟨name, id, rfl⟩ := D.populated r (List.mem_of_getElem? (recordAt_eq_ok.mp hr).2)
    have hconfirm : setDepartmentConfirm a.malloc D.records w item = .ok { w with
        department := ⟨a.malloc.copy 0 name, a.malloc.copy 1 id⟩ } :=
      setDepartmentConfirm_eq hr rfl
    obtain ⟨st, hexits⟩ : ∃ st, Console.Exits (.of C D) a 21 st ⟨.savingDept t s item, { w with
        department := ⟨a.malloc.copy 0 name, a.malloc.copy 1 id⟩ }⟩ := exits_savingDept hs
    refine ⟨st, (Console.Exits.of_poll (b := .ok) ?_ hexits).mono (by omega)⟩
    simp [poll, setDepartmentPoll, menuPoll, hconfirm, hlen, bind, Except.bind, pure, Except.pure]

theorem CrashInv.exits (ha : a.malloc 0 = true → a.malloc 1 = true)
    (hinv : CrashInv (.of C D) c) (hc : c.fault (.of C D) .none = none) :
    ∃ st, c.Exits (.of C D) a 26 st ∧ (c.control.Browses → st = c.world.toStore) := by
  obtain ⟨hitem, htext⟩ := hinv
  obtain ⟨control, w⟩ := c
  cases control with
  | polling menu =>
      cases menu with
      | appMain => exact ⟨_, exits_appMain 26, fun _ => rfl⟩
      | mainMenu t =>
          exact ⟨_, (exits_mainMenu (n := 14) (by omega)).mono (by omega), fun _ => rfl⟩
      | settings t item => exact ⟨_, (exits_settings_onList hitem).mono (by omega), fun _ => rfl⟩
      | setCalls t s item =>
          obtain ⟨hs, hitem⟩ := hitem
          obtain ⟨h1, h4⟩ := hitem (by simp)
          have hexits := exits_setCalls (T := .of C D) (a := a) (t := t) (n := (4 - item).toNat)
            hs (hasTexts_setCalls.mp htext) h1 (by omega)
          exact ⟨_, hexits.mono (by omega), fun _ => rfl⟩
      | chooseCalls t s k i item =>
          obtain ⟨st, hexits⟩ := exits_chooseCalls ha hitem (hasTexts_chooseCalls.mp htext)
          exact ⟨st, hexits, False.elim⟩
      | setDepartment t s item =>
          obtain ⟨st, hexits⟩ := exits_setDepartment hitem
          exact ⟨st, hexits, False.elim⟩
  | savingCall t s k i item =>
      have htexts (j : Fin 3) : (w.calls j).HasText := by
        by_cases hji : j = i
        · subst hji
          simpa [Console.fault] using hc
        · exact htext j hji
      obtain ⟨st, hexits⟩ := exits_savingCall hitem htexts
      exact ⟨st, hexits.mono (by omega), False.elim⟩
  | savingDept t s item =>
      obtain ⟨st, hexits⟩ := exits_savingDept hitem
      exact ⟨st, hexits.mono (by omega), False.elim⟩

end Exits

/-- **No dead ends.** After every run from the idle loop, whatever a start has loaded, and
unless the console is about to crash: at most 26 readings lead back to the loop of `app_main`,
whatever the flash answers and wherever a status is not allocated alone. From where no record is
being picked they leave the configuration and the flash as they are. -/
theorem exits_of_run (C : CallTable) (D : DeptTable) (ans : Answers → Prop) (w₀ : World)
    {es : List Event} {c : Console}
    (hrun : Lib.Run (Step (.of C D) ans) ⟨.polling .appMain, w₀⟩ es c)
    (hc : c.fault (.of C D) .none = none) (a : Answers)
    (ha : a.malloc 0 = true → a.malloc 1 = true) :
    ∃ bs es' w, bs.length ≤ 26 ∧
      c.follow (.of C D) a bs = .ok (es', ⟨.polling .appMain, w⟩) ∧
      (c.control.Browses → w.toStore = c.world.toStore) := by
  obtain ⟨_, ⟨bs, es', w, hlen, hfollow, rfl⟩, hstore⟩ :=
    (crashInv_of_run hrun).exits ha hc
  exact ⟨bs, es', w, hlen, hfollow, hstore⟩

theorem exits_of_run_demo : ∃ (c : Console) (bs : List Button) (es : List Event) (w : World),
    c.control.Browses ∧ bs.length ≤ 26 ∧
      c.follow demoTables .ok bs = .ok (es, ⟨.polling .appMain, w⟩) ∧
      w.toStore = c.world.toStore := by
  obtain ⟨st, es, c, -, hrun, hfault, hbrowses⟩ : ∃ st es c, boot demoFlash = .ok st ∧
      Lib.Run (Step demoTables fun _ => True)
        ⟨.polling .appMain, { st with screen := .blank }⟩ es c ∧
      c.fault demoTables .none = none ∧ c.control.Browses :=
    ⟨_, _, _, rfl, Console.run_of_follow [.ok, .ok, .down, .ok, .down] (a := .ok) trivial rfl,
      rfl, trivial⟩
  obtain ⟨bs, es', w, hlen, hfollow, hstore⟩ := exits_of_run testCallRecords testDeptRecords _ _
    hrun hfault .ok fun _ => rfl
  exact ⟨c, bs, es', w, hbrowses, hlen, hfollow, hstore hbrowses⟩

end AndonConsole
