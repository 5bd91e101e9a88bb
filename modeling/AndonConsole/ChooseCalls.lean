import AndonConsole.Menus

/-!
`chooseCalls` stores what the presses and the screen say.

The cursor wraps around, so after any presses it stands at the net number of
DOWNs modulo the number of records. With the page view this ties together the
presses, the row the operator sees highlighted and the record that OK stores.
-/

namespace AndonConsole

theorem chooseCallsMove_none (n item : ℤ) : chooseCallsMove n .none item = item := rfl

theorem chooseCallsMove_emod {n : ℤ} (hn : 1 ≤ n) (p : List Button) (b : Button) :
    chooseCallsMove n b ((p.count .down - p.count .up : ℤ) % n + 1) =
      ((p ++ [b]).count .down - (p ++ [b]).count .up : ℤ) % n + 1 := by
  rw [List.count_append, List.count_append]
  push_cast
  cases b with
  | none => simp [chooseCallsMove, wrapMove]
  | ok => simp [chooseCallsMove, wrapMove]
  | up =>
      rw [show chooseCallsMove n .up = Lib.wrapBack n from rfl, Lib.wrapBack_emod hn]
      congr 2
      simp
      omega
  | down =>
      rw [show chooseCallsMove n .down = Lib.wrapNext n from rfl, Lib.wrapNext_emod hn]
      congr 2
      simp
      omega

/-- What one call of `chooseCalls` does with the presses in front of OK. -/
structure ChoosesRecord (m : Malloc) (env : SaveEnv) (callRecords : List Callrecord)
    (callIndex : Fin 3) (w : World) (presses : List Button) : Prop where
  /-- At every poll the cursor and all records shown are in range. -/
  inRange : ∀ p, p <+: presses → ∃ s,
    chooseCalls m env callRecords callIndex w p = .ok (.inl s) ∧
      1 ≤ s.2 ∧ s.2 ≤ callRecords.length ∧
      ∀ q ∈ pageLayout callRecords.length s.2, 0 ≤ q.1 ∧ q.1 < callRecords.length
  /-- OK stores the record that the presses count out and the screen shows. -/
  stores : ∃ r s w',
    callRecords[((presses.count .down - presses.count .up : ℤ) %
      callRecords.length).toNat]? = some r ∧
    chooseCalls m env callRecords callIndex w presses = .ok (.inl s) ∧
    (∃ text, r.mancalldesc = some text ∧ s.1.screen.Highlights text) ∧
    chooseCalls m env callRecords callIndex w (presses ++ [.ok]) = .ok (.inr w') ∧
    w'.calls callIndex =
      setCallrecord m (w.calls callIndex) r.status r.mancalldesc r.mancallto ∧
    (m = .ok → w'.calls callIndex = r) ∧
    ∀ j, j ≠ callIndex → w'.calls j = w.calls j

section ChooseCalls

variable {m : Malloc} {env : SaveEnv} {callIndex : Fin 3} {w : World} {presses : List Button}

/-- Up to OK the menu is shown at the net number of DOWNs. -/
theorem chooseCalls_atPoll (m : Malloc) (env : SaveEnv) (T : CallTable) (callIndex : Fin 3)
    (w : World) (hne : T.records ≠ []) (hpresses : .ok ∉ presses) :
    ∃ s, chooseCalls m env T.records callIndex w.cls presses = .ok (.inl s) ∧
      AtPoll (showChooseCalls T.records) w.toStore s ∧
      s.2 = (presses.count .down - presses.count .up : ℤ) % T.records.length + 1 := by
  have hn := one_le_length hne
  have hshow (k : ℤ) : ∃ ws, showChooseCalls T.records (k % T.records.length + 1) = .ok ws :=
    showRecords_complete _ hne T.mancalldesc_isSome (Lib.emod_add_one_mem hn k).1
      (Lib.emod_add_one_mem hn k).2
  refine menuRun_atPoll (C := fun p item =>
    item = (p.count .down - p.count .up : ℤ) % T.records.length + 1) hpresses
    (chooseCallsMove_none _) (by simpa using hshow 0) (by simp) ?_
  rintro p b item - rfl
  refine ⟨chooseCallsMove_emod hn p b, ?_⟩
  rw [chooseCallsMove_emod hn p b]
  exact hshow _

theorem choosesRecord (T : CallTable) (hne : T.records ≠ []) (hpresses : .ok ∉ presses) :
    ChoosesRecord m env T.records callIndex w.cls presses where
  inRange p hp := by
    have hn := one_le_length hne
    obtain ⟨s, hs, -, hitem⟩ := chooseCalls_atPoll m env T callIndex w hne fun hmem =>
      hpresses (hp.subset hmem)
    have hmem := Lib.emod_add_one_mem hn (p.count .down - p.count .up : ℤ)
    rw [← hitem] at hmem
    exact ⟨s, hs, hmem.1, hmem.2, fun q hq => pageLayout_index hmem.1 hmem.2 hq⟩
  stores := by
    have hn := one_le_length hne
    obtain ⟨s, hs, hat, hitem⟩ := chooseCalls_atPoll m env T callIndex w hne hpresses
    have hmem := Lib.emod_add_one_mem hn (presses.count .down - presses.count .up : ℤ)
    set k : ℤ := (presses.count .down - presses.count .up : ℤ) % T.records.length with hk
    obtain ⟨r, hr⟩ : ∃ r, recordAt T.records (s.2 - 1) = .ok r :=
      exists_recordAt (by omega) (by omega)
    have hget : T.records[k.toNat]? = some r := by
      rw [← (recordAt_eq_ok.mp hr).2, hitem, Int.add_sub_cancel]
    obtain ⟨ws, hws, hscreen⟩ := hat.shown
    refine ⟨r, s, _, hget, hs, ?_,
      menuRun_ok hs ((chooseCallsConfirm_eq_ok (by omega)).mpr ⟨r, hr, rfl⟩), ?_, ?_, ?_⟩
    · rw [hscreen]
      exact showRecords_highlights hne hws hr
    · simp [hat.store]
    · rintro rfl
      obtain ⟨a, d, t, rfl⟩ := T.populated r (List.mem_of_getElem? hget)
      simp
    · intro j hj
      simp [hat.store, Function.update_of_ne hj]

theorem chooseCalls_nil (hpresses : .ok ∉ presses) :
    ∃ w', chooseCalls m env [] callIndex w.cls (presses ++ [.ok]) = .ok (.inr w') ∧
      w'.toStore = w.toStore := by
  have hrun : ∃ s, chooseCalls m env [] callIndex w.cls presses = .ok (.inl s) ∧
      AtPoll (showChooseCalls []) w.toStore s ∧ True :=
    menuRun_atPoll (C := fun _ _ => True) hpresses (chooseCallsMove_none _)
      ⟨_, showRecords_nil⟩ trivial fun _ _ _ _ _ => ⟨trivial, _, showRecords_nil⟩
  obtain ⟨s, hs, hat, -⟩ := hrun
  have hconfirm : chooseCallsConfirm m [] callIndex s.1 s.2 = .ok s.1 := rfl
  exact ⟨_, menuRun_ok hs hconfirm, hat.store⟩

end ChooseCalls

/-- **Choosing a call.** Whatever is pressed in front of OK, the record stored is
the one counted out and highlighted; on an empty list nothing changes. -/
theorem chooseCalls_stores_chosen (T : CallTable) (callIndex : Fin 3) (w : World) (m : Malloc)
    (env : SaveEnv) (presses : List Button) (hpresses : .ok ∉ presses) :
    (T.records ≠ [] → ChoosesRecord m env T.records callIndex w.cls presses) ∧
      (T.records = [] → ∃ w',
        chooseCalls m env T.records callIndex w.cls (presses ++ [.ok]) = .ok (.inr w') ∧
          w'.toStore = w.toStore) := by
  refine ⟨fun hne => choosesRecord T hne hpresses, fun hnil => ?_⟩
  rw [hnil]
  exact chooseCalls_nil hpresses

/-- Down three times and once up from the first of three records: the third. -/
theorem chooseCalls_testCallRecords :
    ∃ r w', testCallRecords.records[2]? = some r ∧
      chooseCalls .ok .ok testCallRecords.records 1
        World.unset.cls
        ([.down, .up, .none, .down, .down] ++ [.ok]) = .ok (.inr w') ∧ w'.calls 1 = r := by
  obtain ⟨r, s, w', hr, -, -, hrun, -, hstored, -⟩ :=
    ((chooseCalls_stores_chosen testCallRecords 1
      World.unset .ok .ok
      [.down, .up, .none, .down, .down] (by decide)).1 (by simp [testCallRecords])).stores
  exact ⟨r, w', hr, hrun, hstored rfl⟩

end AndonConsole
