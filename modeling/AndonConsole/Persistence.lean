import AndonConsole.Console
import AndonConsole.RoundTrip

/-!
The console remembers the last choice for every slot.

Two copies of the configuration are kept, one in RAM and one as a text in
flash. The invariant names the configuration the text stands for, and says
that it is what the history of saved choices makes of the first one loaded,
and that RAM agrees with it but for a slot whose save is still outstanding.
A power cycle at that point loses the choice and nothing else.
-/

namespace AndonConsole

/-- The record of the last completed OK for slot `i`. -/
def lastConfirmed (i : Fin 3) (es : List Event) : Option Callrecord :=
  es.reverse.findSome? fun
    | .saved j r => if j = i then some r else none
    | _ => none

@[simp] theorem lastConfirmed_nil (i : Fin 3) : lastConfirmed i [] = none := rfl

theorem lastConfirmed_saved (i j : Fin 3) (r : Callrecord) (es : List Event) :
    lastConfirmed i (es ++ [.saved j r]) = if j = i then some r else lastConfirmed i es := by
  by_cases h : j = i <;> simp [lastConfirmed, h]

theorem lastConfirmed_of_ne {i : Fin 3} {e : Event} (he : ∀ j r, e ≠ .saved j r)
    (es : List Event) : lastConfirmed i (es ++ [e]) = lastConfirmed i es := by
  cases e with
  | saved j r => exact absurd rfl (he j r)
  | polled b => simp [lastConfirmed]
  | savedDept => simp [lastConfirmed]
  | powerCycle => simp [lastConfirmed]

/-- The call slots as a power-up would load them. -/
def reloaded (flash : Flash) : Calls :=
  (retreiveCalls .ok (fun _ => .ok) (Store.powerOn flash)).calls

/-- The slot that `chooseCalls` has been called for. -/
def Control.choosing : Control → Option (Fin 3)
  | .polling (.chooseCalls _ _ _ callIndex _) => some callIndex
  | .savingCall _ _ _ callIndex _ => some callIndex
  | _ => none

/-- The slot that is written in RAM and not in flash. -/
def Control.pending : Control → Option (Fin 3)
  | .savingCall _ _ _ callIndex _ => some callIndex
  | _ => none

/-- RAM against the stored configuration: the same, or the chosen record in the
slot whose save is outstanding. -/
def RamAgrees (T : Tables) (cfg : CallConfig) (c : Console) : Prop :=
  match c.control with
  | .savingCall _ _ _ callIndex menu_item => ∃ e : CallEntry,
      recordAt T.callRecords (menu_item - 1) = .ok e.toRecord ∧
      c.world.calls = Function.update cfg.toCalls callIndex e.toRecord
  | _ => c.world.calls = cfg.toCalls

/-- Flash, history and RAM of a console that started with `first`. -/
structure StoreInv (T : Tables) (first : Calls) (es : List Event) (cfg : CallConfig)
    (c : Console) : Prop where
  flash : ∃ s, c.world.flash .nvsCalls = some s ∧ CallConfig.parse s = cfg
  history : ∀ i, cfg.toCalls i = (lastConfirmed i es).getD (first i)
  ram : RamAgrees T cfg c

def CleanCalls (callRecords : List Callrecord) : Prop :=
  ∀ r ∈ callRecords, r.IsSet ∧ ∀ s ∈ r.strings, s.IsField ∧ s ≠ CString.space

section StoreInv

variable {T : Tables} {first : Calls} {es : List Event} {cfg : CallConfig} {c c' : Console}
  {w : World} {menu : Menu} {e : Event}

theorem StoreInv.reloaded_eq (h : StoreInv T first es cfg c) :
    reloaded c.world.flash = cfg.toCalls := by
  obtain ⟨s, hs, hparse⟩ := h.flash
  rw [reloaded, retreiveCalls_powerOn hs, hparse]

theorem StoreInv.calls_eq (h : StoreInv T first es cfg c) {i : Fin 3}
    (hi : c.control.pending ≠ some i) :
    c.world.calls i = (lastConfirmed i es).getD (first i) := by
  have hram := h.ram
  rw [← h.history i]
  rw [RamAgrees] at hram
  split at hram
  · rename_i hcontrol
    obtain ⟨e, -, hcalls⟩ := hram
    rw [hcontrol, Control.pending, ne_eq, Option.some.injEq] at hi
    rw [hcalls, Function.update_of_ne (Ne.symm hi)]
  · rw [hram]

theorem ramAgrees_iff (hc : c.control.pending = none) :
    RamAgrees T cfg c ↔ c.world.calls = cfg.toCalls := by
  obtain ⟨control, w⟩ := c
  cases control with
  | polling menu => exact Iff.rfl
  | savingCall t s k i item => simp [Control.pending] at hc
  | savingDept t s item => exact Iff.rfl

theorem StoreInv.of_calls (h : StoreInv T first es cfg c) (hc : c.control.pending = none)
    (hc' : c'.control.pending = none) (hcalls : c'.world.calls = c.world.calls)
    (hflash : c'.world.flash .nvsCalls = c.world.flash .nvsCalls) :
    StoreInv T first es cfg c' where
  flash := by simpa [hflash] using h.flash
  history := h.history
  ram := by
    rw [ramAgrees_iff hc', hcalls]
    exact (ramAgrees_iff hc).mp h.ram

theorem CleanCalls.exists_entry (hclean : CleanCalls T.callRecords) {k : ℤ} {r : Callrecord}
    (hr : recordAt T.callRecords k = .ok r) : ∃ e : CallEntry, r = e.toRecord := by
  obtain ⟨-, hget⟩ := recordAt_eq_ok.mp hr
  obtain ⟨hset, hstr⟩ := hclean r (List.mem_of_getElem? hget)
  exact Callrecord.exists_entry hset hstr

theorem StoreInv.transition (hclean : CleanCalls T.callRecords)
    (h : StoreInv T first es cfg ⟨.polling menu, w⟩) (hstep : Transition T .ok w menu c) :
    StoreInv T first es cfg c := by
  have henter {menu' : Menu} {w' : World} (hw : w'.toStore = w.toStore)
      (h' : enter T menu' w' = .ok c) : StoreInv T first es cfg c := by
    obtain ⟨ws, -, rfl⟩ := enter_eq_ok.mp h'
    exact h.of_calls rfl rfl (by simp [hw]) (by simp [hw])
  cases hstep with
  | stay => exact h
  | shown h' => exact henter w.cls_toStore h'
  | redraw h' => exact henter rfl h'
  | back h' => exact henter rfl h'
  | sleep hw => exact h.of_calls rfl rfl (by simp [hw]) (by simp [hw])
  | confirmCall hne h' =>
      obtain ⟨r, hr, rfl⟩ := (chooseCallsConfirm_eq_ok hne).mp h'
      obtain ⟨e, rfl⟩ := hclean.exists_entry hr
      -- RAM runs ahead of flash and history from here to the save
      have hram : w.calls = cfg.toCalls := h.ram
      exact ⟨h.flash, h.history, e, hr, by rw [← hram]; rfl⟩
  | confirmDept h' =>
      obtain ⟨d, rfl⟩ := setDepartmentConfirm_frame h'
      exact h.of_calls rfl rfl rfl rfl

theorem StoreInv.saveCall {t : ℕ} {s k item : ℤ} {i : Fin 3} {r : Callrecord}
    (h : StoreInv T first es cfg ⟨.savingCall t s k i item, w⟩)
    (hr : recordAt T.callRecords (item - 1) = .ok r)
    (hstep : enter T (.setCalls t s k) (chooseCallsLeave .ok T.callRecords w) = .ok c) :
    ∃ cfg', StoreInv T first (es ++ [.saved i r]) cfg' c := by
  obtain ⟨e, he, hcalls⟩ := h.ram
  rw [hr, Except.ok.injEq] at he
  subst he
  rw [← CallConfig.toCalls_update] at hcalls
  change w.calls = _ at hcalls
  rw [chooseCallsLeave, if_pos (length_ne_zero_of_recordAt hr)] at hstep
  obtain ⟨ws, -, rfl⟩ := enter_eq_ok.mp hstep
  refine ⟨Function.update cfg i (some e), ⟨_, ?_, CallConfig.parse_serializedCalls _⟩, ?_, ?_⟩
  · simp [saveCalls_flash, hcalls]
  · intro j
    rw [lastConfirmed_saved, CallConfig.toCalls_update]
    by_cases hj : i = j
    · subst hj
      simp
    · rw [if_neg hj, Function.update_of_ne (Ne.symm hj), h.history j]
  · exact hcalls

theorem StoreInv.powerCycle {st : Store} {screen : Screen} (h : StoreInv T first es cfg c)
    (hboot : boot c.world.flash = .ok st) :
    StoreInv T first es cfg ⟨.polling .appMain, { st with screen }⟩ := by
  obtain ⟨s, hs, hparse⟩ := h.flash
  obtain ⟨hcalls, hflash⟩ := boot_ok hboot
  have hinit : initialised c.world.flash .nvsCalls = s := by simp [initialised, hs]
  rw [hinit, hparse] at hcalls
  exact ⟨⟨s, by simp [hflash, hinit], hparse⟩, h.history, hcalls⟩

theorem StoreInv.step (hclean : CleanCalls T.callRecords) (h : StoreInv T first es cfg c)
    (hstep : Step T (· = .ok) c e c') : ∃ cfg', StoreInv T first (es ++ [e]) cfg' c' := by
  have hother (hsaved : ∀ i r, e ≠ .saved i r) (h' : StoreInv T first es cfg c') :
      StoreInv T first (es ++ [e]) cfg c' := by
    refine ⟨h'.flash, fun i => ?_, h'.ram⟩
    rw [h'.history i, lastConfirmed_of_ne hsaved]
  cases hstep with
  | poll ha hpoll =>
      subst ha
      exact ⟨cfg, hother (by simp) (h.transition hclean (poll_transition hpoll))⟩
  | saveCall ha hr hstep =>
      subst ha
      exact h.saveCall hr hstep
  | saveDept ha hstep =>
      obtain ⟨ws, -, rfl⟩ := enter_eq_ok.mp hstep
      obtain ⟨hcalls, hflash⟩ := setDepartmentLeave_calls _ T.deptRecords _
      exact ⟨cfg, hother (by simp) (h.of_calls rfl rfl hcalls hflash)⟩
  | powerCycle ha hboot =>
      subst ha
      exact ⟨cfg, hother (by simp) (h.powerCycle hboot)⟩

theorem storeInv_of_run (hclean : CleanCalls T.callRecords) {flash : Flash} {st : Store}
    (hboot : boot flash = .ok st) {screen : Screen}
    (hrun : Lib.Run (Step T (· = .ok)) ⟨.polling .appMain, { st with screen }⟩ es c) :
    ∃ cfg, StoreInv T st.calls es cfg c := by
  apply hrun.invariant (I := fun es c => ∃ cfg, StoreInv T st.calls es cfg c)
  · obtain ⟨hcalls, hflash⟩ := boot_ok hboot
    exact ⟨_, ⟨_, by simp [hflash], rfl⟩, fun i => by simp [hcalls], hcalls⟩
  · rintro es c e c' ⟨cfg, h⟩ hstep
    exact h.step hclean hstep

/-! ### One slot at a time -/

theorem Control.choosing_of_pending {ctl : Control} {j : Fin 3} (h : ctl.pending = some j) :
    ctl.choosing = some j := by
  cases ctl with
  | polling menu => simp [Control.pending] at h
  | savingCall t s k i item => exact h
  | savingDept t s item => simp [Control.pending] at h

theorem Step.choosing_of_pending {ans : Answers → Prop} (hstep : Step T ans c e c') {j : Fin 3}
    (hj : c'.control.pending = some j) : c.control.choosing = some j := by
  have henter {menu' : Menu} {w' : World} (h : enter T menu' w' = .ok c') : False := by
    obtain ⟨ws, -, rfl⟩ := enter_eq_ok.mp h
    simp [Control.pending] at hj
  cases hstep with
  | poll _ hpoll =>
      cases poll_transition hpoll with
      | shown h | redraw h | back h => exact (henter h).elim
      | confirmCall => exact hj
      | stay | sleep | confirmDept => simp [Control.pending] at hj
  | saveCall _ _ h | saveDept _ h => exact (henter h).elim
  | powerCycle => simp [Control.pending] at hj

/-- Only `chooseCalls` for a slot makes history for it. -/
theorem Step.lastConfirmed_eq {ans : Answers → Prop} (hstep : Step T ans c e c')
    (es : List Event) {j : Fin 3} (hj : c.control.choosing ≠ some j) :
    lastConfirmed j (es ++ [e]) = lastConfirmed j es := by
  cases hstep with
  | saveCall _ _ _ =>
      rw [lastConfirmed_saved, if_neg fun h => hj (by rw [Control.choosing, h])]
  | poll | saveDept | powerCycle => exact lastConfirmed_of_ne (by simp) es

/-- Between two states of a run a slot changes, in RAM or in flash, only where
it is being chosen. -/
theorem StoreInv.frame {cfg' : CallConfig} (h : StoreInv T first es cfg c)
    (h' : StoreInv T first (es ++ [e]) cfg' c') (hstep : Step T (· = .ok) c e c') {j : Fin 3}
    (hj : c.control.choosing ≠ some j) :
    c'.world.calls j = c.world.calls j ∧
      reloaded c'.world.flash j = reloaded c.world.flash j := by
  have hsame := hstep.lastConfirmed_eq es hj
  constructor
  · rw [h'.calls_eq fun hp => hj (hstep.choosing_of_pending hp),
      h.calls_eq fun hp => hj (Control.choosing_of_pending hp), hsame]
  · rw [h'.reloaded_eq, h.reloaded_eq, h'.history, h.history, hsame]

end StoreInv

/-- **The operator's last choices.** Over any run from the first boot, power
cycles included: at every poll each slot holds the record last confirmed and
saved for it, or what the first boot loaded, and flash would load the same;
and a step changes no slot, in RAM or in flash, but the one being chosen. -/
theorem calls_eq_lastConfirmed (T : Tables) (hclean : CleanCalls T.callRecords) (flash : Flash)
    (st : Store) (hboot : boot flash = .ok st) (screen : Screen) {es : List Event} {c : Console}
    (hrun : Lib.Run (Step T (· = .ok)) ⟨.polling .appMain, { st with screen }⟩ es c) :
    (∀ menu, c.control = .polling menu →
        (∀ i, c.world.calls i = (lastConfirmed i es).getD (st.calls i)) ∧
          reloaded c.world.flash = c.world.calls) ∧
      ∀ e c' j, Step T (· = .ok) c e c' → c.control.choosing ≠ some j →
        c'.world.calls j = c.world.calls j ∧
          reloaded c'.world.flash j = reloaded c.world.flash j := by
  obtain ⟨cfg, h⟩ := storeInv_of_run hclean hboot hrun
  constructor
  · intro menu hcontrol
    have hpending : c.control.pending = none := by
      rw [hcontrol]
      rfl
    refine ⟨fun i => h.calls_eq (by simp [hpending]), ?_⟩
    rw [h.reloaded_eq, (ramAgrees_iff hpending).mp h.ram]
  · intro e c' j hstep hj
    obtain ⟨cfg', h'⟩ := h.step hclean hstep
    exact h.frame h' hstep hj

theorem cleanCalls_testCallRecords : CleanCalls testCallRecords.records := by
  intro r hr
  refine ⟨testCallRecords.populated r hr, ?_⟩
  simp only [testCallRecords, List.mem_cons, List.not_mem_nil, or_false] at hr
  rcases hr with rfl | rfl | rfl <;> decide

/-- A malformed text of the calls, and a department. -/
def demoFlash : Flash
  | .nvsCalls => some (.ofString "Blue,,Jam,Ann")
  | .nvsDept => some (.ofString "Department 2,2")

theorem demo_run : ∃ st es c, boot demoFlash = .ok st ∧
    Lib.Run (Step demoTables (· = .ok)) ⟨.polling .appMain, { st with screen := .blank }⟩ es c ∧
    c.control = .polling .appMain ∧ lastConfirmed 0 es = testCallRecords.records[1]? := by
  exact ⟨_, _, _, rfl, .snoc
    (Console.run_of_follow [.ok, .ok, .down, .ok, .ok, .down, .ok, .none] rfl rfl)
    (@Step.powerCycle _ _ _ _ _ .blank rfl rfl), rfl, rfl⟩

theorem calls_eq_lastConfirmed_demo :
    ∃ c : Console, some (c.world.calls 0) = testCallRecords.records[1]? ∧
      reloaded c.world.flash = c.world.calls := by
  obtain ⟨st, es, c, hboot, hrun, hcontrol, hlast⟩ := demo_run
  obtain ⟨hcalls, hflash⟩ := (calls_eq_lastConfirmed demoTables cleanCalls_testCallRecords
    demoFlash st hboot .blank hrun).1 .appMain hcontrol
  refine ⟨c, ?_, hflash⟩
  rw [hcalls 0, hlast]
  rfl

end AndonConsole
