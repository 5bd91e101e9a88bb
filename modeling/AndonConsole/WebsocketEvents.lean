import AndonConsole.WebsocketRuns

/-!
What a handler of the websocket client sees.

The events of all runs are what a small automaton accepts: data comes only on a
connection, a connection is announced before it is made, and CLOSED is the last
event. DISCONNECTED may come twice for one connection, once from the task and
once from a caller, but no third time.
-/

namespace AndonConsole

/-- What a handler knows: the connection is down, and how often it was told so; it is being
made; it is there; or it was closed by both sides. -/
inductive WsPhase
  | down (n : ℕ)
  | connecting
  | up
  | finished

namespace WsPhase

def next : WsPhase → WsEvent → Option WsPhase
  | .finished, _ => none
  | p, .error => some p
  | .down _, .beforeConnect => some .connecting
  | .connecting, .connected => some .up
  | .connecting, .disconnected => some (.down 1)
  | .up, .data .. => some .up
  | .up, .disconnected => some (.down 1)
  | .up, .closed => some .finished
  | .down 1, .disconnected => some (.down 2)
  | _, _ => none

theorem next_error {p : WsPhase} (h : p ≠ .finished) : p.next .error = some p := by
  cases p with
  | finished => exact absurd rfl h
  | _ => rfl

theorem foldlM_passing {es : List WsEvent} (h : ∀ e ∈ es, e.Passing) :
    es.foldlM next .up = some .up := by
  induction es with
  | nil => rfl
  | cons e es ih =>
      have hfirst : next .up e = some .up := by
        have he := h e List.mem_cons_self
        cases e with
        | error => rfl
        | data => rfl
        | _ => cases he
      rw [List.foldlM_cons, hfirst]
      exact ih fun e he => h e (List.mem_cons_of_mem _ he)

end WsPhase

/-- Those who may still find that the connection is gone. -/
def WsSystem.users (x : WsSystem) : ℕ :=
  (if x.task = .polling then 1 else 0) +
    match x.lock with
    | some (_, .sending ..) => 1
    | _ => 0

/-- The handler's view fits the state. -/
def WsSystem.Fits (x : WsSystem) (p : WsPhase) : Prop :=
  match x.client.state with
  | .error => False
  | .unknow => x.users = 0 ∨ p ≠ .finished
  | .init => ∃ n, p = .down n
  | .connected => p = .up
  | .waitTimeout => ∃ n, p = .down n ∧ 1 ≤ n ∧ n + x.users ≤ 2
  | .closing => p = .up

def WsClient.Sees (w : WsClient) (p : WsPhase) : Prop :=
  w.events.foldlM WsPhase.next (.down 0) = some p

section Sees

variable {cfg : WsConfig} {w w' : WsClient} {x x' : WsSystem} {l : Option ℕ} {p p' : WsPhase}

theorem WsClient.Sees.append {es : List WsEvent} (h : w.Sees p)
    (hevents : w'.events = w.events ++ es) (hes : es.foldlM WsPhase.next p = some p') :
    w'.Sees p' := by
  rw [Sees] at h
  rw [Sees, hevents, List.foldlM_append, h]
  exact hes

theorem WsClient.Sees.snoc {e : WsEvent} (h : w.Sees p) (hevents : w'.events = w.events ++ [e])
    (he : p.next e = some p') : w'.Sees p' :=
  h.append hevents ((bind_pure _).trans he)

theorem WsClient.Sees.dispatchEvent {e : WsEvent} (h : w.Sees p) (he : p.next e = some p') :
    (w.dispatchEvent e).Sees p' :=
  h.snoc rfl he

theorem WsClient.Sees.of_listens (h : w.Sees .up) (hlistens : w.Listens w') : w'.Sees .up := by
  obtain ⟨es, hevents, hes⟩ := hlistens.events
  exact h.append hevents (WsPhase.foldlM_passing hes)

theorem WsClient.Sees.of_givesUp (h : w.Sees p) (hp : p.next .disconnected = some p')
    (hgives : w.GivesUp w') : w'.Sees p' :=
  h.snoc hgives.events hp

theorem WsSystem.Fits.of_users (h : x.Fits p) (hstate : x'.client.state = x.client.state)
    (husers : x'.users ≤ x.users) : x'.Fits p := by
  unfold WsSystem.Fits at h ⊢
  rw [hstate]
  cases hcase : x.client.state with
  | waitTimeout =>
      rw [hcase] at h
      obtain ⟨n, hp, hpos, hle⟩ := h
      exact ⟨n, hp, hpos, by omega⟩
  | unknow =>
      rw [hcase] at h
      exact h.imp_left fun hzero => by omega
  | _ =>
      rw [hcase] at h
      exact h

theorem WsSystem.Fits.connected (hstate : x.client.state = .connected) : x.Fits p ↔ p = .up := by
  rw [WsSystem.Fits, hstate]

theorem WsSystem.Fits.of_connected (h : x.Fits p) (hstate : x.client.state = .connected)
    (hclient : x'.client = x.client) : x'.Fits p := by
  refine (Fits.connected (by rw [hclient, hstate])).mpr ?_
  exact (Fits.connected hstate).mp h

theorem WsSystem.Fits.closing (hstate : x.client.state = .closing) : x.Fits p ↔ p = .up := by
  rw [WsSystem.Fits, hstate]

theorem WsSystem.Fits.waitTimeout (hstate : x.client.state = .waitTimeout) :
    x.Fits p ↔ ∃ n, p = .down n ∧ 1 ≤ n ∧ n + x.users ≤ 2 := by
  rw [WsSystem.Fits, hstate]

theorem WsSystem.Fits.init (hstate : x.client.state = .init) : x.Fits p ↔ ∃ n, p = .down n := by
  rw [WsSystem.Fits, hstate]

theorem WsSystem.Fits.unknow (hstate : x.client.state = .unknow) :
    x.Fits p ↔ x.users = 0 ∨ p ≠ .finished := by
  rw [WsSystem.Fits, hstate]

/-- Whoever finds that a started connection is gone was one of its users. -/
theorem WsSystem.Fits.of_givesUp (h : x.Fits p) (hsees : x.client.Sees p)
    (hstate : x.client.state = .connected ∨ x.client.state = .waitTimeout)
    (hgives : (x.client.dispatchEvent .error).GivesUp x'.client) (husers : x'.users < x.users) :
    ∃ p', x'.client.Sees p' ∧ x'.Fits p' := by
  have htwo : x.users ≤ 2 := by
    unfold WsSystem.users
    split <;> split <;> omega
  rcases hstate with hstate | hstate
  · obtain rfl := (WsSystem.Fits.connected hstate).mp h
    refine ⟨.down 1, (hsees.dispatchEvent rfl).of_givesUp rfl hgives, ?_⟩
    exact (WsSystem.Fits.waitTimeout hgives.state).mpr ⟨1, rfl, by omega, by omega⟩
  · obtain ⟨n, rfl, hpos, hle⟩ := (WsSystem.Fits.waitTimeout hstate).mp h
    obtain rfl : n = 1 := by omega
    refine ⟨.down 2, (hsees.dispatchEvent rfl).of_givesUp rfl hgives, ?_⟩
    exact (WsSystem.Fits.waitTimeout hgives.state).mpr ⟨2, rfl, by omega, by omega⟩

/-- A turn under the lock: nobody else uses the connection. -/
theorem WsSystem.Fits.of_turn (h : x.Fits p) (hsees : x.client.Sees p)
    (hturn : x.client.Turn x'.client) (husers : x'.users = 0) :
    ∃ p', x'.client.Sees p' ∧ x'.Fits p' := by
  cases hturn with
  | connects hstate hstate' hpast hwire hevents =>
      obtain ⟨n, rfl⟩ := (Fits.init hstate).mp h
      exact ⟨.up, hsees.append hevents rfl, (Fits.connected hstate').mpr rfl⟩
  | connectFails hstate hgives =>
      obtain ⟨n, rfl⟩ := (Fits.init hstate).mp h
      have hconnecting : (x.client.dispatchEvent .beforeConnect).Sees .connecting :=
        hsees.dispatchEvent rfl
      refine ⟨.down 1, (hconnecting.dispatchEvent rfl).of_givesUp rfl hgives, ?_⟩
      exact (Fits.waitTimeout hgives.state).mpr ⟨1, rfl, by omega, by omega⟩
  | listens hstate hlistens =>
      obtain rfl : p = .up := by
        rcases hstate with hstate | hstate
        · exact (Fits.connected hstate).mp h
        · exact (Fits.closing hstate).mp h
      refine ⟨.up, hsees.of_listens hlistens, ?_⟩
      rcases hlistens.state with hsame | hclosing
      · rcases hstate with hstate | hstate
        · exact (Fits.connected (hsame.trans hstate)).mpr rfl
        · exact (Fits.closing (hsame.trans hstate)).mpr rfl
      · exact (Fits.closing hclosing).mpr rfl
  | givesUp hstate hlistens hgives =>
      obtain rfl := (Fits.connected hstate).mp h
      refine ⟨.down 1, (hsees.of_listens hlistens).of_givesUp rfl hgives, ?_⟩
      exact (Fits.waitTimeout hgives.state).mpr ⟨1, rfl, by omega, by omega⟩
  | waits hstate hstate' hopen hpast hwire hevents =>
      have hsees' : x'.client.Sees p := by
        rw [WsClient.Sees, hevents]
        exact hsees
      rcases hstate' with hwait | hinit
      · exact ⟨p, hsees', h.of_users (hwait.trans hstate.symm) (by omega)⟩
      · obtain ⟨n, rfl, -⟩ := (Fits.waitTimeout hstate).mp h
        exact ⟨.down n, hsees', (Fits.init hinit).mpr ⟨n, rfl⟩⟩
  | rests hstarted hsame =>
      rw [hsame]
      exact ⟨p, hsees, h.of_users (by rw [hsame]) (by omega)⟩

theorem WsSystem.Fits.of_unknow (h : x.Fits p) (hstate : x'.client.state = .unknow)
    (husers : x'.users ≤ x.users) : x'.Fits p := by
  rw [Fits.unknow hstate]
  unfold WsSystem.Fits at h
  cases hcase : x.client.state with
  | error =>
      rw [hcase] at h
      exact h.elim
  | unknow =>
      rw [hcase] at h
      exact h.imp_left fun hzero => by omega
  | init =>
      rw [hcase] at h
      obtain ⟨n, rfl⟩ := h
      exact .inr nofun
  | waitTimeout =>
      rw [hcase] at h
      obtain ⟨n, rfl, -⟩ := h
      exact .inr nofun
  | connected =>
      rw [hcase] at h
      exact .inr (h ▸ nofun)
  | closing =>
      rw [hcase] at h
      exact .inr (h ▸ nofun)

theorem WsSystem.Fits.step (h : x.Fits p) (hsees : x.client.Sees p) (hordered : x.Ordered cfg)
    (hstep : WsStep cfg x l x') : ∃ p', x'.client.Sees p' ∧ x'.Fits p' := by
  cases hstep with
  | enter htop hrun => exact ⟨p, hsees, h.of_users rfl (by simp [WsSystem.users])⟩
  | switch htask hlock hconform hswitch =>
      refine h.of_turn hsees (WsClient.turn_taskSwitch hconform hswitch) ?_
      simp [WsSystem.users, hlock]
  | leave htop hrun => exact ⟨p, hsees, h.of_users rfl (by simp [WsSystem.users])⟩
  | post hpost =>
      refine ⟨p, hsees, ?_⟩
      by_cases hpolling : x.client.postTask = .polling
      · have hstate := WsClient.state_of_postTask hpolling
        exact h.of_connected hstate rfl
      · exact h.of_users rfl (by simp [WsSystem.users, hpolling])
  | poll answer tick hpolling =>
      rcases WsClient.taskPoll_cases cfg (hordered.started hpolling) answer tick with
        hsame | hgives
      · rw [hsame]
        exact ⟨p, hsees, h.of_users rfl (by simp [WsSystem.users])⟩
      · exact h.of_givesUp hsees (hordered.polling hpolling) hgives
          (by simp [WsSystem.users, hpolling])
  | closed hwait =>
      have hclosing := hordered.closeWait hwait
      obtain rfl := (Fits.closing hclosing).mp h
      refine ⟨.finished, hsees.dispatchEvent rfl, (Fits.unknow rfl).mpr (.inl ?_)⟩
      unfold WsSystem.users
      split
      · cases ‹WsTask.exiting = .polling›
      · split
        · exact absurd ‹_› (hordered.not_sending hclosing)
        · rfl
  | exit hexit => exact ⟨p, hsees, h.of_unknow rfl (by simp [WsSystem.users])⟩
  | take hlock hallowed => exact ⟨p, hsees, h.of_users rfl (by simp [WsSystem.users])⟩
  | refuse hlock hstate => exact ⟨p, hsees, h.of_users rfl (by simp [WsSystem.users])⟩
  | check hlock hstate =>
      exact ⟨p, hsees, h.of_connected hstate rfl⟩
  | write hlock hnext hopen hmore =>
      refine ⟨p, ?_, h.of_users (WsClient.sendRaw_state ..) (by simp [WsSystem.users, hlock])⟩
      rw [WsClient.Sees, WsClient.sendRaw_events]
      exact hsees
  | last hlock hnext hopen hdone =>
      refine ⟨p, ?_, h.of_users (WsClient.sendRaw_state ..) (by simp [WsSystem.users])⟩
      rw [WsClient.Sees, WsClient.sendRaw_events]
      exact hsees
  | writeFails tick hlock hnext =>
      rcases hordered.sending _ _ _ hlock with hstate | ⟨-, hstate | hunknow⟩
      · have hgives := WsClient.givesUp_fail (w := x.client) cfg (by rw [hstate]; rfl) tick
        exact h.of_givesUp hsees (.inl hstate) hgives (by simp [WsSystem.users, hlock])
      · have hgives := WsClient.givesUp_fail (w := x.client) cfg (by rw [hstate]; rfl) tick
        exact h.of_givesUp hsees (.inr hstate) hgives (by simp [WsSystem.users, hlock])
      · have hp : p ≠ .finished := by
          refine ((Fits.unknow hunknow).mp h).resolve_left ?_
          simp [WsSystem.users, hlock]
        rw [WsClient.fail_of_not_started (by rw [hunknow]; rfl)]
        exact ⟨p, hsees.dispatchEvent (WsPhase.next_error hp), h.of_users rfl
          (by simp [WsSystem.users])⟩
  | stop => exact ⟨p, hsees, h⟩
  | setClosing => exact ⟨p, hsees, h⟩

end Sees

end AndonConsole
