import AndonConsole.WebsocketClient
import AndonConsole.Lib.Runs

/-!
The websocket client among its callers.

The task and any number of callers take turns in any order. The `switch` of the
task and a whole call of `esp_websocket_client_send_with_opcode` run under the
lock, but a call writes frame by frame, and meanwhile the task may poll the
connection and give it up. Callers may also ask the task to stop and set the
bit that says a close frame was sent. In every run the receivers of all
connections have together exactly the messages of the calls that have returned
their length, each of them once and in the order of these returns, but for
those that were sent behind a close frame: the client stays connected until the
server answers it. What is left out are the functions that send a part of a
message, which take no lock and do not look at the state.
-/

namespace AndonConsole

/-- A call of `esp_websocket_client_send_with_opcode`. -/
structure WsCall where
  op : WsOpcode
  data : List UInt8

/-- Text and binary messages of any length, and close frames with at most 125 bytes, which fit
in the buffer. -/
def WsCall.Allowed (cfg : WsConfig) (call : WsCall) : Prop :=
  call.op.IsData ∨ call.op = .close ∧ call.data.length ≤ min 125 cfg.buffer_size

/-- The message of the call; a close frame is none. -/
def WsCall.message (call : WsCall) : List (WsOpcode × List UInt8) :=
  if call.op = .close then [] else [(call.op, call.data)]

theorem WsOpcode.IsData.message {call : WsCall} (h : call.op.IsData) :
    call.message = [(call.op, call.data)] := by
  refine if_neg fun hclose => ?_
  rw [hclose] at h
  cases h

inductive WsCaller
  | checking (call : WsCall)
  | sending (call : WsCall) (s : Sending)

inductive WsTask
  | top
  | locking
  | post
  | polling
  | closeWait
  | exiting
  | ended
  deriving DecidableEq

def WsClient.postTask (w : WsClient) : WsTask :=
  match w.state with
  | .connected => .polling
  | .closing => if w.close_frame_sent then .closeWait else .top
  | _ => .top

def WsClient.closeWritten (w : WsClient) : Bool := w.wire.any fun f => f.opcode.op = .close

/-- A message that is `late` was sent behind a close frame. -/
structure WsSent where
  message : WsOpcode × List UInt8
  late : Bool

/-- The client, its task and the caller with the lock; `sent` are the messages whose calls have
returned their length, in this order. -/
structure WsSystem where
  client : WsClient
  task : WsTask
  lock : Option (ℕ × WsCaller)
  sent : List WsSent

/-- The task in front of its loop. -/
def WsSystem.start (tick : ℕ) : WsSystem where
  client := {
    state := .init
    run := true
    wait_for_pong_resp := false
    reconnect_tick_ms := tick
    ping_tick_ms := tick
    pingpong_tick_ms := 0
    read_select := 0
    close_frame_sent := false
    transport_open := false
    past := []
    wire := []
    events := [] }
  task := .top
  lock := none
  sent := []

def WsSystem.onTime (x : WsSystem) : List (WsOpcode × List UInt8) :=
  (x.sent.filter fun m => !m.late).map WsSent.message

/-- A step of the task, `none`, or of a caller. -/
inductive WsStep (cfg : WsConfig) : WsSystem → Option ℕ → WsSystem → Prop
  | enter {x : WsSystem} :
      x.task = .top → x.client.run = true → WsStep cfg x none { x with task := .locking }
  | switch {x : WsSystem} {a : WsAnswers} {rx_buffer : List UInt8} {w : WsClient} :
      x.task = .locking → x.lock = none → a.Conform →
      x.client.taskSwitch cfg a rx_buffer = .ok w →
      WsStep cfg x none { x with client := w, task := .post }
  | leave {x : WsSystem} :
      x.task = .top → x.client.run = false → WsStep cfg x none { x with task := .exiting }
  | post {x : WsSystem} :
      x.task = .post → WsStep cfg x none { x with task := x.client.postTask }
  | poll {x : WsSystem} (answer : ℤ) (tick : ℕ) :
      x.task = .polling →
      WsStep cfg x none { x with client := x.client.taskPoll cfg answer tick, task := .top }
  | closed {x : WsSystem} :
      x.task = .closeWait →
      WsStep cfg x none { x with client := x.client.taskClosed, task := .exiting }
  | exit {x : WsSystem} :
      x.task = .exiting →
      WsStep cfg x none { x with client := x.client.taskExit, task := .ended }
  | take {x : WsSystem} {i : ℕ} {call : WsCall} :
      x.lock = none → call.Allowed cfg →
      WsStep cfg x (some i) { x with lock := some (i, .checking call) }
  | refuse {x : WsSystem} {i : ℕ} {call : WsCall} :
      x.lock = some (i, .checking call) → x.client.state ≠ .connected →
      WsStep cfg x (some i) { x with lock := none }
  | check {x : WsSystem} {i : ℕ} {call : WsCall} :
      x.lock = some (i, .checking call) → x.client.state = .connected →
      WsStep cfg x (some i)
        { x with lock := some (i, .sending call (.start ⟨call.op, true⟩ call.data)) }
  | write {x : WsSystem} {i : ℕ} {call : WsCall} {s : Sending} {f : WsFrame} :
      x.lock = some (i, .sending call s) → s.next cfg.buffer_size = some f →
      x.client.transport_open = true → (s.advance f.payload.length).next cfg.buffer_size ≠ none →
      WsStep cfg x (some i) { x with
        client := x.client.sendRaw true f
        lock := some (i, .sending call (s.advance f.payload.length)) }
  | last {x : WsSystem} {i : ℕ} {call : WsCall} {s : Sending} {f : WsFrame} :
      x.lock = some (i, .sending call s) → s.next cfg.buffer_size = some f →
      x.client.transport_open = true → (s.advance f.payload.length).next cfg.buffer_size = none →
      WsStep cfg x (some i) { x with
        client := x.client.sendRaw true f
        lock := none
        sent := x.sent ++ call.message.map fun m => ⟨m, x.client.closeWritten⟩ }
  | writeFails {x : WsSystem} {i : ℕ} {call : WsCall} {s : Sending} {f : WsFrame} (tick : ℕ) :
      x.lock = some (i, .sending call s) → s.next cfg.buffer_size = some f →
      WsStep cfg x (some i) { x with client := x.client.fail cfg tick, lock := none }
  | stop {x : WsSystem} (i : ℕ) :
      WsStep cfg x (some i) { x with client := { x.client with run := false } }
  | setClosing {x : WsSystem} (i : ℕ) :
      WsStep cfg x (some i) { x with client := { x.client with close_frame_sent := true } }

/-! ### Where the connection is while a call is under way -/

/-- While a caller writes frames the connection is there or was given up, and the task waits
for the end of a connection only in the state for it. -/
structure WsSystem.Ordered (cfg : WsConfig) (x : WsSystem) : Prop where
  allowed : ∀ i call, x.lock = some (i, .checking call) → call.Allowed cfg
  sending : ∀ i call s, x.lock = some (i, .sending call s) → x.client.state = .connected ∨
    x.client.transport_open = false ∧
      (x.client.state = .waitTimeout ∨ x.client.state = .unknow)
  polling : x.task = .polling → x.client.state = .connected ∨ x.client.state = .waitTimeout
  closeWait : x.task = .closeWait → x.client.state = .closing

section Ordered

variable {cfg : WsConfig} {w : WsClient} {x x' : WsSystem} {l : Option ℕ}

theorem WsClient.state_of_postTask (h : w.postTask = .polling) : w.state = .connected := by
  unfold WsClient.postTask at h
  split at h
  · assumption
  · split_ifs at h
  · cases h

theorem WsClient.closing_of_postTask (h : w.postTask = .closeWait) : w.state = .closing := by
  unfold WsClient.postTask at h
  split at h
  · cases h
  · assumption
  · cases h

theorem WsSystem.Ordered.start (tick : ℕ) : (WsSystem.start tick).Ordered cfg where
  allowed := nofun
  sending := nofun
  polling := nofun
  closeWait := nofun

theorem WsSystem.Ordered.started (h : x.Ordered cfg) (hpolling : x.task = .polling) :
    x.client.state.started = true := by
  rcases h.polling hpolling with hstate | hstate <;> rw [hstate] <;> rfl

/-- The state for the end of a connection is entered under the lock, and no call passes the check
in it. -/
theorem WsSystem.Ordered.not_sending {i : ℕ} {call : WsCall} {s : Sending} (h : x.Ordered cfg)
    (hclosing : x.client.state = .closing) : x.lock ≠ some (i, .sending call s) := by
  intro hlock
  rcases h.sending i call s hlock with hstate | ⟨-, hstate | hstate⟩ <;>
    rw [hclosing] at hstate <;> cases hstate

theorem WsSystem.Ordered.step (h : x.Ordered cfg) (hstep : WsStep cfg x l x') : x'.Ordered cfg := by
  cases hstep with
  | enter htop hrun => exact ⟨h.allowed, h.sending, nofun, nofun⟩
  | switch htask hlock hconform hswitch =>
      exact ⟨by simp [hlock], by simp [hlock], nofun, nofun⟩
  | leave htop hrun => exact ⟨h.allowed, h.sending, nofun, nofun⟩
  | post hpost =>
      exact ⟨h.allowed, h.sending, fun hpolling => .inl (WsClient.state_of_postTask hpolling),
        WsClient.closing_of_postTask⟩
  | poll answer tick hpolling =>
      refine ⟨h.allowed, fun i call s hsending => ?_, nofun, nofun⟩
      rcases WsClient.taskPoll_cases cfg (h.started hpolling) answer tick with hsame | hgives
      · rw [hsame]
        exact h.sending i call s hsending
      · exact .inr ⟨hgives.transport_open, .inl hgives.state⟩
  | closed hwait =>
      refine ⟨h.allowed, fun i call s hsending => ?_, nofun, nofun⟩
      exact absurd hsending (h.not_sending (h.closeWait hwait))
  | exit hexit => exact ⟨h.allowed, fun _ _ _ _ => .inr ⟨rfl, .inr rfl⟩, nofun, nofun⟩
  | take hlock hallowed =>
      refine ⟨fun i call hcall => ?_, nofun, h.polling, h.closeWait⟩
      cases hcall
      exact hallowed
  | refuse hlock hstate => exact ⟨nofun, nofun, h.polling, h.closeWait⟩
  | check hlock hstate => exact ⟨nofun, fun _ _ _ _ => .inl hstate, h.polling, h.closeWait⟩
  | write hlock hnext hopen hmore =>
      refine ⟨nofun, fun _ _ _ _ => ?_, ?_, ?_⟩
      all_goals simp only [WsClient.sendRaw_state, WsClient.sendRaw_transport_open]
      · exact h.sending _ _ _ hlock
      · exact h.polling
      · exact h.closeWait
  | last hlock hnext hopen hdone =>
      refine ⟨nofun, nofun, ?_, ?_⟩
      all_goals simp only [WsClient.sendRaw_state]
      · exact h.polling
      · exact h.closeWait
  | writeFails tick hlock hnext =>
      refine ⟨nofun, nofun, fun hpolling => ?_, fun hwait => ?_⟩
      · exact .inr (WsClient.givesUp_fail cfg (h.started hpolling) tick).state
      · exact absurd hlock (h.not_sending (h.closeWait hwait))
  | stop => exact ⟨h.allowed, h.sending, h.polling, h.closeWait⟩
  | setClosing => exact ⟨h.allowed, h.sending, h.polling, h.closeWait⟩

/-- The connection is gone when a write has failed. -/
theorem WsSystem.Ordered.transport_fail {i : ℕ} {call : WsCall} {s : Sending} (h : x.Ordered cfg)
    (hlock : x.lock = some (i, .sending call s)) (tick : ℕ) :
    (x.client.fail cfg tick).transport_open = false := by
  cases hstarted : x.client.state.started with
  | true => exact (WsClient.givesUp_fail cfg hstarted tick).transport_open
  | false =>
      rw [WsClient.fail_of_not_started hstarted]
      rcases h.sending i call s hlock with hstate | ⟨hopen, -⟩
      · rw [hstate] at hstarted
        cases hstarted
      · exact hopen

end Ordered

/-! ### What the receivers have -/

def receivedMessages (wires : List (List WsFrame)) : Option (List (WsOpcode × List UInt8)) :=
  (wires.mapM received).map fun rs => rs.flatMap Lib.Receiver.messages

/-- A call whose frames are being written, and the message under way at the receiver. -/
inductive WsCall.InFlight (cfg : WsConfig) (call : WsCall) :
    Sending → Option (WsOpcode × List UInt8) → Prop
  | data {s : Sending} {cur : Option (WsOpcode × List UInt8)} :
      call.op.IsData → Midway call.op call.data s cur → InFlight cfg call s cur
  | close : call.op = .close → call.data.length ≤ min 125 cfg.buffer_size →
      InFlight cfg call (.start ⟨call.op, true⟩ call.data) none

/-- The message under way at the receiver is that of the caller with the lock. -/
def WsSystem.Flight (cfg : WsConfig) (x : WsSystem) (cur : Option (WsOpcode × List UInt8)) :
    Prop :=
  match x.lock with
  | some (_, .sending call s) => call.InFlight cfg s cur
  | _ => cur = none

/-- The receivers of the earlier connections have the messages `before`, and that of the last
one is at `r`; unless that is closed, the message under way is the one that is being sent. -/
structure WsSystem.Delivers (cfg : WsConfig) (x : WsSystem)
    (before : List (WsOpcode × List UInt8)) (r : WsReceiver) : Prop where
  past : receivedMessages x.client.past = some before
  wire : received x.client.wire = some r
  sent : x.onTime = before ++ r.messages
  flight : x.client.transport_open = true →
    ∃ cur, x.Flight cfg cur ∧ (r.closed controlRules = false → r.current = cur)

section Delivers

variable {cfg : WsConfig} {w w' : WsClient} {x x' : WsSystem} {l : Option ℕ} {call : WsCall}
  {s : Sending} {f : WsFrame} {r : WsReceiver} {before : List (WsOpcode × List UInt8)}

theorem receivedMessages_snoc {wires : List (List WsFrame)} {wire : List WsFrame}
    (h : receivedMessages wires = some before) (hwire : received wire = some r) :
    receivedMessages (wires ++ [wire]) = some (before ++ r.messages) := by
  obtain ⟨rs, hrs, rfl⟩ := Option.map_eq_some_iff.mp h
  simp [receivedMessages, List.mapM_append, hrs, hwire]

theorem received_append {wire fs : List WsFrame} (h : received wire = some r) :
    received (wire ++ fs) =
      (fs.map WsFrame.toFrame).foldlM (Lib.Receiver.accept controlRules) r := by
  rw [received, Lib.receive] at h
  rw [received, Lib.receive, List.map_append, List.foldlM_append, h]
  rfl

theorem received_snoc {wire : List WsFrame} (h : received wire = some r) :
    received (wire ++ [f]) = r.accept controlRules f.toFrame := by
  rw [received_append h]
  exact bind_pure _

theorem WsFrame.closes_toFrame (f : WsFrame) :
    f.toFrame.closes controlRules = decide (f.opcode.op = .close) := by
  obtain ⟨⟨op, fin⟩, payload⟩ := f
  cases op <;> rfl

theorem WsClient.closeWritten_eq (h : received w.wire = some r) :
    w.closeWritten = r.closed controlRules := by
  have hany : (w.wire.any fun f => f.toFrame.closes controlRules) = w.closeWritten := by
    simp only [WsFrame.closes_toFrame]
    rfl
  rw [Lib.Receiver.closed_foldlM h, List.any_map, ← hany]
  rfl

theorem WsSystem.onTime_append (late : Bool) (ms : List (WsOpcode × List UInt8)) :
    WsSystem.onTime { x with sent := x.sent ++ ms.map fun m => ⟨m, late⟩ } =
      x.onTime ++ if late then [] else ms := by
  cases late <;> simp [onTime, List.filter_map, Function.comp_def]

/-- A frame of a call: its message is complete, or the call goes on. -/
theorem WsCall.InFlight.next (hopen : r.closed controlRules = false)
    (h : call.InFlight cfg s r.current) (hnext : s.next cfg.buffer_size = some f) :
    ∃ r', r.accept controlRules f.toFrame = some r' ∧
      ((s.advance f.payload.length).next cfg.buffer_size = none ∧ r'.current = none ∧
          r'.messages = r.messages ++ call.message ∨
        (s.advance f.payload.length).next cfg.buffer_size ≠ none ∧
          r'.messages = r.messages ∧
          call.InFlight cfg (s.advance f.payload.length) r'.current) := by
  generalize hcur : r.current = cur at h
  cases h with
  | data hop hmidway =>
      rw [← hcur] at hmidway
      obtain ⟨f', hnext', hturn⟩ : ∃ f', s.next cfg.buffer_size = some f' ∧ _ :=
        hmidway.next hop hopen
      obtain rfl : f = f' := Option.some.inj (hnext.symm.trans hnext')
      rcases hturn with ⟨hshort, hpayload, haccept⟩ | ⟨hlong, hpayload, sent, haccept, hmidway'⟩
      · refine ⟨_, haccept, .inl ⟨Sending.next_advance ?_, rfl, ?_⟩⟩
        · rw [hpayload, List.drop_length]
        · rw [hop.message]
      · have hlen : f.payload.length = cfg.buffer_size := by
          rw [hpayload, List.length_take]
          omega
        refine ⟨_, haccept, .inr ⟨?_, rfl, .data hop (hlen ▸ hmidway')⟩⟩
        rw [hlen]
        obtain ⟨f', hnext', -⟩ : ∃ f',
            (s.advance cfg.buffer_size).next cfg.buffer_size = some f' ∧ _ :=
          Midway.next (r := { r with current := some (call.op, sent) }) hop hopen hmidway'
        simp [hnext']
  | close hop hlen =>
      have hzero : ¬ (call.data = [] ∧ (⟨call.op, true⟩ : Opcode) = .zero) := by
        simp [hop, Opcode.zero]
      have hshort : ¬ call.data.length > cfg.buffer_size := by omega
      obtain rfl : ⟨⟨call.op, true⟩, call.data⟩ = f := by
        rw [Sending.next, Sending.start, if_neg hzero, if_neg hshort] at hnext
        exact Option.some.inj hnext
      have haccept : r.accept controlRules (WsFrame.toFrame ⟨⟨call.op, true⟩, call.data⟩) =
          some { r with controls := r.controls ++ [(.close, call.data)] } := by
        rw [WsFrame.toFrame, hop]
        exact Lib.Receiver.accept_control hopen (le_trans hlen (min_le_left _ _))
      refine ⟨_, haccept, .inl ⟨Sending.next_advance List.drop_length, hcur, ?_⟩⟩
      rw [WsCall.message, if_pos hop, List.append_nil]

/-- The same where the connection may have been closed: then the frame is discarded. -/
theorem WsCall.InFlight.accept {cur : Option (WsOpcode × List UInt8)}
    (h : call.InFlight cfg s cur) (hcur : r.closed controlRules = false → r.current = cur)
    (hnext : s.next cfg.buffer_size = some f) :
    ∃ r', r.accept controlRules f.toFrame = some r' ∧
      ((s.advance f.payload.length).next cfg.buffer_size = none ∧
          (r'.closed controlRules = false → r'.current = none) ∧
          r'.messages = r.messages ++ (if r.closed controlRules then [] else call.message) ∨
        (s.advance f.payload.length).next cfg.buffer_size ≠ none ∧
          r'.messages = r.messages ∧
          ∃ cur', call.InFlight cfg (s.advance f.payload.length) cur' ∧
            (r'.closed controlRules = false → r'.current = cur')) := by
  cases hclosed : r.closed controlRules with
  | false =>
      rw [← hcur hclosed] at h
      obtain ⟨r', haccept, ⟨hdone, hcur', hmessages⟩ | ⟨hmore, hmessages, hflight⟩⟩ :=
        h.next hclosed hnext
      · exact ⟨r', haccept, .inl ⟨hdone, fun _ => hcur', hmessages⟩⟩
      · exact ⟨r', haccept, .inr ⟨hmore, hmessages, _, hflight, fun _ => rfl⟩⟩
  | true =>
      refine ⟨r, Lib.Receiver.accept_of_closed hclosed, ?_⟩
      obtain ⟨r', -, ⟨hdone, -, -⟩ | ⟨hmore, -, hflight⟩⟩ :=
        h.next (r := ⟨cur, [], []⟩) rfl hnext
      · exact .inl ⟨hdone, fun hopen => absurd hopen (by simp [hclosed]), by simp⟩
      · exact .inr ⟨hmore, rfl, _, hflight, fun hopen => absurd hopen (by simp [hclosed])⟩

theorem WsClient.Listens.messages (h : w.Listens w') (hwire : received w.wire = some r) :
    ∃ r', received w'.wire = some r' ∧ r'.current = r.current ∧
      r'.messages = r.messages ∧
      (r'.closed controlRules = false → r.closed controlRules = false) := by
  obtain ⟨fs, hfs, hcontrol⟩ := h.wire
  have hcontrols : ∀ f ∈ fs.map WsFrame.toFrame, ∃ kind,
      f = ⟨.control kind, true, f.payload⟩ ∧ f.payload.length ≤ controlRules.limit := by
    intro f hf
    obtain ⟨f', hf', rfl⟩ := List.mem_map.mp hf
    exact hcontrol f' hf'
  obtain ⟨cs, hcs⟩ := Lib.Receiver.foldlM_control (r := r) hcontrols
  refine ⟨{ r with controls := r.controls ++ cs }, ?_, rfl, rfl, fun hopen => ?_⟩
  · rw [hfs, received_append hwire, hcs]
  · rw [Lib.Receiver.closed_foldlM hcs, Bool.or_eq_false_iff] at hopen
    exact hopen.1

/-- The task may go on with the connection, as long as the lock stays where it is. -/
theorem WsSystem.Delivers.of_listens {t : WsTask} (h : x.Delivers cfg before r)
    (hlistens : x.client.Listens w) :
    ∃ r', WsSystem.Delivers cfg { x with client := w, task := t } before r' := by
  obtain ⟨r', hwire, hcurrent, hmessages, hclosed⟩ := hlistens.messages h.wire
  refine ⟨r', ?_, hwire, ?_, fun hopen => ?_⟩
  · rw [hlistens.past]
    exact h.past
  · rw [hmessages]
    exact h.sent
  · obtain ⟨cur, hflight, hcur⟩ := h.flight (hlistens.transport_open ▸ hopen)
    exact ⟨cur, hflight, fun hopen' => hcurrent.trans (hcur (hclosed hopen'))⟩

theorem WsSystem.Delivers.of_givesUp {t : WsTask} (h : x.Delivers cfg before r)
    (hlistens : x.client.Listens w) (hgives : w.GivesUp w') :
    ∃ r', WsSystem.Delivers cfg { x with client := w', task := t } before r' := by
  obtain ⟨r', hwire, -, hmessages, -⟩ := hlistens.messages h.wire
  refine ⟨r', ?_, ?_, ?_, fun hopen => ?_⟩
  · rw [hgives.past, hlistens.past]
    exact h.past
  · rw [hgives.wire]
    exact hwire
  · rw [hmessages]
    exact h.sent
  · rw [hgives.transport_open] at hopen
    cases hopen

theorem WsSystem.Delivers.inFlight {i : ℕ} (h : x.Delivers cfg before r)
    (hlock : x.lock = some (i, .sending call s)) (hopen : x.client.transport_open = true) :
    ∃ cur, call.InFlight cfg s cur ∧ (r.closed controlRules = false → r.current = cur) := by
  obtain ⟨cur, hflight, hcur⟩ := h.flight hopen
  rw [Flight, hlock] at hflight
  exact ⟨cur, hflight, hcur⟩

theorem WsSystem.Delivers.current_of_idle (h : x.Delivers cfg before r)
    (hlock : ∀ i call s, x.lock ≠ some (i, .sending call s))
    (hopen : x.client.transport_open = true) :
    r.closed controlRules = false → r.current = none := by
  obtain ⟨cur, hflight, hcur⟩ := h.flight hopen
  obtain rfl : cur = none := by
    unfold Flight at hflight
    split at hflight
    · exact absurd ‹_› (hlock _ _ _)
    · exact hflight
  exact hcur

theorem WsSystem.Delivers.received_sendRaw {r' : WsReceiver} (h : x.Delivers cfg before r)
    (hopen : x.client.transport_open = true)
    (haccept : r.accept controlRules f.toFrame = some r') :
    received (x.client.sendRaw true f).wire = some r' := by
  rw [WsClient.sendRaw_wire _ _ hopen, received_snoc h.wire]
  exact haccept

theorem WsSystem.Delivers.step (h : x.Delivers cfg before r) (hordered : x.Ordered cfg)
    (hstep : WsStep cfg x l x') : ∃ before' r', x'.Delivers cfg before' r' := by
  cases hstep with
  | enter htop hrun => exact ⟨before, r, h.past, h.wire, h.sent, h.flight⟩
  | switch htask hlock hconform hswitch =>
      cases WsClient.turn_taskSwitch hconform hswitch with
      | connects hstate hstate' hpast hwire hevents =>
          refine ⟨before ++ r.messages, .empty, ?_, ?_, ?_, fun _ => ⟨none, ?_, fun _ => rfl⟩⟩
          · rw [hpast]
            exact receivedMessages_snoc h.past h.wire
          · rw [hwire]
            rfl
          · exact h.sent.trans (List.append_nil _).symm
          · -- the lock is free, so nothing is under way yet
            rw [Flight, hlock]
      | connectFails hstate hgives =>
          refine ⟨before, r, hgives.past.symm ▸ h.past, hgives.wire.symm ▸ h.wire, h.sent, ?_⟩
          exact fun hopen => absurd (hgives.transport_open.symm.trans hopen) (by decide)
      | listens hstate hlistens => exact ⟨before, h.of_listens hlistens⟩
      | givesUp hstate hlistens hgives => exact ⟨before, h.of_givesUp hlistens hgives⟩
      | waits hstate hstate' hopen hpast hwire hevents =>
          exact ⟨before, r, hpast.symm ▸ h.past, hwire.symm ▸ h.wire, h.sent,
            fun hopen' => h.flight (hopen.symm.trans hopen')⟩
      | rests hstate hsame =>
          cases hsame
          exact ⟨before, r, h.past, h.wire, h.sent, h.flight⟩
  | leave htop hrun => exact ⟨before, r, h.past, h.wire, h.sent, h.flight⟩
  | post hpost => exact ⟨before, r, h.past, h.wire, h.sent, h.flight⟩
  | poll answer tick hpolling =>
      refine ⟨before, ?_⟩
      rcases WsClient.taskPoll_cases cfg (hordered.started hpolling) answer tick with
        hsame | hgives
      · rw [hsame]
        exact h.of_listens (.of_eq rfl rfl rfl rfl (.inl rfl))
      · exact h.of_givesUp (WsClient.listens_dispatchEvent (e := .error) trivial) hgives
  | closed hwait => exact ⟨before, r, h.past, h.wire, h.sent, h.flight⟩
  | exit hexit => exact ⟨before, r, h.past, h.wire, h.sent, nofun⟩
  | take hlock hallowed =>
      refine ⟨before, r, h.past, h.wire, h.sent, fun hopen => ⟨none, rfl, ?_⟩⟩
      exact h.current_of_idle (by simp [hlock]) hopen
  | refuse hlock hstate =>
      refine ⟨before, r, h.past, h.wire, h.sent, fun hopen => ⟨none, rfl, ?_⟩⟩
      exact h.current_of_idle (by simp [hlock]) hopen
  | check hlock hstate =>
      refine ⟨before, r, h.past, h.wire, h.sent, fun hopen => ⟨none, ?_, ?_⟩⟩
      · rcases hordered.allowed _ _ hlock with hop | ⟨hop, hlen⟩
        · exact .data hop .start
        · exact .close hop hlen
      · exact h.current_of_idle (by simp [hlock]) hopen
  | write hlock hnext hopen hmore =>
      obtain ⟨cur, hflight, hcur⟩ := h.inFlight hlock hopen
      obtain ⟨r', haccept, ⟨hdone, -⟩ | ⟨-, hmessages, hflight'⟩⟩ := hflight.accept hcur hnext
      · exact absurd hdone hmore
      · refine ⟨before, r', ?_, h.received_sendRaw hopen haccept, ?_, fun _ => hflight'⟩
        · rw [WsClient.sendRaw_past]
          exact h.past
        · rw [hmessages]
          exact h.sent
  | last hlock hnext hopen hdone =>
      obtain ⟨cur, hflight, hcur⟩ := h.inFlight hlock hopen
      obtain ⟨r', haccept, ⟨-, hcurrent, hmessages⟩ | ⟨hmore, -⟩⟩ := hflight.accept hcur hnext
      · refine ⟨before, r', ?_, h.received_sendRaw hopen haccept, ?_,
          fun _ => ⟨none, rfl, hcurrent⟩⟩
        · rw [WsClient.sendRaw_past]
          exact h.past
        · refine (WsSystem.onTime_append _ _).trans ?_
          rw [h.sent, hmessages, WsClient.closeWritten_eq h.wire, List.append_assoc]
      · exact absurd hdone hmore
  | writeFails tick hlock hnext =>
      refine ⟨before, r, ?_, ?_, h.sent, fun hopen => ?_⟩
      · rw [WsClient.fail_past]
        exact h.past
      · rw [WsClient.fail_wire]
        exact h.wire
      · -- the message stays as it is, but so does its connection
        exact absurd ((hordered.transport_fail hlock tick).symm.trans hopen) (by decide)
  | stop => exact ⟨before, r, h.past, h.wire, h.sent, h.flight⟩
  | setClosing => exact ⟨before, r, h.past, h.wire, h.sent, h.flight⟩

theorem WsSystem.Delivers.start (tick : ℕ) : (WsSystem.start tick).Delivers cfg [] .empty where
  past := rfl
  wire := rfl
  sent := rfl
  flight := nofun

/-- Two messages with a close frame between them, and one whose connection is given up by the
task while its caller writes. -/
theorem exists_run_demo : ∃ ls x, Lib.Run (WsStep demoWebsocket) (.start 0) ls x ∧
    x.sent = [⟨(.text, [1, 2, 3, 4, 5]), false⟩, ⟨(.text, [9]), true⟩] ∧
    x.client.wire.length = 5 ∧ x.client.events =
      [.beforeConnect, .connected, .error, .disconnected, .error, .disconnected] := by
  have hconform : (demoAnswers []).Conform := nofun
  have htext : WsCall.Allowed demoWebsocket ⟨.text, [1, 2, 3, 4, 5]⟩ := .inl rfl
  have hclose : WsCall.Allowed demoWebsocket ⟨.close, []⟩ := .inr ⟨rfl, Nat.zero_le _⟩
  have hlate : WsCall.Allowed demoWebsocket ⟨.text, [9]⟩ := .inl rfl
  have hbinary : WsCall.Allowed demoWebsocket ⟨.binary, [6, 7, 8, 9, 10]⟩ := .inl rfl
  have hconnect : (WsSystem.start 0).client.taskSwitch demoWebsocket (demoAnswers []) [] =
      .ok _ := rfl
  have hstart : Lib.Run (WsStep demoWebsocket) (.start 0) [] (.start 0) := .start
  have hentered := hstart.snoc (.enter rfl rfl)
  have hconnected := (hentered.snoc (.switch rfl rfl hconform hconnect)).snoc (.post rfl)
  have hsending := (hconnected.snoc (.take (i := 3) rfl htext)).snoc (.check rfl rfl)
  have hsent := (hsending.snoc (.write rfl rfl rfl (by decide))).snoc (.last rfl rfl rfl rfl)
  have hclosing := (hsent.snoc (.take (i := 4) rfl hclose)).snoc (.check rfl rfl)
  have hbehind := (hclosing.snoc (.last rfl rfl rfl rfl)).snoc (.take (i := 3) rfl hlate)
  have hbehindSent := (hbehind.snoc (.check rfl rfl)).snoc (.last rfl rfl rfl rfl)
  have hagain := (hbehindSent.snoc (.take (i := 4) rfl hbinary)).snoc (.check rfl rfl)
  have hgone := (hagain.snoc (.write rfl rfl rfl (by decide))).snoc (.poll (-1) 0 rfl)
  exact ⟨_, _, hgone.snoc (.writeFails 0 rfl rfl), rfl, rfl, rfl⟩

end Delivers

end AndonConsole
