import AndonConsole.Lib.Except
import AndonConsole.WebsocketSend

/-!
The task of the websocket client.

The body of `esp_websocket_client_task` as functions on the client: the states
of a connection, the PINGs and the deadline for their PONGs, and what is done
with the frames that are read. What the transport answers and the clock shows
are arguments. A frame is written whole or not at all, and to a transport that
is closed nothing is written. A PING that is longer than the buffer is a fault:
the PONG would be read from behind it.
-/

namespace AndonConsole

/-- `websocket_client_state_t`. -/
inductive WsState
  | error
  | unknow
  | init
  | connected
  | waitTimeout
  | closing
  deriving DecidableEq

/-- Not below `WEBSOCKET_STATE_INIT`. -/
def WsState.started : WsState → Bool
  | .error => false
  | .unknow => false
  | _ => true

/-- `esp_websocket_event_id_t`, with the data of the one that has some. -/
inductive WsEvent
  | error
  | connected
  | disconnected
  | data (payload_offset payload_len : ℕ) (fin : Bool) (op_code : Option WsOpcode)
      (bytes : List UInt8)
  | closed
  | beforeConnect

structure WsConfig where
  auto_reconnect : Bool
  wait_timeout_ms : ℕ
  ping_interval_sec : ℕ
  pingpong_timeout_sec : ℕ
  buffer_size : ℕ
  buffer_pos : 0 < buffer_size

/-- The client and its transport: `past` and `wire` is what was written to the connections so
far and to the last one. -/
structure WsClient where
  state : WsState
  run : Bool
  wait_for_pong_resp : Bool
  reconnect_tick_ms : ℕ
  ping_tick_ms : ℕ
  pingpong_tick_ms : ℕ
  read_select : ℤ
  close_frame_sent : Bool
  transport_open : Bool
  past : List (List WsFrame)
  wire : List WsFrame
  events : List WsEvent

inductive WsFault
  | overRead
  | pending
  deriving DecidableEq

/-- An answer of `esp_transport_read`, and what the transport then says of the frame. -/
inductive WsRead
  | failed
  | read (bytes : List UInt8) (payload_len : ℕ) (fin : Bool) (opcode : Option WsOpcode)

/-- What the transport answers and the clock shows during one turn of the task. -/
structure WsAnswers where
  connect : Bool
  write : Bool
  pong : Bool
  reads : List WsRead
  tick : ℕ → ℕ

namespace WsClient

/-- `esp_websocket_client_dispatch_event`; the handler of the console writes a log. -/
def dispatchEvent (w : WsClient) (e : WsEvent) : WsClient := { w with events := w.events ++ [e] }

def sendRaw (w : WsClient) (ok : Bool) (f : WsFrame) : WsClient :=
  if w.transport_open && ok then { w with wire := w.wire ++ [f] } else w

section SendRaw

variable (w : WsClient) (ok : Bool) (f : WsFrame)

@[simp] theorem sendRaw_state : (w.sendRaw ok f).state = w.state := by
  rw [sendRaw]
  split_ifs <;> rfl

@[simp] theorem sendRaw_transport_open :
    (w.sendRaw ok f).transport_open = w.transport_open := by
  rw [sendRaw]
  split_ifs <;> rfl

@[simp] theorem sendRaw_past : (w.sendRaw ok f).past = w.past := by
  rw [sendRaw]
  split_ifs <;> rfl

@[simp] theorem sendRaw_events : (w.sendRaw ok f).events = w.events := by
  rw [sendRaw]
  split_ifs <;> rfl

theorem sendRaw_wire (h : w.transport_open = true) :
    (w.sendRaw true f).wire = w.wire ++ [f] := by
  rw [sendRaw, h]
  rfl

end SendRaw

/-- `esp_websocket_client_abort_connection`, behind the event of the error. -/
def abortConnection (cfg : WsConfig) (tick : ℕ) (w : WsClient) : WsClient :=
  if w.state.started then
    dispatchEvent { w with
      transport_open := false
      reconnect_tick_ms := if cfg.auto_reconnect then tick else w.reconnect_tick_ms
      state := .waitTimeout } .disconnected
  else w

/-- `esp_websocket_client_error`, and then the connection is given up. -/
def fail (cfg : WsConfig) (tick : ℕ) (w : WsClient) : WsClient :=
  (w.dispatchEvent .error).abortConnection cfg tick

@[simp] theorem fail_past (cfg : WsConfig) (tick : ℕ) (w : WsClient) :
    (w.fail cfg tick).past = w.past := by
  rw [fail, abortConnection]
  split_ifs <;> rfl

@[simp] theorem fail_wire (cfg : WsConfig) (tick : ℕ) (w : WsClient) :
    (w.fail cfg tick).wire = w.wire := by
  rw [fail, abortConnection]
  split_ifs <;> rfl

inductive RecvEnd
  | failed
  | timeout
  | frame (payload_len : ℕ) (opcode : Option WsOpcode) (rx_buffer : List UInt8)

/-- The loop of `esp_websocket_client_recv`, which reads a frame piece by piece, each to the
front of the buffer. -/
def recvLoop : List WsRead → ℕ → List UInt8 → WsClient → Except WsFault (RecvEnd × WsClient)
  | [], _, _, _ => .error .pending
  | .failed :: _, _, _, w => .ok (.failed, w.dispatchEvent .error)
  | .read bytes payload_len fin opcode :: reads, offset, rx_buffer, w =>
      if bytes = [] ∧ opcode = none then .ok (.timeout, w)
      else
        let rx_buffer := bytes ++ rx_buffer.drop bytes.length
        let w := w.dispatchEvent (.data offset payload_len fin opcode bytes)
        let offset := offset + bytes.length
        if offset < payload_len then recvLoop reads offset rx_buffer w
        else .ok (.frame payload_len opcode rx_buffer, w)

/-- What `esp_websocket_client_recv` does behind its loop; `true` is `ESP_OK`. -/
def recvEnd (cfg : WsConfig) (a : WsAnswers) : RecvEnd → WsClient → Except WsFault (Bool × WsClient)
  | .failed, w => .ok (false, w)
  | .timeout, w => .ok (true, w)
  | .frame payload_len opcode rx_buffer, w =>
      if opcode = some .ping then
        if payload_len > cfg.buffer_size then .error .overRead
        else .ok (true, w.sendRaw a.pong ⟨⟨.pong, true⟩, rx_buffer.take payload_len⟩)
      else if opcode = some .pong then .ok (true, { w with wait_for_pong_resp := false })
      else if opcode = some .close then .ok (true, { w with state := .closing })
      else .ok (true, w)

def recv (cfg : WsConfig) (a : WsAnswers) (rx_buffer : List UInt8) (w : WsClient) :
    Except WsFault (Bool × WsClient) := do
  let (result, w) ← recvLoop a.reads 0 rx_buffer w
  recvEnd cfg a result w

/-- `case WEBSOCKET_STATE_INIT`. -/
def taskInit (cfg : WsConfig) (a : WsAnswers) (w : WsClient) : WsClient :=
  let w := w.dispatchEvent .beforeConnect
  if a.connect then
    let w := { w with transport_open := true, past := w.past ++ [w.wire], wire := [] }
    dispatchEvent { w with state := .connected, wait_for_pong_resp := false } .connected
  else w.fail cfg (a.tick 0)

/-- The PING that is due, as long as no close frame was sent. -/
def sendPing (cfg : WsConfig) (a : WsAnswers) (w : WsClient) : WsClient :=
  if a.tick 0 - w.ping_tick_ms > cfg.ping_interval_sec * 1000 then
    let w := { w with ping_tick_ms := a.tick 1 }
    let w := w.sendRaw a.write ⟨⟨.ping, true⟩, []⟩
    if !w.wait_for_pong_resp && cfg.pingpong_timeout_sec ≠ 0 then
      { w with pingpong_tick_ms := a.tick 2, wait_for_pong_resp := true }
    else w
  else w

def pongTimeout (cfg : WsConfig) (a : WsAnswers) (w : WsClient) : Bool :=
  a.tick 3 - w.pingpong_tick_ms > cfg.pingpong_timeout_sec * 1000 && w.wait_for_pong_resp

/-- The rest of `case WEBSOCKET_STATE_CONNECTED`: a frame is read if there is something to
read. -/
def taskRead (cfg : WsConfig) (a : WsAnswers) (rx_buffer : List UInt8) (w : WsClient) :
    Except WsFault WsClient :=
  if w.read_select = 0 then .ok w
  else do
    let (ok, w) ← recv cfg a rx_buffer { w with ping_tick_ms := a.tick 4 }
    return if ok then w else w.abortConnection cfg (a.tick 5)

/-- `case WEBSOCKET_STATE_CONNECTED`. -/
def taskConnected (cfg : WsConfig) (a : WsAnswers) (rx_buffer : List UInt8) (w : WsClient) :
    Except WsFault WsClient :=
  if w.close_frame_sent then taskRead cfg a rx_buffer w
  else
    let w := sendPing cfg a w
    if pongTimeout cfg a w then .ok (w.fail cfg (a.tick 5)) else taskRead cfg a rx_buffer w

/-- `case WEBSOCKET_STATE_WAIT_TIMEOUT`. -/
def taskWaitTimeout (cfg : WsConfig) (a : WsAnswers) (w : WsClient) : WsClient :=
  if !cfg.auto_reconnect then { w with run := false }
  else if a.tick 0 - w.reconnect_tick_ms > cfg.wait_timeout_ms then
    { w with state := .init, reconnect_tick_ms := a.tick 1 }
  else w

/-- `case WEBSOCKET_STATE_CLOSING`. -/
def taskClosing (a : WsAnswers) (w : WsClient) : WsClient :=
  if w.close_frame_sent then w
  else { w.sendRaw a.write ⟨⟨.close, true⟩, []⟩ with close_frame_sent := true }

def taskSwitch (cfg : WsConfig) (a : WsAnswers) (rx_buffer : List UInt8) (w : WsClient) :
    Except WsFault WsClient :=
  match w.state with
  | .init => .ok (taskInit cfg a w)
  | .connected => taskConnected cfg a rx_buffer w
  | .waitTimeout => .ok (taskWaitTimeout cfg a w)
  | .closing => .ok (taskClosing a w)
  | _ => .ok w

def taskPoll (cfg : WsConfig) (answer : ℤ) (tick : ℕ) (w : WsClient) : WsClient :=
  let w := { w with read_select := answer }
  if answer < 0 then w.fail cfg tick else w

/-- The end of a connection that was closed by both sides. -/
def taskClosed (w : WsClient) : WsClient :=
  dispatchEvent { w with run := false, state := .unknow } .closed

/-- Behind the loop. -/
def taskExit (w : WsClient) : WsClient := { w with transport_open := false, state := .unknow }

end WsClient

/-! ### What a turn of the task does -/

/-- Frames that may stand between the frames of a message. -/
def WsFrame.IsControl (f : WsFrame) : Prop :=
  ∃ kind, f.toFrame = ⟨.control kind, true, f.payload⟩ ∧ f.payload.length ≤ 125

/-- The events of a connection that lasts. -/
def WsEvent.Passing : WsEvent → Prop
  | .error => True
  | .data .. => True
  | _ => False

/-- A server that keeps to the protocol: its PINGs have at most 125 bytes. -/
def WsAnswers.Conform (a : WsAnswers) : Prop :=
  ∀ bytes payload_len fin, .read bytes payload_len fin (some .ping) ∈ a.reads → payload_len ≤ 125

namespace WsClient

/-- What the task does to a connection it keeps: control frames are written, what is read is
handed on, and it may turn out that the connection is to be closed. -/
structure Listens (w w' : WsClient) : Prop where
  transport_open : w'.transport_open = w.transport_open
  past : w'.past = w.past
  wire : ∃ fs : List WsFrame, w'.wire = w.wire ++ fs ∧ ∀ f ∈ fs, f.IsControl
  events : ∃ es : List WsEvent, w'.events = w.events ++ es ∧ ∀ e ∈ es, e.Passing
  state : w'.state = w.state ∨ w'.state = .closing

section Turns

variable {cfg : WsConfig} {a : WsAnswers} {rx_buffer : List UInt8} {w w' w'' : WsClient}

theorem Listens.of_eq (htransport : w'.transport_open = w.transport_open)
    (hpast : w'.past = w.past) (hwire : w'.wire = w.wire) (hevents : w'.events = w.events)
    (hstate : w'.state = w.state ∨ w'.state = .closing) : w.Listens w' where
  transport_open := htransport
  past := hpast
  wire := ⟨[], by rw [hwire, List.append_nil], by simp⟩
  events := ⟨[], by rw [hevents, List.append_nil], by simp⟩
  state := hstate

theorem Listens.refl (w : WsClient) : w.Listens w := .of_eq rfl rfl rfl rfl (.inl rfl)

theorem Listens.trans (h : w.Listens w') (h' : w'.Listens w'') : w.Listens w'' where
  transport_open := h'.transport_open.trans h.transport_open
  past := h'.past.trans h.past
  wire := by
    obtain ⟨fs, hwire, hfs⟩ := h.wire
    obtain ⟨fs', hwire', hfs'⟩ := h'.wire
    refine ⟨fs ++ fs', by rw [hwire', hwire, List.append_assoc], fun f hf => ?_⟩
    exact (List.mem_append.mp hf).elim (hfs f) (hfs' f)
  events := by
    obtain ⟨es, hevents, hes⟩ := h.events
    obtain ⟨es', hevents', hes'⟩ := h'.events
    refine ⟨es ++ es', by rw [hevents', hevents, List.append_assoc], fun e he => ?_⟩
    exact (List.mem_append.mp he).elim (hes e) (hes' e)
  state := by
    rcases h'.state with hsame | hclosing
    · rw [hsame]
      exact h.state
    · exact .inr hclosing

theorem listens_dispatchEvent {e : WsEvent} (he : e.Passing) : w.Listens (w.dispatchEvent e) :=
  { Listens.refl w with events := ⟨[e], rfl, by simpa using he⟩ }

theorem listens_sendRaw {f : WsFrame} (hf : f.IsControl) (ok : Bool) :
    w.Listens (w.sendRaw ok f) := by
  rw [sendRaw]
  split_ifs
  · exact { Listens.refl w with wire := ⟨[f], rfl, by simpa using hf⟩ }
  · exact .refl _

theorem isControl_empty {op kind : WsOpcode} (hop : op.kind = .control kind) :
    WsFrame.IsControl ⟨⟨op, true⟩, []⟩ :=
  ⟨kind, by rw [WsFrame.toFrame, hop], Nat.zero_le _⟩

/-- The pieces of a frame are handed on, and a PING is one of those that were read. -/
theorem listens_recvLoop {reads : List WsRead} {offset : ℕ} {result : RecvEnd}
    (h : recvLoop reads offset rx_buffer w = .ok (result, w')) :
    w.Listens w' ∧ ∀ payload_len rx_buffer', result = .frame payload_len (some .ping) rx_buffer' →
      ∃ bytes fin, .read bytes payload_len fin (some .ping) ∈ reads := by
  induction reads generalizing offset rx_buffer w with
  | nil => cases h
  | cons r reads ih =>
      cases r with
      | failed =>
          cases h
          exact ⟨listens_dispatchEvent (e := .error) trivial, fun _ _ hping => by cases hping⟩
      | read bytes payload_len fin opcode =>
          rw [recvLoop] at h
          dsimp only at h
          have hdata : w.Listens (w.dispatchEvent (.data offset payload_len fin opcode bytes)) :=
            listens_dispatchEvent trivial
          split_ifs at h with htimeout hmore
          · cases h
            exact ⟨.refl _, fun _ _ hping => by cases hping⟩
          · obtain ⟨hlistens, hping⟩ := ih h
            refine ⟨hdata.trans hlistens, fun n rx hresult => ?_⟩
            obtain ⟨bytes, fin, hmem⟩ := hping n rx hresult
            exact ⟨bytes, fin, List.mem_cons_of_mem _ hmem⟩
          · cases h
            refine ⟨hdata, fun n rx hresult => ?_⟩
            cases hresult
            exact ⟨bytes, fin, List.mem_cons_self⟩

theorem listens_recvEnd {result : RecvEnd} {ok : Bool}
    (hping : ∀ payload_len rx_buffer', result = .frame payload_len (some .ping) rx_buffer' →
      payload_len ≤ 125)
    (h : recvEnd cfg a result w = .ok (ok, w')) : w.Listens w' := by
  cases result with
  | failed =>
      cases h
      exact .refl _
  | timeout =>
      cases h
      exact .refl _
  | frame payload_len opcode rx_buffer =>
      rw [recvEnd] at h
      split_ifs at h with hopcode hlong hpong hclose
      · cases h
        subst hopcode
        have hlen := hping payload_len rx_buffer rfl
        exact listens_sendRaw ⟨.pong, rfl, (List.length_take_le _ _).trans hlen⟩ a.pong
      · cases h
        exact .of_eq rfl rfl rfl rfl (.inl rfl)
      · cases h
        exact .of_eq rfl rfl rfl rfl (.inr rfl)
      · cases h
        exact .refl _

theorem listens_recv {ok : Bool} (hconform : a.Conform)
    (h : recv cfg a rx_buffer w = .ok (ok, w')) : w.Listens w' := by
  obtain ⟨⟨result, w₁⟩, hloop, hend⟩ := Lib.bind_eq_ok.mp h
  obtain ⟨hlistens, hping⟩ := listens_recvLoop hloop
  refine hlistens.trans (listens_recvEnd (fun payload_len rx hresult => ?_) hend)
  obtain ⟨bytes, fin, hmem⟩ := hping payload_len rx hresult
  exact hconform bytes payload_len fin hmem

theorem listens_sendPing : w.Listens (sendPing cfg a w) := by
  have hping : WsFrame.IsControl ⟨⟨.ping, true⟩, []⟩ := isControl_empty rfl
  unfold sendPing
  split_ifs with hdue
  · have htick : w.Listens { w with ping_tick_ms := a.tick 1 } := .of_eq rfl rfl rfl rfl (.inl rfl)
    have hsend := htick.trans (listens_sendRaw hping a.write)
    dsimp only
    split_ifs
    · exact hsend.trans (.of_eq rfl rfl rfl rfl (.inl rfl))
    · exact hsend
  · exact .refl w

/-- The end of a connection: nothing more is written to it. -/
structure GivesUp (w w' : WsClient) : Prop where
  state : w'.state = .waitTimeout
  transport_open : w'.transport_open = false
  past : w'.past = w.past
  wire : w'.wire = w.wire
  events : w'.events = w.events ++ [.disconnected]

theorem givesUp_abortConnection (cfg : WsConfig) (h : w.state.started = true) (tick : ℕ) :
    w.GivesUp (w.abortConnection cfg tick) := by
  rw [abortConnection, if_pos h]
  exact ⟨rfl, rfl, rfl, rfl, rfl⟩

theorem givesUp_fail (cfg : WsConfig) (h : w.state.started = true) (tick : ℕ) :
    (w.dispatchEvent .error).GivesUp (w.fail cfg tick) := by
  have hstate : (w.dispatchEvent .error).state.started = true := h
  exact givesUp_abortConnection cfg hstate tick

theorem fail_of_not_started (h : w.state.started = false) (tick : ℕ) :
    w.fail cfg tick = w.dispatchEvent .error :=
  if_neg (ne_true_of_eq_false h)

theorem Listens.started (h : w.Listens w') (hstate : w.state = .connected) :
    w'.state.started = true := by
  rcases h.state with hsame | hclosing
  · rw [hsame, hstate]
    rfl
  · rw [hclosing]
    rfl

/-- The turns of the task under the lock. -/
inductive Turn (w w' : WsClient) : Prop
  | connects : w.state = .init → w'.state = .connected → w'.past = w.past ++ [w.wire] →
      w'.wire = [] → w'.events = w.events ++ [.beforeConnect, .connected] → Turn w w'
  | connectFails : w.state = .init →
      ((w.dispatchEvent .beforeConnect).dispatchEvent .error).GivesUp w' → Turn w w'
  | listens : w.state = .connected ∨ w.state = .closing → w.Listens w' → Turn w w'
  | givesUp {w₁ : WsClient} : w.state = .connected → w.Listens w₁ → w₁.GivesUp w' → Turn w w'
  | waits : w.state = .waitTimeout → w'.state = .waitTimeout ∨ w'.state = .init →
      w'.transport_open = w.transport_open → w'.past = w.past → w'.wire = w.wire →
      w'.events = w.events → Turn w w'
  | rests : w.state.started = false → w' = w → Turn w w'

theorem turn_taskRead (hstate : w.state = .connected) (hlistens : w.Listens w')
    (hconform : a.Conform) (h : taskRead cfg a rx_buffer w' = .ok w'') : w.Turn w'' := by
  unfold taskRead at h
  split_ifs at h with hread
  · cases h
    exact .listens (.inl hstate) hlistens
  · obtain ⟨⟨ok, w₁⟩, hrecv, hend⟩ := Lib.bind_eq_ok.mp h
    have htick : w'.Listens { w' with ping_tick_ms := a.tick 4 } :=
      .of_eq rfl rfl rfl rfl (.inl rfl)
    have hw₁ : w.Listens w₁ := (hlistens.trans htick).trans (listens_recv hconform hrecv)
    cases ok with
    | true =>
        cases hend
        exact .listens (.inl hstate) hw₁
    | false =>
        cases hend
        exact .givesUp hstate hw₁ (givesUp_abortConnection cfg (hw₁.started hstate) (a.tick 5))

theorem turn_taskConnected (hstate : w.state = .connected) (hconform : a.Conform)
    (h : taskConnected cfg a rx_buffer w = .ok w') : w.Turn w' := by
  unfold taskConnected at h
  dsimp only at h
  have hping : w.Listens (sendPing cfg a w) := listens_sendPing
  split_ifs at h with hclose htimeout
  · exact turn_taskRead hstate (.refl w) hconform h
  · cases h
    exact .givesUp hstate (hping.trans (listens_dispatchEvent (e := .error) trivial))
      (givesUp_fail cfg (hping.started hstate) (a.tick 5))
  · exact turn_taskRead hstate hping hconform h

theorem turn_taskInit (hstate : w.state = .init) : w.Turn (taskInit cfg a w) := by
  unfold taskInit
  dsimp only
  split_ifs with hconnect
  · exact .connects hstate rfl rfl rfl (List.append_assoc _ _ _)
  · refine .connectFails hstate (givesUp_fail cfg ?_ (a.tick 0))
    rw [dispatchEvent, hstate]
    rfl

theorem turn_taskWaitTimeout (hstate : w.state = .waitTimeout) :
    w.Turn (taskWaitTimeout cfg a w) := by
  unfold taskWaitTimeout
  split_ifs with hstop hdue
  · exact .waits hstate (.inl hstate) rfl rfl rfl rfl
  · exact .waits hstate (.inr rfl) rfl rfl rfl rfl
  · exact .waits hstate (.inl hstate) rfl rfl rfl rfl

theorem turn_taskClosing (hstate : w.state = .closing) : w.Turn (taskClosing a w) := by
  unfold taskClosing
  split_ifs with hsent
  · exact .listens (.inr hstate) (.refl w)
  · have hclose : WsFrame.IsControl ⟨⟨.close, true⟩, []⟩ := isControl_empty rfl
    exact .listens (.inr hstate)
      ((listens_sendRaw hclose a.write).trans (.of_eq rfl rfl rfl rfl (.inl rfl)))

theorem turn_taskSwitch (hconform : a.Conform) (h : taskSwitch cfg a rx_buffer w = .ok w') :
    w.Turn w' := by
  unfold taskSwitch at h
  cases hstate : w.state with
  | error =>
      rw [hstate] at h
      cases h
      exact .rests (by rw [hstate]; rfl) rfl
  | unknow =>
      rw [hstate] at h
      cases h
      exact .rests (by rw [hstate]; rfl) rfl
  | init =>
      rw [hstate] at h
      cases h
      exact turn_taskInit hstate
  | connected =>
      rw [hstate] at h
      exact turn_taskConnected hstate hconform h
  | waitTimeout =>
      rw [hstate] at h
      cases h
      exact turn_taskWaitTimeout hstate
  | closing =>
      rw [hstate] at h
      cases h
      exact turn_taskClosing hstate

/-- The poll of a connection that may have been given up meanwhile. -/
theorem taskPoll_cases (cfg : WsConfig) (hstate : w.state.started = true) (answer : ℤ)
    (tick : ℕ) :
    w.taskPoll cfg answer tick = { w with read_select := answer } ∨
      (w.dispatchEvent .error).GivesUp (w.taskPoll cfg answer tick) := by
  unfold taskPoll
  dsimp only
  split_ifs with hneg
  · obtain ⟨hwait, hopen, hpast, hwire, hevents⟩ :=
      givesUp_fail (w := { w with read_select := answer }) cfg hstate tick
    exact .inr ⟨hwait, hopen, hpast, hwire, hevents⟩
  · exact .inl rfl

end Turns

end WsClient

/-- A client with a buffer of four bytes that connects again. -/
def demoWebsocket : WsConfig := ⟨true, 10000, 10, 120, 4, by decide⟩

/-- A transport that does what it is asked, at once. -/
def demoAnswers (reads : List WsRead) : WsAnswers := ⟨true, true, true, reads, fun _ => 0⟩

end AndonConsole
