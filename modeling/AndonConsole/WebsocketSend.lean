import AndonConsole.Lib.Messages
import Mathlib.Algebra.Order.BigOperators.Group.List
import Mathlib.Algebra.Order.Ring.Int
import Mathlib.Algebra.Order.Ring.Nat
import Mathlib.Algebra.BigOperators.Ring.Finset

/-!
Messages of the websocket client.

`esp_websocket_client_send_with_exact_opcode` cuts a message into pieces of the
size of its buffer and writes each as a frame, the last one marked as such. How
much of a frame the transport has written is an argument; the loop goes on
behind it in a new frame. The frames are one message with the data exactly if
every frame was written whole.
-/

namespace AndonConsole

/-- `ws_transport_opcodes_t` without its flag. -/
inductive WsOpcode
  | cont
  | text
  | binary
  | close
  | ping
  | pong
  deriving DecidableEq

/-- An opcode with `WS_TRANSPORT_OPCODES_FIN`; as a number it is 0 if it is a continuation
without the flag. -/
structure Opcode where
  op : WsOpcode
  fin : Bool
  deriving DecidableEq

def Opcode.zero : Opcode := ⟨.cont, false⟩

/-- A call of `esp_transport_ws_send_raw`. -/
structure WsFrame where
  opcode : Opcode
  payload : List UInt8
  deriving DecidableEq

def WsOpcode.kind : WsOpcode → Lib.FrameKind WsOpcode WsOpcode
  | .cont => .more
  | .text => .first .text
  | .binary => .first .binary
  | .close => .control .close
  | .ping => .control .ping
  | .pong => .control .pong

def WsFrame.toFrame (f : WsFrame) : Lib.Frame WsOpcode WsOpcode UInt8 :=
  ⟨f.opcode.op.kind, f.opcode.fin, f.payload⟩

abbrev WsReceiver := Lib.Receiver WsOpcode WsOpcode UInt8

/-- Control frames have at most 125 bytes, and what comes behind a close frame is discarded. -/
def controlRules : Lib.ControlRules WsOpcode where
  limit := 125
  closes kind := kind = .close

def received (wire : List WsFrame) : Option WsReceiver :=
  Lib.receive controlRules (wire.map WsFrame.toFrame)

/-- The locals of the loop: `rest` is the data from `widx` on. -/
structure Sending where
  contained_fin : Bool
  opcode : Opcode
  rest : List UInt8

namespace Sending

def start (opcode : Opcode) (data : List UInt8) : Sending := ⟨opcode.fin, opcode, data⟩

/-- The frame of the next turn, if there is one. A message may be empty, but then its opcode
is still to be sent. -/
def next (buffer_size : ℕ) (s : Sending) : Option WsFrame :=
  if s.rest = [] ∧ s.opcode = .zero then none
  else if s.rest.length > buffer_size then
    some ⟨{ s.opcode with fin := false }, s.rest.take buffer_size⟩
  else if s.contained_fin then some ⟨{ s.opcode with fin := true }, s.rest⟩
  else some ⟨s.opcode, s.rest⟩

def advance (s : Sending) (wlen : ℕ) : Sending :=
  { s with opcode := .zero, rest := s.rest.drop wlen }

end Sending

/-- The loop of `esp_websocket_client_send_with_exact_opcode` on the answers of
`esp_transport_ws_send_raw`: what it returns, and its writes with their answers. -/
def sendLoop (buffer_size : ℕ) : List ℤ → Sending → ℤ → Option (ℤ × List (WsFrame × ℤ))
  | answers, s, widx =>
      match s.next buffer_size with
      | none => some (widx, [])
      | some f =>
          match answers with
          | [] => none
          | wlen :: answers =>
              if wlen < 0 ∨ (wlen = 0 ∧ f.payload ≠ []) then some (wlen, [(f, wlen)])
              else
                (sendLoop buffer_size answers (s.advance wlen.toNat) (widx + wlen)).map
                  fun r => (r.1, (f, wlen) :: r.2)

def WsOpcode.IsData (op : WsOpcode) : Prop := op.kind = .first op

/-- A send that is under way: nothing has been written, or the first part of the data. -/
inductive Midway (op : WsOpcode) (data : List UInt8) :
    Sending → Option (WsOpcode × List UInt8) → Prop
  | start : Midway op data (.start ⟨op, true⟩ data) none
  | rest {sent rest : List UInt8} :
      sent ++ rest = data → rest ≠ [] → Midway op data ⟨true, .zero, rest⟩ (some (op, sent))

section Midway

variable {op : WsOpcode} {data : List UInt8} {s : Sending} {cur : Option (WsOpcode × List UInt8)}
  {buffer_size : ℕ} {r : WsReceiver}

theorem WsOpcode.IsData.ne_zero (hop : op.IsData) (fin : Bool) : (⟨op, fin⟩ : Opcode) ≠ .zero := by
  rintro heq
  obtain rfl : op = .cont := congrArg Opcode.op heq
  cases hop

/-- The turn of a send that is under way: the message is complete with it, or goes on. -/
theorem Midway.next (hop : op.IsData) (hopen : r.closed controlRules = false)
    (h : Midway op data s r.current) :
    ∃ f, s.next buffer_size = some f ∧
      (s.rest.length ≤ buffer_size ∧ f.payload = s.rest ∧ r.accept controlRules f.toFrame =
          some { r with current := none, messages := r.messages ++ [(op, data)] } ∨
        buffer_size < s.rest.length ∧ f.payload = s.rest.take buffer_size ∧ ∃ sent,
          r.accept controlRules f.toFrame = some { r with current := some (op, sent) } ∧
            Midway op data (s.advance buffer_size) (some (op, sent))) := by
  have hdrop {rest : List UInt8} (hlong : buffer_size < rest.length) :
      rest.drop buffer_size ≠ [] := by
    rw [ne_eq, List.drop_eq_nil_iff]
    omega
  generalize hcur : r.current = cur at h
  cases h with
  | start =>
      have hzero : ¬ (data = [] ∧ (⟨op, true⟩ : Opcode) = .zero) := fun h => hop.ne_zero true h.2
      by_cases hlong : buffer_size < data.length
      · refine ⟨⟨⟨op, false⟩, data.take buffer_size⟩, ?_, .inr ⟨hlong, rfl, _, ?_,
          .rest (List.take_append_drop buffer_size data) (hdrop hlong)⟩⟩
        · rw [Sending.next, Sending.start, if_neg hzero, if_pos hlong]
        · rw [WsFrame.toFrame, hop, Lib.Receiver.accept_first hopen hcur]
          rfl
      · refine ⟨⟨⟨op, true⟩, data⟩, ?_, .inl ⟨Nat.le_of_not_lt hlong, rfl, ?_⟩⟩
        · rw [Sending.next, Sending.start, if_neg hzero, if_neg hlong]
          rfl
        · rw [WsFrame.toFrame, hop, Lib.Receiver.accept_first hopen hcur]
          rfl
  | @rest sent rest hdata hrest =>
      have hnil : ¬ (rest = [] ∧ Opcode.zero = .zero) := fun h => hrest h.1
      by_cases hlong : buffer_size < rest.length
      · refine ⟨⟨.zero, rest.take buffer_size⟩, ?_, .inr ⟨hlong, rfl, sent ++ rest.take buffer_size,
          ?_, .rest ?_ (hdrop hlong)⟩⟩
        · rw [Sending.next, if_neg hnil, if_pos hlong]
          rfl
        · exact Lib.Receiver.accept_more hopen hcur
        · rw [List.append_assoc, List.take_append_drop, hdata]
      · refine ⟨⟨⟨.cont, true⟩, rest⟩, ?_, .inl ⟨Nat.le_of_not_lt hlong, rfl, ?_⟩⟩
        · rw [Sending.next, if_neg hnil, if_neg hlong]
          rfl
        · rw [← hdata]
          exact Lib.Receiver.accept_more hopen hcur

end Midway

/-! ### The whole loop -/

section Loop

variable {op : WsOpcode} {data : List UInt8} {s : Sending} {buffer_size : ℕ} {r : WsReceiver}
  {answers : List ℤ} {widx ret : ℤ} {writes : List (WsFrame × ℤ)}

theorem Sending.next_payload {f : WsFrame} (h : s.next buffer_size = some f) :
    f.payload = s.rest.take buffer_size := by
  unfold Sending.next at h
  split_ifs at h with hdone hlong hfin
  · cases h
    rfl
  · cases h
    exact (List.take_of_length_le (Nat.le_of_not_lt hlong)).symm
  · cases h
    exact (List.take_of_length_le (Nat.le_of_not_lt hlong)).symm

theorem Sending.next_advance {wlen : ℕ} (h : s.rest.drop wlen = []) :
    (s.advance wlen).next buffer_size = none :=
  if_pos ⟨h, rfl⟩

theorem sendLoop_of_next_eq_none (h : s.next buffer_size = none) :
    sendLoop buffer_size answers s widx = some (widx, []) := by
  unfold sendLoop
  rw [h]

theorem sendLoop_cases (h : sendLoop buffer_size answers s widx = some (ret, writes)) :
    (s.next buffer_size = none ∧ ret = widx ∧ writes = []) ∨
      ∃ f wlen answers', s.next buffer_size = some f ∧ answers = wlen :: answers' ∧
        ((wlen < 0 ∨ (wlen = 0 ∧ f.payload ≠ [])) ∧ ret = wlen ∧ writes = [(f, wlen)] ∨
          0 ≤ wlen ∧ ∃ writes', writes = (f, wlen) :: writes' ∧
            sendLoop buffer_size answers' (s.advance wlen.toNat) (widx + wlen) =
              some (ret, writes')) := by
  unfold sendLoop at h
  cases hnext : s.next buffer_size with
  | none =>
      rw [hnext] at h
      cases h
      exact .inl ⟨rfl, rfl, rfl⟩
  | some f =>
      rw [hnext] at h
      cases answers with
      | nil => cases h
      | cons wlen answers =>
          refine .inr ⟨f, wlen, answers, rfl, rfl, ?_⟩
          dsimp only at h
          split_ifs at h with hfails
          · cases h
            exact .inl ⟨hfails, rfl, rfl⟩
          · rw [Option.map_eq_some_iff] at h
            obtain ⟨⟨ret', writes'⟩, hrest, heq⟩ := h
            cases heq
            exact .inr ⟨by omega, writes', rfl, hrest⟩

/-- Every byte that is left takes at most one more answer. -/
theorem exists_sendLoop (hpos : 0 < buffer_size) (hlen : s.rest.length < answers.length) :
    ∃ ret writes, sendLoop buffer_size answers s widx = some (ret, writes) := by
  induction answers generalizing s widx with
  | nil => simp at hlen
  | cons wlen answers ih =>
      rw [sendLoop]
      cases hnext : s.next buffer_size with
      | none => exact ⟨widx, [], rfl⟩
      | some f =>
          dsimp only
          split_ifs with hfails
          · exact ⟨wlen, [(f, wlen)], rfl⟩
          · have hpayload := Sending.next_payload hnext
            by_cases hnil : s.rest = []
            · rw [sendLoop_of_next_eq_none (Sending.next_advance (by rw [hnil, List.drop_nil]))]
              exact ⟨_, _, rfl⟩
            · -- something was written
              have hwlen : 1 ≤ wlen := by
                by_contra hzero
                refine hfails (.inr ⟨by omega, ?_⟩)
                rw [hpayload, ne_eq, List.take_eq_nil_iff]
                exact not_or.mpr ⟨by omega, hnil⟩
              have hlt : (s.advance wlen.toNat).rest.length < answers.length := by
                have hrest := List.length_pos_of_ne_nil hnil
                rw [List.length_cons] at hlen
                rw [Sending.advance, List.length_drop]
                omega
              obtain ⟨ret, writes, hloop⟩ : ∃ ret writes, sendLoop buffer_size answers
                  (s.advance wlen.toNat) (widx + wlen) = some (ret, writes) := ih hlt
              rw [hloop]
              exact ⟨_, _, rfl⟩

theorem sendLoop_ret (h : sendLoop buffer_size answers s widx = some (ret, writes)) :
    ret = widx + (writes.map Prod.snd).sum ∨
      ∃ w ∈ writes, w.2 = ret ∧ (ret < 0 ∨ (ret = 0 ∧ w.1.payload ≠ [])) := by
  induction answers generalizing s widx writes with
  | nil =>
      rcases sendLoop_cases h with ⟨-, rfl, rfl⟩ | ⟨f, wlen, answers', -, hnil, -⟩
      · exact .inl (by simp)
      · cases hnil
  | cons wlen answers ih =>
      rcases sendLoop_cases h with ⟨-, rfl, rfl⟩ | ⟨f, _, _, -, hcons, hturn⟩
      · exact .inl (by simp)
      obtain ⟨rfl, rfl⟩ := List.cons.inj hcons
      rcases hturn with ⟨hfails, rfl, rfl⟩ | ⟨-, writes', rfl, hrest⟩
      · exact .inr ⟨_, List.mem_singleton_self _, rfl, hfails⟩
      · rcases ih hrest with hsum | ⟨w, hw, hfails⟩
        · rw [List.map_cons, List.sum_cons]
          exact .inl (by omega)
        · exact .inr ⟨w, List.mem_cons_of_mem _ hw, hfails⟩

theorem sendLoop_of_whole (hop : op.IsData) (hopen : r.closed controlRules = false)
    (hs : Midway op data s r.current)
    (h : sendLoop buffer_size answers s widx = some (ret, writes))
    (hwhole : ∀ w ∈ writes, w.2 = w.1.payload.length) :
    (writes.map fun w => w.1.toFrame).foldlM (Lib.Receiver.accept controlRules) r =
        some { r with current := none, messages := r.messages ++ [(op, data)] } ∧
      ret = widx + s.rest.length := by
  induction answers generalizing s widx writes r with
  | nil =>
      obtain ⟨f, hnext, -⟩ := hs.next hop hopen
      rcases sendLoop_cases h with ⟨hdone, -⟩ | ⟨_, _, _, -, hcons, -⟩
      · exact absurd (hnext.symm.trans hdone) (by simp)
      · cases hcons
  | cons wlen answers ih =>
      obtain ⟨f, hnext, hturn⟩ := hs.next hop hopen
      rcases sendLoop_cases h with ⟨hdone, -⟩ | ⟨f', _, _, hnext', hcons, hwrite⟩
      · exact absurd (hnext.symm.trans hdone) (by simp)
      obtain rfl : f = f' := Option.some.inj (hnext.symm.trans hnext')
      obtain ⟨rfl, rfl⟩ := List.cons.inj hcons
      rcases hwrite with ⟨hfails, -, rfl⟩ | ⟨-, writes', rfl, hrest⟩
      · have hwlen := hwhole _ (List.mem_singleton_self _)
        dsimp only at hwlen
        rcases hfails with hneg | ⟨hzero, hne⟩
        · omega
        · exact absurd (List.length_eq_zero_iff.mp (by omega)) hne
      have hwlen : wlen = f.payload.length := hwhole _ List.mem_cons_self
      rw [List.map_cons, List.foldlM_cons]
      rcases hturn with ⟨hshort, hpayload, haccept⟩ | ⟨hlong, hpayload, sent, haccept, hmidway⟩
      · rw [sendLoop_of_next_eq_none (Sending.next_advance ?_)] at hrest
        · cases hrest
          rw [haccept, hwlen, hpayload]
          exact ⟨rfl, rfl⟩
        · rw [List.drop_eq_nil_iff, hwlen, hpayload]
          simp
      · have hlen : f.payload.length = buffer_size := by
          rw [hpayload, List.length_take]
          omega
        rw [hwlen, hlen, Int.toNat_natCast] at hrest
        obtain ⟨hmessage, hret⟩ := ih (r := { r with current := some (op, sent) }) hopen hmidway
          hrest fun w hw => hwhole w (List.mem_cons_of_mem _ hw)
        rw [haccept]
        refine ⟨hmessage, ?_⟩
        rw [hret, Sending.advance, List.length_drop]
        omega

/-- If no answer is larger than its frame, and all together are not smaller, none is. -/
theorem eq_of_sum_eq (hle : ∀ w ∈ writes, w.2 ≤ w.1.payload.length)
    (hsum : (writes.map Prod.snd).sum = (writes.map fun w => (w.1.payload.length : ℤ)).sum) :
    ∀ w ∈ writes, w.2 = w.1.payload.length := by
  by_contra hne
  obtain ⟨w, hw, hne⟩ : ∃ w ∈ writes, w.2 ≠ w.1.payload.length := by
    simpa only [not_forall, exists_prop] using hne
  have hlt := List.sum_lt_sum Prod.snd (fun w : WsFrame × ℤ => (w.1.payload.length : ℤ)) hle
    ⟨w, hw, lt_of_le_of_ne (hle w hw) hne⟩
  omega

/-- **When a message arrives.** The loop returns; and where the transport never claims to have
written more than it was given, the receiver gets the one message and the caller its length
exactly if every frame was written whole. -/
theorem sendLoop_arrives_iff (hpos : 0 < buffer_size) (hop : op.IsData)
    (hlen : data.length < answers.length) :
    ∃ ret writes, sendLoop buffer_size answers (.start ⟨op, true⟩ data) 0 = some (ret, writes) ∧
      ((∀ w ∈ writes, w.2 ≤ w.1.payload.length) →
        (received (writes.map Prod.fst) = some ⟨none, [(op, data)], []⟩ ∧ ret = data.length ↔
          ∀ w ∈ writes, w.2 = w.1.payload.length)) := by
  obtain ⟨ret, writes, hloop⟩ : ∃ ret writes,
      sendLoop buffer_size answers (.start ⟨op, true⟩ data) 0 = some (ret, writes) :=
    exists_sendLoop hpos hlen
  refine ⟨ret, writes, hloop, fun hle => ⟨?_, fun hwhole => ?_⟩⟩
  · rintro ⟨hreceived, hret⟩
    have hsize : data.length = (writes.map fun w => w.1.payload.length).sum := by
      rw [received, Lib.receive] at hreceived
      have hsize := Lib.Receiver.size_foldlM rfl hreceived
      simpa [Lib.Receiver.size, Lib.Receiver.empty, Function.comp_def, WsFrame.toFrame] using hsize
    rcases sendLoop_ret hloop with hsum | ⟨w, hw, -, hfails⟩
    · apply eq_of_sum_eq hle
      rw [← Int.zero_add (List.sum _), ← hsum, hret, hsize, Nat.cast_list_sum, List.map_map]
      rfl
    · have hmem : w.1.payload.length ≤ (writes.map fun w => w.1.payload.length).sum :=
        List.le_sum_of_mem (List.mem_map.mpr ⟨w, hw, rfl⟩)
      rcases hfails with hneg | ⟨hzero, hne⟩
      · omega
      · exact absurd (List.length_eq_zero_iff.mp (by omega)) hne
  · obtain ⟨hmessage, hret⟩ := sendLoop_of_whole hop (r := .empty) rfl .start hloop hwhole
    refine ⟨?_, ?_⟩
    · rw [received, Lib.receive, List.map_map]
      exact hmessage
    · rw [hret, Int.zero_add]
      rfl

theorem sendLoop_arrives_iff_short :
    ∃ ret writes, sendLoop 2 [1, 2, 0, 0] (.start ⟨.text, true⟩ [1, 2, 3]) 0 = some (ret, writes) ∧
      ((∀ w ∈ writes, w.2 ≤ w.1.payload.length) →
        (received (writes.map Prod.fst) = some ⟨none, [(.text, [1, 2, 3])], []⟩ ∧ ret = 3 ↔
          ∀ w ∈ writes, w.2 = w.1.payload.length)) :=
  sendLoop_arrives_iff (by decide) rfl (by decide)

end Loop

end AndonConsole
