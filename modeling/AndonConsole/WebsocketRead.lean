import AndonConsole.WebsocketClient
import Mathlib.Tactic.Tauto

/-!
Frames that are read in pieces.

`esp_websocket_client_recv` hands on the pieces of a frame as they come, each at
its place in the payload, but reads all of them to the front of its buffer. A
PONG is taken from there, so it has the payload of its PING only if that was
read at once; otherwise its end is what was left in the buffer by earlier frames.
-/

namespace AndonConsole

namespace WsClient

def dataEvents (payload_len : ℕ) (fin : Bool) (opcode : Option WsOpcode) :
    ℕ → List (List UInt8) → List WsEvent
  | _, [] => []
  | offset, piece :: pieces =>
      .data offset payload_len fin opcode piece ::
        dataEvents payload_len fin opcode (offset + piece.length) pieces

def rxBuffer (rx_buffer : List UInt8) (pieces : List (List UInt8)) : List UInt8 :=
  pieces.foldl (fun rx_buffer piece => piece ++ rx_buffer.drop piece.length) rx_buffer

section Pieces

variable {cfg : WsConfig} {a : WsAnswers} {w : WsClient} {rx_buffer : List UInt8}
  {pieces : List (List UInt8)} {offset payload_len : ℕ} {fin : Bool} {opcode : Option WsOpcode}

theorem recvLoop_pieces (hne : pieces ≠ []) (hpieces : ∀ piece ∈ pieces, piece ≠ [])
    (hlen : offset + pieces.flatten.length = payload_len) :
    recvLoop (pieces.map fun piece => .read piece payload_len fin opcode) offset rx_buffer w =
      .ok (.frame payload_len opcode (rxBuffer rx_buffer pieces),
        { w with events := w.events ++ dataEvents payload_len fin opcode offset pieces }) := by
  induction pieces generalizing offset rx_buffer w with
  | nil => exact absurd rfl hne
  | cons piece pieces ih =>
      have hpiece := hpieces piece List.mem_cons_self
      have hrest : ∀ piece ∈ pieces, piece ≠ [] := fun p hp => hpieces p (List.mem_cons_of_mem _ hp)
      rw [List.flatten_cons, List.length_append] at hlen
      rw [List.map_cons, recvLoop, if_neg fun h => hpiece h.1]
      cases pieces with
      | nil =>
          rw [if_neg (by simp at hlen; omega)]
          rfl
      | cons piece' pieces =>
          have hpos : 0 < piece'.length :=
            List.length_pos_of_ne_nil (hrest piece' List.mem_cons_self)
          rw [if_pos (by simp at hlen; omega), ih (List.cons_ne_nil _ _) hrest (by omega)]
          simp [rxBuffer, dataEvents, dispatchEvent]

/-- What lies behind every piece was there before. -/
theorem rxBuffer_getElem? {j : ℕ} (h : ∀ piece ∈ pieces, piece.length ≤ j) :
    (rxBuffer rx_buffer pieces)[j]? = rx_buffer[j]? := by
  induction pieces generalizing rx_buffer with
  | nil => rfl
  | cons piece pieces ih =>
      have hpiece := h piece List.mem_cons_self
      calc (rxBuffer (piece ++ rx_buffer.drop piece.length) pieces)[j]?
          = (piece ++ rx_buffer.drop piece.length)[j]? :=
            ih fun p hp => h p (List.mem_cons_of_mem _ hp)
        _ = rx_buffer[j]? := by
            rw [List.getElem?_append_right hpiece, List.getElem?_drop]
            congr 1
            omega

theorem length_lt_flatten {piece : List UInt8} (hpieces : ∀ piece ∈ pieces, piece ≠ [])
    (hmem : piece ∈ pieces) (htwo : pieces.length ≠ 1) :
    piece.length < pieces.flatten.length := by
  obtain ⟨before, after, rfl⟩ := List.append_of_mem hmem
  have hother : ∃ other ∈ before ++ after, other ≠ [] := by
    obtain ⟨other, hother⟩ := List.exists_mem_of_ne_nil (before ++ after) fun hnil => by
      obtain ⟨rfl, rfl⟩ := List.append_eq_nil_iff.mp hnil
      exact htwo rfl
    refine ⟨other, hother, hpieces other ?_⟩
    simp only [List.mem_append, List.mem_cons] at hother ⊢
    tauto
  obtain ⟨other, hother, hne⟩ := hother
  have hle : other.length ≤ (before ++ after).flatten.length := by
    rw [List.length_flatten]
    exact List.le_sum_of_mem (List.mem_map.mpr ⟨other, hother, rfl⟩)
  have hpos := List.length_pos_of_ne_nil hne
  simp only [List.flatten_append, List.flatten_cons, List.length_append] at hle ⊢
  omega

/-- **When a PONG is right.** Whatever was in the buffer before, the PONG has the payload of the
PING exactly if that was read at once. -/
theorem recv_pong_iff (hne : pieces ≠ [])
    (hpieces : ∀ piece ∈ pieces, piece ≠ [] ∧ piece.length ≤ cfg.buffer_size)
    (hreads : a.reads =
      pieces.map fun piece => .read piece pieces.flatten.length true (some .ping))
    (hopen : w.transport_open = true) (hpong : a.pong = true) :
    (∀ rx_buffer : List UInt8, rx_buffer.length = cfg.buffer_size →
        ∃ w', recv cfg a rx_buffer w = .ok (true, w') ∧
          w'.wire = w.wire ++ [⟨⟨.pong, true⟩, pieces.flatten⟩]) ↔
      pieces.length = 1 := by
  have hpos : ∀ piece ∈ pieces, piece ≠ [] := fun piece hpiece => (hpieces piece hpiece).1
  obtain ⟨w₁, hopen₁, hwire₁, hrecv⟩ : ∃ w₁ : WsClient, w₁.transport_open = true ∧
      w₁.wire = w.wire ∧ ∀ rx_buffer, recv cfg a rx_buffer w = recvEnd cfg a
        (.frame pieces.flatten.length (some .ping) (rxBuffer rx_buffer pieces)) w₁ := by
    refine ⟨{ w with
        events := w.events ++ dataEvents pieces.flatten.length true (some .ping) 0 pieces },
      hopen, rfl, fun rx_buffer => ?_⟩
    rw [recv, hreads, recvLoop_pieces hne hpos (Nat.zero_add _)]
    rfl
  simp only [hrecv, recvEnd, if_true]
  constructor
  · intro h
    by_contra htwo
    have hlt : ∀ piece ∈ pieces, piece.length < pieces.flatten.length :=
      fun piece hpiece => length_lt_flatten hpos hpiece htwo
    obtain ⟨piece, hpiece⟩ := List.exists_mem_of_ne_nil pieces hne
    have hlast : pieces.flatten.length - 1 < pieces.flatten.length := by
      have hlen := hlt piece hpiece
      omega
    -- what lies in the buffer at the place of the last byte is another byte
    obtain ⟨b, hb⟩ : ∃ b, pieces.flatten[pieces.flatten.length - 1]? = some b :=
      ⟨_, List.getElem?_eq_getElem hlast⟩
    obtain ⟨w', hw', hwire⟩ := h (List.replicate cfg.buffer_size (b + 1)) List.length_replicate
    split_ifs at hw' with hlong
    cases hw'
    have hpayload : (rxBuffer (List.replicate cfg.buffer_size (b + 1)) pieces).take
        pieces.flatten.length = pieces.flatten := by
      rw [hpong, sendRaw_wire _ _ hopen₁, hwire₁] at hwire
      simpa using hwire
    have hstale : (rxBuffer (List.replicate cfg.buffer_size (b + 1)) pieces)[
        pieces.flatten.length - 1]? = some (b + 1) := by
      rw [rxBuffer_getElem? fun piece hpiece => Nat.le_sub_one_of_lt (hlt piece hpiece)]
      exact List.getElem?_replicate_of_lt (by omega)
    have heq : some (b + 1) = some b := by
      rw [← hb, ← hstale, ← List.getElem?_take_of_lt hlast, hpayload]
    simp at heq
  · intro hone rx_buffer hlen
    obtain ⟨piece, rfl⟩ := List.length_eq_one_iff.mp hone
    have hshort : ¬ [piece].flatten.length > cfg.buffer_size := by
      have hle := (hpieces piece List.mem_cons_self).2
      simpa using hle
    rw [if_neg hshort]
    refine ⟨_, rfl, ?_⟩
    rw [hpong, sendRaw_wire _ _ hopen₁, hwire₁]
    simp [rxBuffer]

def demoClient : WsClient where
  state := .connected
  run := true
  wait_for_pong_resp := false
  reconnect_tick_ms := 0
  ping_tick_ms := 0
  pingpong_tick_ms := 0
  read_select := 1
  close_frame_sent := false
  transport_open := true
  past := []
  wire := []
  events := []

/-- A PING in two pieces, of which the second overwrites the first. -/
theorem recv_pong_iff_twoPieces : ¬ ∀ rx_buffer : List UInt8, rx_buffer.length = 4 →
    ∃ w', recv demoWebsocket
        (demoAnswers [.read [1, 2] 3 true (some .ping), .read [3] 3 true (some .ping)]) rx_buffer
        demoClient = .ok (true, w') ∧
      w'.wire = [⟨⟨.pong, true⟩, [1, 2, 3]⟩] := by
  intro h
  have hpieces : ∀ piece ∈ ([[1, 2], [3]] : List (List UInt8)),
      piece ≠ [] ∧ piece.length ≤ demoWebsocket.buffer_size := by decide
  have hone : [[1, 2], [3]].length = 1 :=
    (recv_pong_iff (List.cons_ne_nil _ _) hpieces rfl rfl rfl).mp h
  cases hone

end Pieces

end WsClient

end AndonConsole
