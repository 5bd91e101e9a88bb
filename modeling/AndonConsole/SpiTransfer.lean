import AndonConsole.Spi

/-!
A transaction on the SPI bus.

`spi_lobo_transfer_data` cuts what it sends and what it receives into frames of
at most 64 bytes, the size of the buffer of the peripheral. In full duplex a
byte comes in for every byte that goes out, and the rest is read afterwards. A
frame that fills the last word of the buffer only in part is read back by a loop
that looks at the number of bits between two words only: where more is to be
received than was sent, it reads on past what has come in.
-/

namespace AndonConsole

open Lib (bufBytes byteOf wordOf)

namespace SpiTransfer

/-- `spi_lobo_transaction_t`, as far as it is looked at; `txbuffer` and `rxbuffer` are the
buffers the flags choose. -/
structure Transaction where
  length : ℕ
  rxlength : ℕ
  useTxdata : Bool
  useRxdata : Bool
  txbuffer : Option (List UInt8)
  rxbuffer : Bool
  long_enough : ∀ b ∈ txbuffer, length / 8 ≤ b.length

/-- The peripheral, what has been sent and received, and `rdcount`. -/
structure Xfer where
  data_buf : ℕ → ℕ
  frames : List (List UInt8)
  pos : ℕ
  rx : List UInt8
  rdcount : ℕ

/-- The buffer after `bs` have come in: what is behind them stays. -/
def received (buf : ℕ → ℕ) (bs : List UInt8) (k : ℕ) : ℕ :=
  wordOf ((List.range 4).map fun j => (bs[4 * k + j]?).getD (byteOf (buf k) j))

/-- A transaction on the wire, sending `mosi` bytes and receiving `miso`; the device answers
with the bytes of `answer`, one after the other. -/
def exchange (answer : ℕ → UInt8) (mosi miso : ℕ) (x : Xfer) : Xfer where
  data_buf := received x.data_buf ((List.range miso).map fun i => answer (x.pos + i))
  frames := if mosi = 0 then x.frames else x.frames ++ [bufBytes x.data_buf mosi]
  pos := x.pos + miso
  rx := x.rx
  rdcount := x.rdcount

/-- `bits -= 8` on `uint32_t`. -/
def sub8 (bits : ℕ) : ℕ := (bits + (2 ^ 32 - 8)) % 2 ^ 32

/-- The loops that take received bytes out of the buffer: `check` is whether the number of
bits is looked at after every byte, or between two words only. The third argument counts the
bytes. -/
def readLoop (check : Bool) (buf : ℕ → ℕ) : ℕ → ℕ → ℕ → Except SpiFault (List UInt8)
  | 0, _, _ => .ok []
  | rdcount + 1, k, bits =>
      if k % 4 = 0 ∧ bits = 0 then .ok []
      else if 64 ≤ k then .error .dataBuf
      else
        let b := byteOf (buf (k / 4)) (k % 4)
        let bits := sub8 bits
        if check && bits == 0 then .ok [b]
        else do
          let bs ← readLoop check buf rdcount (k + 1) bits
          return b :: bs

/-- Start a frame of `bits` and, in full duplex, take out what has come in. -/
def sendFrame (duplex : Bool) (answer : ℕ → UInt8) (check : Bool) (bits : ℕ) (x : Xfer) :
    Except SpiFault Xfer :=
  if duplex && 0 < x.rdcount then do
    let x := exchange answer (bits / 8) (bits / 8) x
    let bs ← readLoop check x.data_buf x.rdcount 0 bits
    return { x with rx := x.rx ++ bs, rdcount := x.rdcount - bs.length }
  else return exchange answer (bits / 8) 0 x

/-- `for (bc = 0; bc < 32; bc += 8) wd |= (uint32_t)txbuffer[count] << bc;` -/
def packWord (bs : List UInt8) : ℕ :=
  bs.zipIdx.foldl (fun wd p => wd ||| p.1.toNat <<< (8 * p.2)) 0

/-- The loop over the bytes to be sent, and the frame behind it. -/
def txLoop (duplex : Bool) (answer : ℕ → UInt8) (tx : List UInt8) (idx bits : ℕ) (x : Xfer) :
    Except SpiFault Xfer :=
  if tx = [] then
    if bits > 0 then sendFrame duplex answer true bits x else return x
  else do
    let bits := bits + 8 * (tx.take 4).length
    if 16 ≤ idx then .error .dataBuf
    else
      let x := { x with data_buf := Function.update x.data_buf idx (packWord (tx.take 4)) }
      if idx + 1 = 16 then do
        let x ← sendFrame duplex answer false bits x
        txLoop duplex answer (tx.drop 4) 0 0 x
      else txLoop duplex answer (tx.drop 4) (idx + 1) bits x
termination_by tx.length
decreasing_by
  all_goals
    have hpos := List.length_pos_of_ne_nil ‹¬ tx = []›
    simp only [List.length_drop]
    omega

/-- The loop that receives what has not come in while sending. -/
def rxLoop (answer : ℕ → UInt8) : ℕ → Xfer → Except SpiFault Xfer
  | 0, x => if x.rdcount = 0 then return x else .error .stuck
  | fuel + 1, x =>
      if x.rdcount = 0 then return x
      else do
        let n := if x.rdcount ≤ 64 then x.rdcount else 64
        let x := exchange answer 0 n x
        let bs ← readLoop false x.data_buf x.rdcount 0 (n * 8)
        rxLoop answer fuel { x with rx := x.rx ++ bs, rdcount := x.rdcount - bs.length }

namespace Transaction

def txlen (t : Transaction) : ℕ := if t.txbuffer = none then 0 else t.length / 8

def rxlen (t : Transaction) : ℕ := if t.rxbuffer then t.rxlength / 8 else 0

def tx (t : Transaction) : List UInt8 := (t.txbuffer.getD []).take t.txlen

/-- None of the checks answers `ESP_ERR_INVALID_ARG`. -/
def Accepted (t : Transaction) : Prop :=
  t.length % 8 = 0 ∧ t.rxlength % 8 = 0 ∧ ¬ (t.rxlen = 0 ∧ t.txlen = 0) ∧
    ¬ (t.useTxdata ∧ 4 < t.txlen) ∧ ¬ (t.useRxdata ∧ 4 < t.rxlen)

instance : DecidablePred Accepted := fun _ => inferInstanceAs (Decidable (_ ∧ _))

end Transaction

/-- `spi_lobo_transfer_data` on a device that can be selected; `none` is
`ESP_ERR_INVALID_ARG`. -/
def transferData (duplex : Bool) (answer : ℕ → UInt8) (t : Transaction) (buf : ℕ → ℕ) :
    Except SpiFault (Option Xfer) :=
  if t.Accepted then do
    let x ← txLoop duplex answer t.tx 0 0 ⟨buf, [], 0, [], t.rxlen⟩
    let x ← rxLoop answer x.rdcount x
    return some x
  else return none

/-! ### The buffer -/

theorem packWord_eq (bs : List UInt8) : packWord bs = wordOf bs := by
  have hfold : ∀ (bs pre : List UInt8),
      (bs.zipIdx pre.length).foldl (fun wd p => wd ||| p.1.toNat <<< (8 * p.2)) (wordOf pre) =
        wordOf (pre ++ bs) := by
    intro bs
    induction bs with
    | nil => simp
    | cons b bs ih =>
        intro pre
        have hnext := ih (pre ++ [b])
        rw [List.length_append, Lib.wordOf_concat] at hnext
        simpa using hnext
  exact hfold bs []

theorem byteOf_received {buf : ℕ → ℕ} {bs : List UInt8} (k : ℕ) :
    byteOf (received buf bs (k / 4)) (k % 4) =
      (bs[k]?).getD (byteOf (buf (k / 4)) (k % 4)) := by
  have hlt : k % 4 < ((List.range 4).map fun j =>
      (bs[4 * (k / 4) + j]?).getD (byteOf (buf (k / 4)) j)).length := by
    simp
    omega
  have hk : 4 * (k / 4) + k % 4 = k := Nat.div_add_mod k 4
  rw [received, Lib.byteOf_wordOf hlt]
  simp [hk]

theorem sub8_of_le {bits : ℕ} (h : 8 ≤ bits) (hlt : bits < 2 ^ 32) : sub8 bits = bits - 8 := by
  rw [sub8]
  omega

/-- Reading back a frame of `n` bytes, from byte `k` on: what has come in, as far as it is
asked for. -/
theorem readLoop_eq (check : Bool) (buf : ℕ → ℕ) {n : ℕ} (hn : n ≤ 64) {rdcount k : ℕ}
    (hk : k ≤ n) (hfirst : check = true → k < n)
    (hstop : check = true ∨ n % 4 = 0 ∨ rdcount ≤ n - k) :
    readLoop check buf rdcount k (8 * (n - k)) =
      .ok ((List.range' k (min rdcount (n - k))).map fun i => byteOf (buf (i / 4)) (i % 4)) := by
  induction rdcount generalizing k with
  | zero => simp [readLoop]
  | succ rdcount ih =>
      rw [readLoop]
      by_cases hend : k = n
      · subst hend
        have hcheck : check ≠ true := fun h => absurd (hfirst h) (lt_irrefl k)
        have hmod : k % 4 = 0 := by
          rcases hstop with h | h | h
          · exact absurd h hcheck
          · exact h
          · omega
        rw [if_pos ⟨hmod, by omega⟩]
        simp
      · have hbits : sub8 (8 * (n - k)) = 8 * (n - (k + 1)) := by
          rw [sub8_of_le (by omega) (by omega)]
          omega
        have hmin : min (rdcount + 1) (n - k) = min rdcount (n - (k + 1)) + 1 := by omega
        rw [if_neg (by omega), if_neg (by omega), hbits, hmin, List.range'_succ, List.map_cons]
        dsimp only
        split_ifs with hlast
        · simp only [Bool.and_eq_true, beq_iff_eq] at hlast
          have hzero : min rdcount (n - (k + 1)) = 0 := by omega
          rw [hzero]
          rfl
        · simp only [Bool.and_eq_true, beq_iff_eq, not_and] at hlast
          have hmore (h : check = true) : k + 1 < n := by
            have := hlast h
            omega
          rw [ih (by omega) hmore (hstop.imp_right (Or.imp_right fun h => by omega))]
          rfl

/-! ### A frame -/

/-- What has come in are the first answers, and no answer was passed over while some are
still to be read. -/
structure Reads (answer : ℕ → UInt8) (rxlen : ℕ) (x : Xfer) : Prop where
  rx : x.rx = (List.range x.rx.length).map answer
  count : x.rx.length + x.rdcount = rxlen
  pos : 0 < x.rdcount → x.pos = x.rx.length

variable {answer : ℕ → UInt8} {rxlen : ℕ} {x : Xfer} {duplex check : Bool}

theorem Reads.exchange (h : Reads answer rxlen x) (hpos : 0 < x.rdcount) (mosi : ℕ) {n m : ℕ}
    (hm : m = min x.rdcount n) {bs : List UInt8}
    (hbs : bs = (List.range' 0 m).map fun i =>
      byteOf ((SpiTransfer.exchange answer mosi n x).data_buf (i / 4)) (i % 4)) :
    Reads answer rxlen { SpiTransfer.exchange answer mosi n x with
      rx := x.rx ++ bs, rdcount := x.rdcount - bs.length } := by
  have hanswers : bs = (List.range m).map fun i => answer (x.rx.length + i) := by
    rw [hbs, ← List.range_eq_range']
    refine List.map_congr_left fun i hi => ?_
    have hi' : i < n := by
      have := List.mem_range.mp hi
      omega
    simp only [SpiTransfer.exchange, byteOf_received, h.pos hpos]
    simp [hi']
  have hlen : bs.length = m := by rw [hanswers]; simp
  have hcount := h.count
  refine ⟨?_, ?_, ?_⟩
  · simp only [List.length_append, hlen, List.range_add, List.map_append, List.map_map]
    rw [← h.rx, hanswers]
    rfl
  · simp only [List.length_append, hlen]
    omega
  · intro hleft
    simp only [hlen] at hleft
    simp only [SpiTransfer.exchange, List.length_append, hlen, h.pos hpos]
    omega

theorem Reads.sendFrame (h : Reads answer rxlen x) (duplex check : Bool) {n : ℕ} (hn0 : 0 < n)
    (hn : n ≤ 64)
    (hgood : duplex = false ∨ check = true ∨ n % 4 = 0 ∨ x.rdcount ≤ n) :
    ∃ x', SpiTransfer.sendFrame duplex answer check (8 * n) x = .ok x' ∧ Reads answer rxlen x' ∧
      x'.frames = x.frames ++ [bufBytes x.data_buf n] ∧
      x'.rdcount = if duplex then x.rdcount - n else x.rdcount := by
  have hbits : 8 * n / 8 = n := by omega
  have hne : n ≠ 0 := by omega
  rw [SpiTransfer.sendFrame, hbits]
  by_cases hduplex : duplex = true ∧ 0 < x.rdcount
  · obtain ⟨rfl, hpos⟩ := hduplex
    have hstop : check = true ∨ n % 4 = 0 ∨ x.rdcount ≤ n - 0 := by
      rcases hgood with h | h | h | h
      · cases h
      · exact .inl h
      · exact .inr (.inl h)
      · exact .inr (.inr h)
    have hread := readLoop_eq check (SpiTransfer.exchange answer n n x).data_buf hn (Nat.zero_le n)
      (fun _ => hn0) hstop
    rw [Nat.sub_zero] at hread
    change readLoop check _ (SpiTransfer.exchange answer n n x).rdcount 0 (8 * n) = _ at hread
    rw [if_pos (by simp [hpos])]
    refine ⟨_, ?_, h.exchange (n := n) hpos n rfl rfl, ?_, ?_⟩
    · simp only [hread]
      rfl
    · simp [SpiTransfer.exchange, hne]
    · simp
      omega
  · rw [if_neg (by simpa using hduplex)]
    refine ⟨_, rfl, ⟨h.rx, h.count, h.pos⟩, ?_, ?_⟩
    · simp [SpiTransfer.exchange, hne]
    · simp only [SpiTransfer.exchange]
      split_ifs with hd
      · have : ¬ 0 < x.rdcount := fun hpos => hduplex ⟨hd, hpos⟩
        omega
      · rfl

/-! ### Sending -/

/-- The bytes `pend` are in the buffer, and `idx` words are taken by them; they are full as
long as `tx` is left to be sent. -/
structure Pending (tx : List UInt8) (idx : ℕ) (pend : List UInt8) (x : Xfer) : Prop where
  bytes : bufBytes x.data_buf pend.length = pend
  le : pend.length ≤ 4 * idx
  full : tx ≠ [] → pend.length = 4 * idx
  idx_lt : idx < 16

theorem pending_nil (tx : List UInt8) (x : Xfer) : Pending tx 0 [] x :=
  ⟨by simp [bufBytes], by simp, by simp, by omega⟩

variable {tx pend : List UInt8} {idx : ℕ}

def stored (tx : List UInt8) (idx : ℕ) (x : Xfer) : Xfer :=
  { x with data_buf := Function.update x.data_buf idx (packWord (tx.take 4)) }

theorem Reads.stored (h : Reads answer rxlen x) (tx : List UInt8) (idx : ℕ) :
    Reads answer rxlen (SpiTransfer.stored tx idx x) :=
  ⟨h.rx, h.count, h.pos⟩

theorem Pending.bufBytes_stored (h : Pending tx idx pend x) (htx : tx ≠ []) :
    bufBytes (stored tx idx x).data_buf (pend ++ tx.take 4).length = pend ++ tx.take 4 := by
  have hle : (tx.take 4).length ≤ 4 := List.length_take_le 4 tx
  rw [stored, packWord_eq, List.length_append, h.full htx, Lib.bufBytes_update _ _ hle,
    ← h.full htx, h.bytes]

theorem Pending.stored (h : Pending tx idx pend x) (htx : tx ≠ []) (hlast : idx + 1 ≠ 16) :
    Pending (tx.drop 4) (idx + 1) (pend ++ tx.take 4) (SpiTransfer.stored tx idx x) := by
  have hfull := h.full htx
  have hlt := h.idx_lt
  have htake : (tx.take 4).length = min 4 tx.length := List.length_take
  refine ⟨h.bufBytes_stored htx, ?_, ?_, by omega⟩
  · rw [List.length_append]
    omega
  · intro hne
    have hmore := List.length_pos_of_ne_nil hne
    rw [List.length_drop] at hmore
    rw [List.length_append]
    omega

theorem length_take_add_drop (pend tx : List UInt8) :
    (pend ++ tx.take 4).length + (tx.drop 4).length = pend.length + tx.length := by
  rw [List.length_append, List.length_take, List.length_drop]
  omega

theorem txLoop_nil (idx bits : ℕ) : txLoop duplex answer [] idx bits x =
    if bits > 0 then sendFrame duplex answer true bits x else .ok x := by
  rw [txLoop, if_pos rfl]
  rfl

theorem txLoop_word (hp : Pending tx idx pend x) (htx : tx ≠ []) :
    txLoop duplex answer tx idx (8 * pend.length) x =
      if idx + 1 = 16 then do
        let x ← sendFrame duplex answer false (8 * (pend ++ tx.take 4).length) (stored tx idx x)
        txLoop duplex answer (tx.drop 4) 0 0 x
      else txLoop duplex answer (tx.drop 4) (idx + 1) (8 * (pend ++ tx.take 4).length)
        (stored tx idx x) := by
  have hidx := hp.idx_lt
  rw [txLoop, if_neg htx, List.length_append, Nat.mul_add]
  dsimp only
  rw [if_neg (not_le.mpr hidx)]
  rfl

/-- The last frame is read back right: nothing is read, or nothing is left to be read behind
it, or its last word is full unless it is short of the last of the buffer. -/
def Fits (duplex : Bool) (rdcount len : ℕ) : Prop :=
  duplex = false ∨ rdcount ≤ len ∨ len % 64 ≤ 60

instance (duplex : Bool) (rdcount len : ℕ) : Decidable (Fits duplex rdcount len) :=
  inferInstanceAs (Decidable (_ ∨ _))

/-- The loop sends what is in the buffer and what is left, in frames that fit. -/
theorem txLoop_spec (hp : Pending tx idx pend x) (h : Reads answer rxlen x)
    (hfits : Fits duplex x.rdcount (pend.length + tx.length)) :
    ∃ x' fs, txLoop duplex answer tx idx (8 * pend.length) x = .ok x' ∧ Reads answer rxlen x' ∧
      x'.frames = x.frames ++ fs ∧ fs.flatten = pend ++ tx ∧ ∀ f ∈ fs, f.length ≤ 64 := by
  induction hlen : tx.length using Nat.strong_induction_on generalizing tx idx pend x with
  | _ k ih =>
    subst hlen
    have hle := hp.le
    have hlt := hp.idx_lt
    by_cases htx : tx = []
    · subst htx
      rw [txLoop_nil]
      by_cases hpos : 0 < pend.length
      · obtain ⟨x', hsend, hreads, hframes, -⟩ :=
          h.sendFrame duplex true hpos (by omega) (.inr (.inl rfl))
        rw [hp.bytes] at hframes
        rw [if_pos (by omega)]
        exact ⟨x', [pend], hsend, hreads, hframes, by simp, by simp; omega⟩
      · have hnil : pend = [] := List.length_eq_zero_iff.mp (by omega)
        subst hnil
        exact ⟨x, [], by simp, h, by simp, rfl, by simp⟩
    · have hpos := List.length_pos_of_ne_nil htx
      have hfull := hp.full htx
      have hdrop : (tx.drop 4).length = tx.length - 4 := List.length_drop
      have hsum := length_take_add_drop pend tx
      have hless : (tx.drop 4).length < tx.length := by omega
      rw [txLoop_word hp htx]
      split_ifs with hlast
      · -- the buffer is full: its last word holds what is left if that is less than a word
        have hgood : duplex = false ∨ false = true ∨ (pend ++ tx.take 4).length % 4 = 0 ∨
            x.rdcount ≤ (pend ++ tx.take 4).length := by
          rcases hfits with hd | hr | hm
          · exact .inl hd
          · omega
          · omega
        obtain ⟨x₁, hsend, hreads, hframes, hcount⟩ :=
          (h.stored tx idx).sendFrame duplex false (by omega) (by omega) hgood
        rw [hp.bufBytes_stored htx] at hframes
        have hfits₁ : Fits duplex x₁.rdcount (([] : List UInt8).length + (tx.drop 4).length) := by
          rw [List.length_nil, Nat.zero_add]
          rcases hfits with hd | hr | hm
          · exact .inl hd
          · rcases Bool.eq_false_or_eq_true duplex with hd | hd
            · rw [if_pos hd] at hcount
              have hsame : (SpiTransfer.stored tx idx x).rdcount = x.rdcount := rfl
              exact .inr (.inl (by omega))
            · exact .inl hd
          · exact .inr (.inr (by omega))
        obtain ⟨x₂, fs, hloop, hreads₂, hframes₂, hflat, hsmall⟩ :=
          ih _ hless (pending_nil (tx.drop 4) x₁) hreads hfits₁ rfl
        refine ⟨x₂, (pend ++ tx.take 4) :: fs, ?_, hreads₂, ?_, ?_, ?_⟩
        · rw [hsend]
          exact hloop
        · rw [hframes₂, hframes, List.append_assoc, List.singleton_append]
          rfl
        · rw [List.flatten_cons, hflat, List.nil_append, List.append_assoc, List.take_append_drop]
        · intro f hf
          rcases List.mem_cons.mp hf with rfl | hf
          · omega
          · exact hsmall f hf
      · rw [← hsum] at hfits
        obtain ⟨x₂, fs, hloop, hreads₂, hframes₂, hflat, hsmall⟩ :=
          ih _ hless (hp.stored htx hlast) (h.stored tx idx) hfits rfl
        refine ⟨x₂, fs, hloop, hreads₂, hframes₂, ?_, hsmall⟩
        rw [hflat, List.append_assoc, List.take_append_drop]

/-! ### Receiving -/

theorem rxLoop_succ (fuel : ℕ) (hpos : 0 < x.rdcount) (h : Reads answer rxlen x) :
    ∃ x₁, rxLoop answer (fuel + 1) x = rxLoop answer fuel x₁ ∧ Reads answer rxlen x₁ ∧
      x₁.frames = x.frames ∧ x₁.rdcount < x.rdcount := by
  have hne : x.rdcount ≠ 0 := Nat.pos_iff_ne_zero.mp hpos
  rw [rxLoop, if_neg hne]
  generalize hn : (if x.rdcount ≤ 64 then x.rdcount else 64) = n
  have hle : n ≤ 64 ∧ 0 < n ∧ (n % 4 = 0 ∨ x.rdcount ≤ n) := by
    split_ifs at hn <;> omega
  have hread := readLoop_eq false (exchange answer 0 n x).data_buf hle.1
    (Nat.zero_le n) (by simp) (.inr hle.2.2)
  rw [Nat.sub_zero, Nat.mul_comm] at hread
  change readLoop false _ (exchange answer 0 n x).rdcount 0 (n * 8) = _ at hread
  refine ⟨_, ?_, h.exchange (n := n) hpos 0 rfl rfl, ?_, ?_⟩
  · simp only [hread]
    rfl
  · simp [exchange]
  · simp
    omega

theorem Reads.rx_eq (h : Reads answer rxlen x) (hzero : x.rdcount = 0) :
    x.rx = (List.range rxlen).map answer := by
  have hcount := h.count
  rw [hzero, Nat.add_zero] at hcount
  rw [h.rx, hcount]

theorem rxLoop_spec {fuel : ℕ} (hfuel : x.rdcount ≤ fuel) (h : Reads answer rxlen x) :
    ∃ x', rxLoop answer fuel x = .ok x' ∧ x'.rx = (List.range rxlen).map answer ∧
      x'.frames = x.frames := by
  induction fuel generalizing x with
  | zero =>
      have hzero : x.rdcount = 0 := Nat.le_zero.mp hfuel
      exact ⟨x, by rw [rxLoop, if_pos hzero]; rfl, h.rx_eq hzero, rfl⟩
  | succ fuel ih =>
      by_cases hpos : 0 < x.rdcount
      · obtain ⟨x₁, hstep, hreads, hframes, hless⟩ := rxLoop_succ fuel hpos h
        obtain ⟨x', hloop, hrx, hframes'⟩ := ih (by omega) hreads
        exact ⟨x', hstep.trans hloop, hrx, hframes'.trans hframes⟩
      · have hzero : x.rdcount = 0 := Nat.eq_zero_of_not_pos hpos
        exact ⟨x, by rw [rxLoop, if_pos hzero]; rfl, h.rx_eq hzero, rfl⟩

theorem rxLoop_keeps {fuel : ℕ} {x' : Xfer} (hok : rxLoop answer fuel x = .ok x') :
    x.rx <+: x'.rx := by
  induction fuel generalizing x with
  | zero =>
      rw [rxLoop] at hok
      split_ifs at hok
      · cases hok
        exact List.prefix_rfl
  | succ fuel ih =>
      rw [rxLoop] at hok
      by_cases hzero : x.rdcount = 0
      · rw [if_pos hzero] at hok
        cases hok
        exact List.prefix_rfl
      · rw [if_neg hzero] at hok
        obtain ⟨bs, -, hrest⟩ := Lib.bind_eq_ok.mp hok
        exact (List.prefix_append x.rx bs).trans (ih hrest)

/-! ### Reading on past the end -/

/-- The loop that looks at the number of bits between two words only takes the byte behind
the last one that came in. -/
theorem readLoop_stale {buf : ℕ → ℕ} {n : ℕ} (hn : n ≤ 64) (hmod : n % 4 ≠ 0) {rdcount k : ℕ}
    (hk : k ≤ n) (hmore : n - k < rdcount) {bs : List UInt8}
    (hok : readLoop false buf rdcount k (8 * (n - k)) = .ok bs) :
    byteOf (buf (n / 4)) (n % 4) ∈ bs := by
  induction rdcount generalizing k bs with
  | zero => omega
  | succ rdcount ih =>
      rw [readLoop, if_neg (by omega)] at hok
      split_ifs at hok
      dsimp only at hok
      rw [if_neg (by simp)] at hok
      obtain ⟨cs, hrest, hbs⟩ := Lib.bind_eq_ok.mp hok
      cases hbs
      by_cases hend : k = n
      · subst hend
        exact List.mem_cons_self
      · have hbits : sub8 (8 * (n - k)) = 8 * (n - (k + 1)) := by
          rw [sub8_of_le (by omega) (by omega)]
          omega
        rw [hbits] at hrest
        exact List.mem_cons_of_mem _ (ih (by omega) (by omega) hrest)

theorem sendFrame_stale {n : ℕ} (hn : n ≤ 64) (hmod : n % 4 ≠ 0) (hmore : n < x.rdcount)
    (hbyte : byteOf (x.data_buf (n / 4)) (n % 4) = 0) {x' : Xfer}
    (hok : sendFrame true answer false (8 * n) x = .ok x') : 0 ∈ x'.rx := by
  have hbits : 8 * n / 8 = n := by omega
  have hpos : 0 < x.rdcount := by omega
  rw [sendFrame, hbits, if_pos (by simp [hpos])] at hok
  obtain ⟨bs, hread, hx'⟩ := Lib.bind_eq_ok.mp hok
  cases hx'
  have hmem := readLoop_stale hn hmod (Nat.zero_le n) (by simpa [exchange] using hmore) hread
  have hstale : byteOf ((exchange answer n n x).data_buf (n / 4)) (n % 4) = 0 := by
    rw [exchange, byteOf_received]
    simpa using hbyte
  rw [hstale] at hmem
  exact List.mem_append_right _ hmem

theorem byteOf_wordOf_of_le {bs : List UInt8} {k : ℕ} (h : bs.length ≤ k) :
    byteOf (wordOf bs) k = 0 := by
  have hlt : wordOf bs < 256 ^ k := by
    calc wordOf bs < 2 ^ (8 * bs.length) := Lib.wordOf_lt bs
      _ ≤ 2 ^ (8 * k) := Nat.pow_le_pow_right (by decide) (by omega)
      _ = 256 ^ k := by rw [Nat.pow_mul]
  rw [byteOf, Nat.div_eq_of_lt hlt]
  rfl

/-- A buffer whose last word is full only in part: the loop faults, or takes a zero byte for
one that has not come in. -/
theorem txLoop_stale (hp : Pending tx idx pend x) (h : Reads answer rxlen x)
    (hbad : ¬ Fits true x.rdcount (pend.length + tx.length)) {x' : Xfer}
    (hok : txLoop true answer tx idx (8 * pend.length) x = .ok x') : 0 ∈ x'.rx := by
  simp only [Fits, Bool.true_eq_false, false_or, not_or, not_le] at hbad
  induction hlen : tx.length using Nat.strong_induction_on generalizing tx idx pend x with
  | _ k ih =>
    subst hlen
    have hle := hp.le
    have hlt := hp.idx_lt
    by_cases htx : tx = []
    · subst htx
      rw [List.length_nil] at hbad
      omega
    · have hpos := List.length_pos_of_ne_nil htx
      have hfull := hp.full htx
      have hdrop : (tx.drop 4).length = tx.length - 4 := List.length_drop
      have hsum := length_take_add_drop pend tx
      have hless : (tx.drop 4).length < tx.length := by omega
      rw [txLoop_word hp htx] at hok
      split_ifs at hok with hlast
      · obtain ⟨x₁, hsend, hrest⟩ := Lib.bind_eq_ok.mp hok
        by_cases hword : tx.length < 4
        · have hnil : tx.drop 4 = [] := List.length_eq_zero_iff.mp (by omega)
          rw [hnil, txLoop_nil] at hrest
          cases hrest
          have hn : (pend ++ tx.take 4).length = 60 + tx.length := by
            rw [hnil] at hsum
            rw [List.length_nil] at hsum
            omega
          rw [hn] at hsend
          refine sendFrame_stale (by omega) (by omega) ?_ ?_ hsend
          · change 60 + tx.length < x.rdcount
            omega
          · have hidx : (60 + tx.length) / 4 = idx := by omega
            have htake : (tx.take 4).length = min 4 tx.length := List.length_take
            have hword : (SpiTransfer.stored tx idx x).data_buf ((60 + tx.length) / 4) =
                wordOf (tx.take 4) := by
              rw [hidx, ← packWord_eq]
              exact Function.update_self ..
            rw [hword]
            exact byteOf_wordOf_of_le (by omega)
        · obtain ⟨x₂, hsend₂, hreads, -, hcount⟩ := (h.stored tx idx).sendFrame true false
            (n := (pend ++ tx.take 4).length) (by omega) (by omega)
            (.inr (.inr (.inl (by omega))))
          obtain rfl : x₁ = x₂ := Except.ok.inj (hsend.symm.trans hsend₂)
          rw [if_pos rfl] at hcount
          have hsame : (SpiTransfer.stored tx idx x).rdcount = x.rdcount := rfl
          refine ih _ hless (pending_nil (tx.drop 4) x₁) hreads hrest ?_ rfl
          rw [List.length_nil]
          omega
      · rw [← hsum] at hbad
        exact ih _ hless (hp.stored htx hlast) (h.stored tx idx) hok hbad rfl

/-! ### The whole transaction -/

@[simp] theorem Transaction.length_tx (t : Transaction) : t.tx.length = t.txlen := by
  rw [Transaction.tx, List.length_take, Transaction.txlen]
  cases hbuf : t.txbuffer with
  | none => simp
  | some b =>
      have hlong : t.length / 8 ≤ b.length := t.long_enough b hbuf
      rw [if_neg (by simp), Option.getD_some]
      exact Nat.min_eq_left hlong

/-- What was asked for: the bytes are sent in order, in frames that fit in the buffer, and
what is received are the first answers of the device. -/
structure Transaction.Done (t : Transaction) (answer : ℕ → UInt8) (x : Xfer) : Prop where
  sent : x.frames.flatten = t.tx
  frames : ∀ f ∈ x.frames, f.length ≤ 64
  received : x.rx = (List.range t.rxlen).map answer

theorem reads_start (answer : ℕ → UInt8) (buf : ℕ → ℕ) (rxlen : ℕ) :
    Reads answer rxlen ⟨buf, [], 0, [], rxlen⟩ :=
  ⟨by simp, by simp, by simp⟩

theorem transferData_done {t : Transaction} (ht : t.Accepted) (buf : ℕ → ℕ)
    (hfits : Fits duplex t.rxlen t.txlen) :
    ∃ x, transferData duplex answer t buf = .ok (some x) ∧ t.Done answer x := by
  have hfits' : Fits duplex t.rxlen (([] : List UInt8).length + t.tx.length) := by
    simpa using hfits
  obtain ⟨x₁, fs, hloop, hreads, hframes, hflat, hsmall⟩ :=
    txLoop_spec (pending_nil t.tx _) (reads_start answer buf t.rxlen) hfits'
  obtain ⟨x₂, hrx, hgot, hsame⟩ := rxLoop_spec le_rfl hreads
  refine ⟨x₂, ?_, ?_, ?_, hgot⟩
  · rw [transferData, if_pos ht]
    rw [List.length_nil, Nat.mul_zero] at hloop
    rw [hloop]
    change (rxLoop answer x₁.rdcount x₁ >>= fun x => pure (some x)) = _
    rw [hrx]
    rfl
  · rw [hsame, hframes, List.nil_append, hflat, List.nil_append]
  · rw [hsame, hframes]
    exact hsmall

/-- Exactly then a transaction does what was asked for, whatever the device answers. -/
theorem transferData_done_iff {t : Transaction} (ht : t.Accepted) :
    (∀ answer buf, ∃ x, transferData duplex answer t buf = .ok (some x) ∧ t.Done answer x) ↔
      Fits duplex t.rxlen t.txlen := by
  constructor
  · intro hdone
    by_contra hbad
    obtain rfl : duplex = true := by
      by_contra hd
      exact hbad (.inl (by simpa using hd))
    obtain ⟨x, hok, hx⟩ := hdone (fun _ => 1) fun _ => 0
    rw [transferData, if_pos ht] at hok
    obtain ⟨x₁, htx, hrest⟩ := Lib.bind_eq_ok.mp hok
    obtain ⟨x₂, hrx, hsome⟩ := Lib.bind_eq_ok.mp hrest
    cases hsome
    have hzero := txLoop_stale (pending_nil t.tx _) (reads_start (fun _ => 1) (fun _ => 0) t.rxlen)
      (by simpa using hbad) htx
    have hmem := (rxLoop_keeps hrx).subset hzero
    rw [hx.received] at hmem
    simp at hmem
  · intro hfits answer buf
    exact transferData_done ht buf hfits

def readBehind (n : ℕ) : Transaction where
  length := 488
  rxlength := 8 * n
  useTxdata := false
  useRxdata := false
  txbuffer := some (List.replicate 61 0)
  rxbuffer := true
  long_enough := by simp

theorem transferData_done_iff_readBehind :
    (∀ answer buf, ∃ x, transferData true answer (readBehind 61) buf = .ok (some x) ∧
      (readBehind 61).Done answer x) ∧
    ¬ ∀ answer buf, ∃ x, transferData true answer (readBehind 62) buf = .ok (some x) ∧
      (readBehind 62).Done answer x :=
  ⟨(transferData_done_iff (by decide)).mpr (by decide),
    mt (transferData_done_iff (by decide)).mp (by decide)⟩

end SpiTransfer

end AndonConsole
