import AndonConsole.Controller
import AndonConsole.TextLine

/-!
From the pixels to the wire and back.

Each function of the low level driver, on registers that are at rest, sends
transfers whose bytes say what the pixel level says, and leaves the registers
at rest; no register is touched while a transfer runs. One thing is lost on the
way: up to 21 colours are sent straight from the buffer of the peripheral, and
the last of them is not, unless their number is a multiple of four.
-/

namespace AndonConsole

open Lib (overlay Packs bufBytes wordOf)
open Controller (stream windowStream coord)

namespace SpiM

theorem pure_apply {α : Type} (a : α) (s : Spi) : (pure a : SpiM α) s = .ok (a, s) := rfl

theorem modify_apply (f : Spi → Spi) (s : Spi) : (modify f : SpiM Unit) s = .ok ((), f s) := rfl

/-! ### Registers at rest -/

/-- No transfer runs and the DMA channel is reset; `line` is whether the line buffer is
allocated. -/
structure AtRest (line : Bool) (s : Spi) : Prop where
  usr : s.usr = false
  dma : s.dma = .idle
  dma_sending : s.dma_sending = false
  trans_cline : s.trans_cline = line

/-- After `c` the bytes `out` have gone over the wire, and `Q` holds. -/
def Sends {α : Type} (c : SpiM α) (s : Spi) (out : List (Bool × UInt8)) (Q : α → Spi → Prop) :
    Prop :=
  ∃ a s', c s = .ok (a, s') ∧ (∃ ts, s'.sent = s.sent ++ ts ∧ stream ts = out) ∧ Q a s'

section Sends

variable {α β : Type} {c : SpiM α} {f : α → SpiM β} {s : Spi} {out out' : List (Bool × UInt8)}
  {Q : α → Spi → Prop} {R : β → Spi → Prop}

theorem Sends.bind (hc : Sends c s out Q)
    (hf : ∀ a s', Q a s' → Sends (f a) s' out' R) : Sends (c >>= f) s (out ++ out') R := by
  obtain ⟨a, s₁, hrun, ⟨ts, hts, rfl⟩, hQ⟩ := hc
  obtain ⟨b, s₂, hrun', ⟨us, hus, rfl⟩, hR⟩ := hf a s₁ hQ
  refine ⟨b, s₂, ?_, ⟨ts ++ us, ?_, Controller.stream_append ts us⟩, hR⟩
  · change (c s >>= fun r => f r.1 r.2) = _
    rw [hrun]
    exact hrun'
  · rw [hus, hts, List.append_assoc]

theorem Sends.bind_eq_error {e : SpiFault} (hc : Sends c s out Q)
    (hf : ∀ a s', Q a s' → f a s' = .error e) : (c >>= f) s = .error e := by
  obtain ⟨a, s', hrun, -, hQ⟩ := hc
  change (c s >>= fun r => f r.1 r.2) = _
  rw [hrun]
  exact hf a s' hQ

theorem Sends.pure {a : α} (h : Q a s) : Sends (pure a) s [] Q :=
  ⟨a, s, rfl, ⟨[], by simp, rfl⟩, h⟩

theorem Sends.imp {Q' : α → Spi → Prop} (hc : Sends c s out Q) (h : ∀ a s', Q a s' → Q' a s') :
    Sends c s out Q' := by
  obtain ⟨a, s', hrun, hsent, hQ⟩ := hc
  exact ⟨a, s', hrun, hsent, h a s' hQ⟩

theorem Sends.silent (hc : Sends c s [] Q) (hf : ∀ a s', Q a s' → Sends (f a) s' out R) :
    Sends (c >>= f) s out R :=
  hc.bind hf

theorem Sends.quiet (hc : Sends c s out Q) (hf : ∀ a s', Q a s' → Sends (f a) s' [] R) :
    Sends (c >>= f) s out R := by
  have hbind := hc.bind hf
  rwa [List.append_nil] at hbind

end Sends

/-- A transfer may run; once it is over the channel can be reset. -/
structure Finishing (line : Bool) (s : Spi) : Prop where
  dma : s.dma_sending = false → s.dma = .idle
  trans_cline : s.trans_cline = line

theorem AtRest.finishing {line : Bool} {s : Spi} (h : AtRest line s) : Finishing line s :=
  ⟨fun _ => h.dma, h.trans_cline⟩

theorem waitTransFinish_sends {line : Bool} {s : Spi} (h : Finishing line s) (free_line : Bool) :
    Sends (waitTransFinish free_line) s [] fun _ s' =>
      AtRest (line && !free_line) s' ∧ s'.dc = s.dc := by
  obtain ⟨hdma, rfl⟩ := h
  cases hsending : s.dma_sending with
  | false =>
      refine ⟨(), { s with usr := false, trans_cline := s.trans_cline && !free_line }, ?_,
        ⟨[], by simp, rfl⟩, ⟨rfl, hdma hsending, hsending, rfl⟩, rfl⟩
      simp [waitTransFinish, waitReady, bind, StateT.bind, Except.bind, modify_apply, hsending]
  | true =>
      refine ⟨(), { s with
        usr := false
        trans_cline := s.trans_cline && !free_line
        dma := .idle
        dma_sending := false }, ?_, ⟨[], by simp, rfl⟩, ⟨rfl, rfl, rfl, rfl⟩, rfl⟩
      simp [waitTransFinish, waitReady, bind, StateT.bind, Except.bind, modify_apply, hsending]

theorem dispSelect_sends {line : Bool} {s : Spi} (h : Finishing line s) :
    Sends dispSelect s [] fun _ s' => AtRest false s' := by
  refine (waitTransFinish_sends h true).imp fun _ s' hs' => ?_
  have hrest := hs'.1
  rwa [Bool.not_true, Bool.and_false] at hrest

/-! ### The window -/

def highByte (x : ℕ) : UInt8 := UInt8.ofNat (x / 256)

def lowByte (x : ℕ) : UInt8 := UInt8.ofNat x

theorem coord_bytes {x : ℕ} (h : x < 65536) : coord (highByte x) (lowByte x) = x := by
  simp only [coord, highByte, lowByte, UInt8.toNat_ofNat']
  omega

theorem toNat_highByte {x : ℕ} (h : x < 65536) : (highByte x).toNat = x >>> 8 := by
  simp only [highByte, UInt8.toNat_ofNat', Nat.shiftRight_eq_div_pow]
  omega

theorem toNat_lowByte (x : ℕ) : (lowByte x).toNat = x &&& 0xff := by
  rw [lowByte, UInt8.toNat_ofNat']
  exact (Nat.and_two_pow_sub_one_eq_mod x 8).symm

theorem addrWord_eq {a b : ℕ} (ha : a < 65536) (hb : b < 65536) :
    addrWord a b = wordOf [highByte a, lowByte a, highByte b, lowByte b] := by
  rw [Lib.wordOf_four, toNat_highByte ha, toNat_highByte hb, toNat_lowByte, toNat_lowByte,
    addrWord]

theorem waitReady_sends {s : Spi} (h : AtRest false s) :
    Sends waitReady s [] fun _ s' => AtRest false s' :=
  ⟨(), { s with usr := false }, rfl, ⟨[], by simp, rfl⟩,
    ⟨rfl, h.dma, h.dma_sending, h.trans_cline⟩⟩

theorem setDc_sends {s : Spi} (h : AtRest false s) (dc : Bool) :
    Sends (setDc dc) s [] fun _ s' => AtRest false s' ∧ s'.dc = dc := by
  refine ⟨(), { s with dc }, ?_, ⟨[], by simp, rfl⟩,
    ⟨h.usr, h.dma, h.dma_sending, h.trans_cline⟩, rfl⟩
  simp [setDc, setReg, h.usr]

def shortTransfer (dc : Bool) (wd n : ℕ) : SpiM Unit := do
  setDc dc
  setWord 0 wd
  setLen n
  start
  waitReady

/-- What is sent is the front of the word. -/
theorem shortTransfer_sends_of_bytes {s : Spi} (h : AtRest false s) (dc : Bool) {wd : ℕ}
    {bs : List UInt8} (hpos : 0 < bs.length)
    (hbytes : bufBytes (Function.update s.data_buf 0 wd) bs.length = bs) :
    Sends (shortTransfer dc wd (8 * bs.length - 1)) s (bs.map fun b => (dc, b))
      fun _ s' => AtRest false s' ∧ s'.dc = dc := by
  have hn : (8 * bs.length - 1 + 1) / 8 = bs.length := by omega
  refine ⟨(), { s with
    dc := dc
    data_buf := Function.update s.data_buf 0 wd
    usr_mosi_dbitlen := 8 * bs.length - 1
    usr := false
    sent := s.sent ++ [⟨dc, bs⟩] }, ?_, ⟨[⟨dc, bs⟩], rfl, by simp [stream]⟩,
    ⟨rfl, h.dma, h.dma_sending, h.trans_cline⟩, rfl⟩
  simp [shortTransfer, setDc, setWord, setLen, setReg, start, waitReady, bind, StateT.bind,
    Except.bind, h.usr, h.dma, hn]
  exact hbytes

theorem shortTransfer_sends {s : Spi} (h : AtRest false s) (dc : Bool) (bs : List UInt8)
    (hpos : 0 < bs.length) (hlen : bs.length ≤ 4) :
    Sends (shortTransfer dc (wordOf bs) (8 * bs.length - 1)) s (bs.map fun b => (dc, b))
      fun _ s' => AtRest false s' ∧ s'.dc = dc := by
  have hbytes := Lib.bufBytes_update s.data_buf 0 hlen
  rw [Nat.mul_zero, Nat.zero_add] at hbytes
  exact shortTransfer_sends_of_bytes h dc hpos (by simpa [bufBytes] using hbytes)

theorem transferAddrwin_sends {s : Spi} (h : AtRest false s) {x1 x2 y1 y2 : ℕ} (hx1 : x1 < 65536)
    (hx2 : x2 < 65536) (hy1 : y1 < 65536) (hy2 : y2 < 65536) :
    Sends (transferAddrwin x1 x2 y1 y2) s
      (windowStream (highByte x1) (lowByte x1) (highByte x2) (lowByte x2)
        (highByte y1) (lowByte y1) (highByte y2) (lowByte y2)) fun _ s' => AtRest false s' := by
  have hprog : transferAddrwin x1 x2 y1 y2 = (do
      waitReady
      shortTransfer false (wordOf [caset]) 7
      shortTransfer true (wordOf [highByte x1, lowByte x1, highByte x2, lowByte x2]) 31
      shortTransfer false (wordOf [paset]) 7
      shortTransfer true (wordOf [highByte y1, lowByte y1, highByte y2, lowByte y2]) 31) := by
    rw [← addrWord_eq hx1 hx2, ← addrWord_eq hy1 hy2]
    simp only [transferAddrwin, shortTransfer, bind_assoc]
    rfl
  rw [hprog]
  refine (waitReady_sends h).silent fun _ s1 h1 => ?_
  refine (shortTransfer_sends h1 false [caset] (by simp) (by simp)).bind fun _ s2 h2 => ?_
  refine (shortTransfer_sends h2.1 true [highByte x1, lowByte x1, highByte x2, lowByte x2]
    (by simp) (by simp)).bind fun _ s3 h3 => ?_
  refine (shortTransfer_sends h3.1 false [paset] (by simp) (by simp)).bind fun _ s4 h4 => ?_
  exact (shortTransfer_sends h4.1 true [highByte y1, lowByte y1, highByte y2, lowByte y2]
    (by simp) (by simp)).imp fun _ _ h5 => h5.1

theorem uint16_lt (x : ℤ) : uint16 x < 65536 := by
  rw [uint16]
  omega

theorem uint16_of_range {x : ℤ} (h0 : 0 ≤ x) (h : x < 65536) : (uint16 x : ℤ) = x := by
  rw [uint16]
  omega

/-! ### A pixel -/

def openStream (x1 x2 y1 y2 : ℤ) : List (Bool × UInt8) :=
  windowStream (highByte (uint16 x1)) (lowByte (uint16 x1)) (highByte (uint16 x2))
      (lowByte (uint16 x2)) (highByte (uint16 y1)) (lowByte (uint16 y1)) (highByte (uint16 y2))
      (lowByte (uint16 y2))

theorem open_sends {s : Spi} (h : AtRest false s) (x1 x2 y1 y2 : ℤ) :
    Sends (transferAddrwin (uint16 x1) (uint16 x2) (uint16 y1) (uint16 y2)) s
      (openStream x1 x2 y1 y2) fun _ s' => AtRest false s' :=
  transferAddrwin_sends h (uint16_lt x1) (uint16_lt x2) (uint16_lt y1) (uint16_lt y2)

theorem drawPixel_sends {s : Spi} (h : AtRest false s) (x y : ℤ) (color : Color) (sel : Bool) :
    Sends (drawPixel x y color sel) s
      (openStream x (x + 1) y (y + 1) ++ ((false, ramwr) ::
        (colorBytes [color]).map fun b => (true, b))) fun _ s' => AtRest false s' := by
  have hprog : drawPixel x y color sel = (do
      dispSelect
      transferAddrwin (uint16 x) (uint16 (x + 1)) (uint16 y) (uint16 (y + 1))
      shortTransfer false (wordOf [ramwr]) 7
      shortTransfer true (wordOf [color.r, color.g, color.b]) 23
      if sel then dispDeselect) := by
    rw [Lib.wordOf_three]
    cases sel <;> simp only [drawPixel, shortTransfer, dispSelect, bind_assoc] <;> rfl
  rw [hprog]
  refine (dispSelect_sends h.finishing).silent fun _ s1 h1 => ?_
  refine (open_sends h1 _ _ _ _).bind fun _ s2 h2 => ?_
  refine (shortTransfer_sends h2 false [ramwr] (by simp) (by simp)).bind fun _ s3 h3 => ?_
  refine (shortTransfer_sends h3.1 true [color.r, color.g, color.b] (by simp) (by simp)).quiet
    fun _ s4 h4 => ?_
  cases sel with
  | true => exact dispSelect_sends h4.1.finishing
  | false => exact Sends.pure h4.1

/-! ### Colours straight from the buffer -/

theorem ramWrite_sends {s : Spi} (h : AtRest false s) :
    Sends ramWrite s [(false, ramwr)] fun _ s' => AtRest false s' ∧ s'.dc = true := by
  have hprog : ramWrite = (do
      shortTransfer false (wordOf [ramwr]) 7
      setDc true) := by
    simp only [ramWrite, shortTransfer, bind_assoc]
    rfl
  rw [hprog]
  exact (shortTransfer_sends h false [ramwr] (by simp) (by simp)).quiet
    fun _ s1 h1 => setDc_sends h1.1 true

/-- The loop of `_direct_send` has pushed `bs`. -/
structure Direct.Holds (d : Direct) (s : Spi) (bs : List UInt8) : Prop where
  rest : AtRest false s
  dc : s.dc = true
  packs : Packs s.data_buf d.idx d.wd d.wbits bs
  bits : d.bits = 32 * d.idx

theorem Direct.Holds.push {d : Direct} {s : Spi} {bs : List UInt8} (h : d.Holds s bs)
    (hlen : bs.length < 64) (b : UInt8) :
    Sends (d.push b) s [] fun d' s' => d'.Holds s' (bs ++ [b]) := by
  have hpacked := h.packs.length_eq
  rw [Direct.push]
  by_cases hfull : d.wbits + 8 = 32
  · have hidx : d.idx < 16 := by omega
    refine ⟨⟨0, d.idx + 1, d.bits + (d.wbits + 8), 0⟩, { s with
      data_buf := Function.update s.data_buf d.idx (d.wd ||| b.toNat <<< d.wbits) }, ?_,
      ⟨[], by simp, rfl⟩, ⟨⟨h.rest.usr, h.rest.dma, h.rest.dma_sending, h.rest.trans_cline⟩, h.dc,
        h.packs.store b hfull, ?_⟩⟩
    · simp [hfull, setWord, hidx, setReg, h.rest.usr, bind, StateT.bind, Except.bind,
        pure_apply]
    · have hbits := h.bits
      change d.bits + (d.wbits + 8) = 32 * (d.idx + 1)
      omega
  · rw [if_neg hfull]
    exact Sends.pure ⟨h.rest, h.dc, h.packs.push b hfull, h.bits⟩

theorem directLoop_sends {colors : List Color} {d : Direct} {s : Spi} {bs : List UInt8}
    (h : d.Holds s bs) (hlen : bs.length + 3 * colors.length ≤ 64) :
    Sends (directLoop colors d) s [] fun d' s' => d'.Holds s' (bs ++ colorBytes colors) := by
  induction colors generalizing d s bs with
  | nil =>
      refine Sends.pure ?_
      simpa [colorBytes] using h
  | cons c colors ih =>
      simp only [List.length_cons] at hlen
      refine (h.push (by omega) c.r).silent fun d1 s1 h1 => ?_
      refine (h1.push (by simp; omega) c.g).silent fun d2 s2 h2 => ?_
      refine (h2.push (by simp; omega) c.b).silent fun d3 s3 h3 => ?_
      refine (ih h3 (by simp; omega)).imp fun d4 s4 h4 => ?_
      have hbytes : bs ++ [c.r] ++ [c.g] ++ [c.b] ++ colorBytes colors =
          bs ++ colorBytes (c :: colors) := by simp [colorBytes]
      rwa [hbytes] at h4

theorem length_colorBytes (colors : List Color) :
    (colorBytes colors).length = 3 * colors.length := by
  induction colors with
  | nil => rfl
  | cons c colors ih =>
      have hcons : colorBytes (c :: colors) = [c.r, c.g, c.b] ++ colorBytes colors := rfl
      rw [hcons, List.length_append, ih, List.length_cons]
      simp
      omega

theorem directSend_sends {s : Spi} (h : AtRest false s) (hdc : s.dc = true) (colors : List Color)
    (hlen : 3 * colors.length ≤ 64) :
    Sends (directSend colors) s
      (((colorBytes colors).take (4 * (3 * colors.length / 4))).map fun b => (true, b))
      fun _ s' => Finishing false s' := by
  have hstart : Direct.Holds ⟨0, 0, 0, 0⟩ s [] := ⟨h, hdc, Lib.packs_nil _, rfl⟩
  rw [directSend]
  refine (directLoop_sends hstart (by simpa using hlen)).silent fun d s1 h1 => ?_
  have hpacked := h1.packs.length_eq
  have hlt := h1.packs.bits_lt
  have hbits := h1.bits
  simp only [List.nil_append, length_colorBytes] at hpacked
  have hidx : 4 * (3 * colors.length / 4) = 4 * d.idx := by omega
  have hbytes := h1.packs.bufBytes_eq
  rw [List.nil_append] at hbytes
  rw [hidx, ← hbytes]
  by_cases hzero : d.bits = 0
  · have hidx0 : d.idx = 0 := by omega
    simp only [hzero, ne_eq, not_true_eq_false, if_false, hidx0]
    exact Sends.pure h1.rest.finishing
  · simp only [ne_eq, hzero, not_false_eq_true, if_true]
    have hn : (d.bits - 1 + 1) / 8 = 4 * d.idx := by omega
    refine ⟨(), { s1 with
      usr := true
      usr_mosi_dbitlen := d.bits - 1
      sent := s1.sent ++ [⟨true, bufBytes s1.data_buf (4 * d.idx)⟩] }, ?_,
      ⟨[⟨true, bufBytes s1.data_buf (4 * d.idx)⟩], rfl, by simp [stream]⟩,
      ⟨fun _ => h1.rest.dma, h1.rest.trans_cline⟩⟩
    simp [waitReady, setLen, setReg, start, bind, StateT.bind, Except.bind, h1.rest.dma, hn,
      h1.dc]

/-! ### Colours by DMA -/

theorem descLinks_nil : descLinks [] = [] := by
  rw [descLinks]
  rfl

theorem descLinks_of_ne_nil {data : List UInt8} (h : data ≠ []) :
    descLinks data = ⟨data.take maxDmaLen, false⟩ :: descLinks (data.drop maxDmaLen) := by
  rw [descLinks, if_neg h]

theorem length_descLinks (data : List UInt8) :
    (descLinks data).length = (data.length + 4091) / 4092 := by
  induction data using descLinks.induct with
  | case1 => simp [descLinks_nil]
  | case2 data h ih =>
      have hpos := List.length_pos_of_ne_nil h
      rw [descLinks_of_ne_nil h, List.length_cons, ih, List.length_drop, maxDmaLen]
      omega

theorem markEof_cons {chain : List DmaDesc} (h : chain ≠ []) (d : DmaDesc) :
    markEof (d :: chain) = d :: markEof chain := by
  cases chain with
  | nil => exact absurd rfl h
  | cons e chain => rfl

theorem chainBytes_markEof_descLinks (data : List UInt8) :
    chainBytes (markEof (descLinks data)) = data := by
  induction data using descLinks.induct with
  | case1 => rw [descLinks_nil]; rfl
  | case2 data h ih =>
      rw [descLinks_of_ne_nil h]
      by_cases hrest : data.drop maxDmaLen = []
      · have htake : data.take maxDmaLen = data :=
          List.take_of_length_le (List.drop_eq_nil_iff.mp hrest)
        rw [hrest, descLinks_nil, markEof, htake]
        rfl
      · have hne : descLinks (data.drop maxDmaLen) ≠ [] := by
          rw [descLinks_of_ne_nil hrest]
          simp
        rw [markEof_cons hne, chainBytes, if_neg (by simp), ih, List.take_append_drop]

theorem dmaSend_sends {line : Bool} {s : Spi} (h : AtRest line s) {ct : ℕ} {data : List UInt8}
    (hne : data ≠ []) (hct : data.length ≤ 4092 * ct) :
    Sends (dmaSend ct data) s (data.map fun b => (s.dc, b)) fun _ s' =>
      Finishing line s' ∧ s'.dc = s.dc := by
  have hpos := List.length_pos_of_ne_nil hne
  have hlinks : 0 < (descLinks data).length ∧ (descLinks data).length ≤ ct := by
    rw [length_descLinks]
    omega
  have hn : (data.length * 8 - 1 + 1) / 8 = data.length := by omega
  refine ⟨(), { s with
    dma := .used
    usr_mosi_dbitlen := data.length * 8 - 1
    dma_sending := true
    usr := true
    sent := s.sent ++ [⟨s.dc, data⟩] }, ?_, ⟨[⟨s.dc, data⟩], rfl, by simp [stream]⟩,
    ⟨by simp, h.trans_cline⟩, rfl⟩
  simp only [dmaSend, setupDmaDescLinks, if_pos hlinks]
  simp [setReg, setLen, start, modify_apply, bind, StateT.bind, Except.bind, pure_apply, h.usr, hn,
    chainBytes_markEof_descLinks]

theorem colorBytes_ne_nil {colors : List Color} (h : colors ≠ []) : colorBytes colors ≠ [] := by
  intro hnil
  have hlen := congrArg List.length hnil
  rw [length_colorBytes, List.length_nil] at hlen
  have hpos := List.length_pos_of_ne_nil h
  omega

theorem colorBytes_append (colors colors' : List Color) :
    colorBytes (colors ++ colors') = colorBytes colors ++ colorBytes colors' := by
  simp [colorBytes]

theorem repLoop_sends {ct n : ℕ} {color : Color} (hn : 0 < n) (hct : 3 * n ≤ 4092 * ct)
    {fuel to_send : ℕ} (hfuel : to_send < fuel) {s : Spi} (h : Finishing true s)
    (hdc : s.dc = true) :
    Sends (repLoop ct (.replicate n color) fuel to_send) s
      ((colorBytes (.replicate to_send color)).map fun b => (true, b))
      fun _ s' => Finishing true s' := by
  induction fuel generalizing to_send s with
  | zero => omega
  | succ fuel ih =>
      rw [repLoop]
      by_cases hzero : to_send = 0
      · subst hzero
        exact Sends.pure h
      · rw [if_neg hzero]
        refine (waitTransFinish_sends h false).silent fun _ s1 h1 => ?_
        have hline : (List.replicate n color).take to_send =
            .replicate (min to_send n) color := List.take_replicate
        have hsplit : colorBytes (.replicate to_send color) =
            colorBytes (.replicate (min to_send n) color) ++
              colorBytes (.replicate (to_send - n) color) := by
          rw [← colorBytes_append, ← List.replicate_add]
          congr 2
          omega
        have hne : List.replicate (min to_send n) color ≠ [] := by
          rw [ne_eq, List.replicate_eq_nil_iff]
          omega
        have hlen : (colorBytes (.replicate (min to_send n) color)).length ≤ 4092 * ct := by
          rw [length_colorBytes, List.length_replicate]
          omega
        have hsend := dmaSend_sends h1.1 (colorBytes_ne_nil hne) hlen
        rw [h1.2, hdc] at hsend
        rw [hline, hsplit, List.map_append, List.length_replicate]
        exact hsend.bind fun _ s2 h2 => ih (by omega) h2.1 h2.2

/-! ### The three ways to draw -/

def delivered (len : ℕ) : ℕ := if len * 24 ≤ 512 ∧ ¬ 4 ∣ len then len - 1 else len

theorem delivered_le (len : ℕ) : delivered len ≤ len := by
  rw [delivered]
  split <;> omega

theorem take_colorBytes {colors : List Color} {k : ℕ} (hk : k ≤ colors.length) (r : ℕ) :
    (colorBytes colors).take (3 * k + r) =
      colorBytes (colors.take k) ++ (colorBytes (colors.drop k)).take r := by
  have hlen : (colorBytes (colors.take k)).length = 3 * k := by
    rw [length_colorBytes, List.length_take]
    omega
  have hsplit : colorBytes colors = colorBytes (colors.take k) ++ colorBytes (colors.drop k) := by
    rw [← colorBytes_append, List.take_append_drop]
  rw [hsplit, ← hlen, List.take_length_add_append]

/-- The bytes that are sent for colours: straight from the buffer full words only. -/
def sentBytes (colors : List Color) : List UInt8 :=
  if colors.length * 24 ≤ 512 then (colorBytes colors).take (4 * (3 * colors.length / 4))
  else colorBytes colors

/-- They are those of the colours that arrive, and less than a colour. -/
theorem sentBytes_eq (colors : List Color) : ∃ rest : List UInt8, rest.length < 3 ∧
    sentBytes colors = colorBytes (colors.take (delivered colors.length)) ++ rest := by
  by_cases h : colors.length * 24 ≤ 512
  · have hle := delivered_le colors.length
    have hsum : ∃ r < 3, 4 * (3 * colors.length / 4) = 3 * delivered colors.length + r := by
      by_cases hdvd : 4 ∣ colors.length
      · refine ⟨0, by omega, ?_⟩
        rw [delivered, if_neg (by simp [hdvd])]
        omega
      · refine ⟨4 * (3 * colors.length / 4) - 3 * (colors.length - 1), by omega, ?_⟩
        rw [delivered, if_pos ⟨h, hdvd⟩]
        omega
    obtain ⟨r, hr, hsum⟩ := hsum
    refine ⟨(colorBytes (colors.drop (delivered colors.length))).take r, ?_, ?_⟩
    · rw [List.length_take]
      omega
    · rw [sentBytes, if_pos h, hsum, take_colorBytes hle]
  · refine ⟨[], by simp, ?_⟩
    rw [sentBytes, if_neg h, delivered, if_neg (by simp [h]), List.take_length, List.append_nil]

/-- The bytes after the window is open: nothing for no colours. -/
def fillStream (colors : List Color) : List (Bool × UInt8) :=
  if colors = [] then [] else (false, ramwr) :: (sentBytes colors).map fun b => (true, b)

theorem pushColors_sends {s : Spi} (h : AtRest false s) {ct : ℕ} {colors : List Color}
    (hct : 3 * colors.length ≤ 4092 * ct) :
    Sends (pushColors ct colors) s (fillStream colors) fun _ s' => Finishing false s' := by
  by_cases hnil : colors = []
  · subst hnil
    exact Sends.pure h.finishing
  · have hpos := List.length_pos_of_ne_nil hnil
    rw [pushColors, if_neg (by omega), fillStream, if_neg hnil, sentBytes]
    by_cases hsmall : colors.length * 24 ≤ 512
    · rw [if_pos hsmall, if_pos hsmall]
      exact (ramWrite_sends h).bind fun _ s1 h1 =>
        directSend_sends h1.1 h1.2 colors (by omega)
    · rw [if_neg hsmall, if_neg hsmall]
      refine (ramWrite_sends h).bind fun _ s1 h1 => ?_
      have hlen : (colorBytes colors).length ≤ 4092 * ct := by rwa [length_colorBytes]
      have hsend := dmaSend_sends h1.1 (colorBytes_ne_nil hnil) hlen
      rw [h1.2] at hsend
      exact hsend.imp fun _ _ h2 => h2.1

/-- A buffer that the descriptors do not suffice for: the chain is written behind its table. -/
theorem pushColors_eq_error {s : Spi} (h : AtRest false s) {ct : ℕ} (hpos : 0 < ct)
    {colors : List Color} (hct : 4092 * ct < 3 * colors.length) :
    pushColors ct colors s = .error .dmaDesc := by
  rw [pushColors, if_neg (by omega)]
  refine (ramWrite_sends h).bind_eq_error fun _ s1 _ => ?_
  have hlinks : ¬ (0 < (descLinks (colorBytes colors)).length ∧
      (descLinks (colorBytes colors)).length ≤ ct) := by
    rw [length_descLinks, length_colorBytes]
    omega
  rw [if_neg (by omega)]
  simp only [dmaSend, setupDmaDescLinks, if_neg hlinks]
  rfl

theorem pushColorRep_sends {s : Spi} (h : AtRest false s) {ct tft_width : ℕ}
    (hwidth : 0 < tft_width) (hct : 6 * tft_width ≤ 4092 * ct) (color : Color) {len : ℕ}
    {alloc : Bool} (halloc : len * 24 ≤ 512 ∨ alloc = true) :
    Sends (pushColorRep ct tft_width alloc color len) s (fillStream (.replicate len color))
      fun _ s' => Finishing false s' := by
  by_cases hzero : len = 0
  · subst hzero
    exact Sends.pure h.finishing
  · have hnil : List.replicate len color ≠ [] := by
      rwa [ne_eq, List.replicate_eq_nil_iff]
    rw [pushColorRep, if_neg hzero, fillStream, if_neg hnil, sentBytes]
    have hlength : (List.replicate len color).length = len := List.length_replicate
    by_cases hsmall : len * 24 ≤ 512
    · rw [if_pos hsmall, hlength, if_pos hsmall]
      refine (ramWrite_sends h).bind fun _ s1 h1 => ?_
      have hdirect := directSend_sends h1.1 h1.2 (.replicate len color) (by omega)
      rw [hlength] at hdirect
      refine hdirect.quiet fun _ s2 h2 => ?_
      exact (dispSelect_sends h2).imp fun _ _ h3 => h3.finishing
    · rw [if_neg hsmall, hlength, if_neg hsmall, if_pos (halloc.resolve_left hsmall)]
      refine (ramWrite_sends h).bind fun _ s1 h1 => ?_
      have hcline : Sends (modify fun s : Spi => { s with trans_cline := true }) s1 []
          fun _ s2 => Finishing true s2 ∧ s2.dc = true :=
        ⟨(), { s1 with trans_cline := true }, rfl, ⟨[], by simp, rfl⟩,
          ⟨fun _ => h1.1.dma, rfl⟩, h1.2⟩
      refine hcline.silent fun _ s2 h2 => ?_
      have hline : 0 < if len > tft_width * 2 then tft_width * 2 else len := by
        split <;> omega
      have hfit : 3 * (if len > tft_width * 2 then tft_width * 2 else len) ≤ 4092 * ct := by
        split <;> omega
      refine (repLoop_sends hline hfit (Nat.lt_succ_self len) h2.1 h2.2).quiet fun _ s3 h3 => ?_
      exact (dispSelect_sends h3).imp fun _ _ h4 => h4.finishing

/-- Without a line buffer the command goes out alone. -/
theorem pushColorRep_sends_of_noAlloc {s : Spi} (h : AtRest false s) {ct tft_width : ℕ}
    {color : Color} {len : ℕ} (hlarge : ¬ len * 24 ≤ 512) :
    Sends (pushColorRep ct tft_width false color len) s [(false, ramwr)]
      fun _ s' => Finishing false s' := by
  rw [pushColorRep, if_neg (by omega)]
  refine (ramWrite_sends h).quiet fun _ s1 h1 => ?_
  rw [if_neg hlarge]
  exact Sends.pure h1.1.finishing

/-! ### What the panel makes of it -/

/-- A window that the panel has, in 16 bits. -/
structure Window (x1 y1 x2 y2 : ℤ) : Prop where
  x1_nonneg : 0 ≤ x1
  x1_le : x1 ≤ x2
  x2_lt : x2 < 65536
  y1_nonneg : 0 ≤ y1
  y1_le : y1 ≤ y2
  y2_lt : y2 < 65536

theorem Window.fills {x1 y1 x2 y2 : ℤ} (h : Window x1 y1 x2 y2) (c : Controller)
    (colors : List Color) (rest : List UInt8) (hrest : rest.length < 3) :
    ((openStream x1 x2 y1 y2 ++ (false, ramwr) ::
        (colorBytes colors ++ rest).map fun b => (true, b)).foldl Controller.receive c).pixels =
      overlay (AndonConsole.sendData x1 y1 x2 y2 colors) c.pixels := by
  obtain ⟨hx1, hx, hx2, hy1, hy, hy2⟩ := h
  rw [List.foldl_append, openStream, Controller.foldl_windowStream, List.foldl_cons,
    coord_bytes (uint16_lt x1), coord_bytes (uint16_lt x2), coord_bytes (uint16_lt y1),
    coord_bytes (uint16_lt y2)]
  refine (Controller.Filling.colors (n := 0) ⟨rfl, rfl, rfl⟩ colors hrest).trans ?_
  have hx1' := uint16_of_range hx1 (by omega)
  have hx2' := uint16_of_range (by omega) hx2
  have hy1' := uint16_of_range hy1 (by omega)
  have hy2' := uint16_of_range (by omega) hy2
  congr 1
  simp only [Controller.fills, Controller.place, Controller.receive, AndonConsole.sendData,
    Bool.false_eq_true, if_false, hx1', hx2', hy1', hy2']

theorem openStream_pixels (x1 x2 y1 y2 : ℤ) (c : Controller) :
    ((openStream x1 x2 y1 y2).foldl Controller.receive c).pixels = c.pixels := by
  rw [openStream, Controller.foldl_windowStream]

theorem Window.fillStream {x1 y1 x2 y2 : ℤ} (h : Window x1 y1 x2 y2) (c : Controller)
    (colors : List Color) :
    ((openStream x1 x2 y1 y2 ++ SpiM.fillStream colors).foldl Controller.receive c).pixels =
      overlay (AndonConsole.sendData x1 y1 x2 y2 (colors.take (delivered colors.length)))
        c.pixels := by
  by_cases hnil : colors = []
  · subst hnil
    rw [SpiM.fillStream, if_pos rfl, List.append_nil, openStream_pixels]
    rfl
  · obtain ⟨rest, hrest, hbytes⟩ := sentBytes_eq colors
    rw [SpiM.fillStream, if_neg hnil, hbytes]
    exact h.fills c _ rest hrest

end SpiM

/-! ### Any drawing -/

/-- What the functions of `tft.c` ask of the driver. -/
inductive Draw
  | colors (x1 y1 x2 y2 : ℤ) (colors : List Color)
  | fill (alloc : Bool) (x1 y1 x2 y2 : ℤ) (color : Color) (len : ℕ)
  | pixel (x y : ℤ) (color : Color) (sel : Bool)

namespace Draw

open SpiM

def run (ct tft_width : ℕ) : Draw → SpiM Unit
  | colors x1 y1 x2 y2 cs => SpiM.sendData ct x1 y1 x2 y2 cs
  | fill alloc x1 y1 x2 y2 color len =>
      SpiM.tftPushColorRep ct tft_width alloc x1 y1 x2 y2 color len
  | pixel x y color sel => SpiM.drawPixel x y color sel

def pixels : Draw → List PixelWrite
  | colors x1 y1 x2 y2 cs => AndonConsole.sendData x1 y1 x2 y2 cs
  | fill alloc x1 y1 x2 y2 color len => AndonConsole.tftPushColorRep alloc x1 y1 x2 y2 color len
  | pixel x y color _ => AndonConsole.sendData x y (x + 1) (y + 1) [color]

/-- The drawing without the colours that do not arrive. -/
def arriving : Draw → Draw
  | colors x1 y1 x2 y2 cs => colors x1 y1 x2 y2 (cs.take (delivered cs.length))
  | fill alloc x1 y1 x2 y2 color len => fill alloc x1 y1 x2 y2 color (delivered len)
  | pixel x y color sel => pixel x y color sel

def InWindow : Draw → Prop
  | colors x1 y1 x2 y2 _ => Window x1 y1 x2 y2
  | fill _ x1 y1 x2 y2 _ _ => Window x1 y1 x2 y2
  | pixel x y _ _ => Window x y (x + 1) (y + 1)

/-- The descriptors suffice for the buffer, which the driver does not check. -/
def Fits (ct : ℕ) : Draw → Prop
  | colors _ _ _ _ cs => 3 * cs.length ≤ 4092 * ct
  | fill _ _ _ _ _ _ _ => True
  | pixel _ _ _ _ => True

structure InRange (ct : ℕ) (d : Draw) : Prop where
  inWindow : d.InWindow
  fits : d.Fits ct

def runAll (ct tft_width : ℕ) : List Draw → SpiM Unit
  | [] => return
  | d :: ds => do
      d.run ct tft_width
      runAll ct tft_width ds

theorem pixels_fill_arriving (alloc : Bool) (x1 y1 x2 y2 : ℤ) (color : Color) (len : ℕ) :
    (arriving (fill alloc x1 y1 x2 y2 color len)).pixels =
      if len * 24 ≤ 512 ∨ alloc = true then
        AndonConsole.sendData x1 y1 x2 y2
          ((List.replicate len color).take (delivered (List.replicate len color).length))
      else [] := by
  have hle := delivered_le len
  rw [List.length_replicate, List.take_replicate, Nat.min_eq_left hle, arriving, pixels,
    AndonConsole.tftPushColorRep]
  by_cases hsmall : len * 24 ≤ 512
  · rw [if_pos (by omega), if_pos (.inl hsmall)]
  · have hall : delivered len = len := by rw [delivered, if_neg (by simp [hsmall])]
    rw [hall, if_neg hsmall]
    cases alloc <;> simp [hsmall]

variable {ct tft_width : ℕ}

theorem run_sends (hwidth : 0 < tft_width) (hct : 6 * tft_width ≤ 4092 * ct) {d : Draw}
    (hd : d.InRange ct) {s : Spi} (hs : AtRest false s) : ∃ out,
      Sends (d.run ct tft_width) s out (fun _ s' => AtRest false s') ∧
      ∀ c : Controller, (out.foldl Controller.receive c).pixels =
        overlay d.arriving.pixels c.pixels := by
  obtain ⟨hwindow, hlen⟩ := hd
  cases d with
  | colors x1 y1 x2 y2 cs =>
      refine ⟨openStream x1 x2 y1 y2 ++ fillStream cs, ?_, fun c => hwindow.fillStream c cs⟩
      refine (dispSelect_sends hs.finishing).silent fun _ s1 h1 => ?_
      refine (open_sends h1 _ _ _ _).bind fun _ s2 h2 => ?_
      exact (pushColors_sends h2 hlen).quiet fun _ s3 h3 => dispSelect_sends h3
  | fill alloc x1 y1 x2 y2 color len =>
      by_cases halloc : len * 24 ≤ 512 ∨ alloc = true
      · refine ⟨openStream x1 x2 y1 y2 ++ fillStream (.replicate len color), ?_, fun c => ?_⟩
        · refine (dispSelect_sends hs.finishing).silent fun _ s1 h1 => ?_
          refine (open_sends h1 _ _ _ _).bind fun _ s2 h2 => ?_
          exact (pushColorRep_sends h2 hwidth hct color halloc).quiet
            fun _ s3 h3 => dispSelect_sends h3
        · rw [pixels_fill_arriving, if_pos halloc]
          exact hwindow.fillStream c _
      · obtain ⟨hlarge, hfalse⟩ := not_or.mp halloc
        rw [Bool.not_eq_true] at hfalse
        subst hfalse
        refine ⟨openStream x1 x2 y1 y2 ++ [(false, ramwr)], ?_, fun c => ?_⟩
        · refine (dispSelect_sends hs.finishing).silent fun _ s1 h1 => ?_
          refine (open_sends h1 _ _ _ _).bind fun _ s2 h2 => ?_
          exact (pushColorRep_sends_of_noAlloc h2 hlarge).quiet fun _ s3 h3 => dispSelect_sends h3
        · rw [pixels_fill_arriving, if_neg halloc]
          exact hwindow.fills c [] [] (by simp)
  | pixel x y color sel =>
      refine ⟨_, drawPixel_sends hs x y color sel, fun c => ?_⟩
      have hfills := hwindow.fills c [color] [] (by simp)
      rw [List.append_nil] at hfills
      exact hfills

theorem runAll_sends (hwidth : 0 < tft_width) (hct : 6 * tft_width ≤ 4092 * ct) (ds : List Draw)
    (hds : ∀ d ∈ ds, d.InRange ct) {s : Spi} (hs : AtRest false s) :
    ∃ s' ts, runAll ct tft_width ds s = .ok ((), s') ∧ AtRest false s' ∧ s'.sent = s.sent ++ ts ∧
      ∀ c : Controller, (c.receiveAll ts).pixels =
        overlay (ds.flatMap fun d => d.arriving.pixels) c.pixels := by
  induction ds generalizing s with
  | nil => exact ⟨s, [], rfl, hs, by simp, fun c => rfl⟩
  | cons d ds ih =>
      obtain ⟨out, ⟨_, s1, hrun1, ⟨ts1, hts1, rfl⟩, hs1⟩, hshow1⟩ :=
        run_sends hwidth hct (hds d (by simp)) hs
      obtain ⟨s2, ts2, hrun2, hs2, hts2, hshow2⟩ :=
        ih (fun d' hd' => hds d' (by simp [hd'])) hs1
      refine ⟨s2, ts1 ++ ts2, ?_, hs2, by rw [hts2, hts1, List.append_assoc], fun c => ?_⟩
      · change (d.run ct tft_width s >>= fun r => runAll ct tft_width ds r.2) = _
        rw [hrun1]
        exact hrun2
      · rw [Controller.receiveAll_append, hshow2, Controller.receiveAll, hshow1,
          List.flatMap_cons, Lib.overlay_append]

theorem run_eq_error (hct : 0 < ct) {d : Draw} (hd : ¬ d.Fits ct) {s : Spi}
    (hs : AtRest false s) : d.run ct tft_width s = .error .dmaDesc := by
  cases d with
  | colors x1 y1 x2 y2 cs =>
      have hlarge : 4092 * ct < 3 * cs.length := not_le.mp hd
      refine (dispSelect_sends hs.finishing).bind_eq_error fun _ s1 h1 => ?_
      refine (open_sends h1 _ _ _ _).bind_eq_error fun _ s2 h2 => ?_
      change (pushColors ct cs s2 >>= _) = _
      rw [pushColors_eq_error h2 hct hlarge]
      rfl
  | fill alloc x1 y1 x2 y2 color len => exact absurd trivial hd
  | pixel x y color sel => exact absurd trivial hd

theorem runAll_eq_error (hwidth : 0 < tft_width) (hct : 6 * tft_width ≤ 4092 * ct)
    {ds : List Draw} (hds : ∀ d ∈ ds, d.InWindow) (hfit : ∃ d ∈ ds, ¬ d.Fits ct) {s : Spi}
    (hs : AtRest false s) : runAll ct tft_width ds s = .error .dmaDesc := by
  induction ds generalizing s with
  | nil => simp at hfit
  | cons d ds ih =>
      change (d.run ct tft_width s >>= fun r => runAll ct tft_width ds r.2) = _
      by_cases hd : d.Fits ct
      · obtain ⟨out, ⟨_, s1, hrun, -, hs1⟩, -⟩ :=
          run_sends hwidth hct ⟨hds d List.mem_cons_self, hd⟩ hs
        rw [hrun]
        refine ih (fun d' hd' => hds d' (List.mem_cons_of_mem _ hd')) ?_ hs1
        obtain ⟨d', hd', hnot⟩ := hfit
        rcases List.mem_cons.mp hd' with rfl | hd'
        · exact absurd hd hnot
        · exact ⟨d', hd', hnot⟩
      · rw [run_eq_error (by omega) hd hs]
        rfl

def atReset : Spi where
  data_buf _ := 0
  usr_mosi_dbitlen := 0
  dc := false
  usr := false
  dma := .idle
  dma_sending := false
  trans_cline := false
  sent := []

theorem atRest_atReset : AtRest false atReset := ⟨rfl, rfl, rfl, rfl⟩

def Complete : Draw → Prop
  | colors _ _ _ _ cs => 512 < cs.length * 24 ∨ 4 ∣ cs.length
  | fill _ _ _ _ _ _ len => 512 < len * 24 ∨ 4 ∣ len
  | pixel _ _ _ _ => True

def HasRoom : Draw → Prop
  | colors x1 y1 x2 y2 cs => (cs.length : ℤ) ≤ (x2 - x1 + 1) * (y2 - y1 + 1)
  | fill _ x1 y1 x2 y2 _ len => (len : ℤ) ≤ (x2 - x1 + 1) * (y2 - y1 + 1)
  | pixel _ _ _ _ => True

theorem delivered_eq_self_iff {len : ℕ} : delivered len = len ↔ 512 < len * 24 ∨ 4 ∣ len := by
  rw [delivered]
  split <;> omega

theorem arriving_eq_self {d : Draw} (h : d.Complete) : d.arriving = d := by
  cases d with
  | colors x1 y1 x2 y2 cs => rw [arriving, delivered_eq_self_iff.mpr h, List.take_length]
  | fill alloc x1 y1 x2 y2 color len => rw [arriving, delivered_eq_self_iff.mpr h]
  | pixel x y color sel => rfl

theorem sendData_concat (x1 y1 x2 y2 : ℤ) (colors : List Color) (color : Color) :
    AndonConsole.sendData x1 y1 x2 y2 (colors ++ [color]) =
      AndonConsole.sendData x1 y1 x2 y2 colors ++
        [((x1 + (colors.length : ℤ) % (x2 - x1 + 1),
          y1 + (colors.length : ℤ) / (x2 - x1 + 1) % (y2 - y1 + 1)), color)] := by
  simp [AndonConsole.sendData, List.zipIdx_append]

/-- The last of the colours that fit is seen. -/
theorem exists_overlay_ne {x1 y1 x2 y2 : ℤ} (hx : x1 ≤ x2) {colors : List Color} {color : Color}
    (hroom : (colors.length : ℤ) < (x2 - x1 + 1) * (y2 - y1 + 1)) :
    ∃ f, overlay (AndonConsole.sendData x1 y1 x2 y2 colors) f ≠
      overlay (AndonConsole.sendData x1 y1 x2 y2 (colors ++ [color])) f := by
  obtain ⟨other, hother⟩ := exists_ne color
  refine ⟨fun _ => other, fun heq => hother ?_⟩
  have hplace := congrFun heq (x1 + (colors.length : ℤ) % (x2 - x1 + 1),
    y1 + (colors.length : ℤ) / (x2 - x1 + 1) % (y2 - y1 + 1))
  rw [sendData_concat, Lib.overlay_append, Lib.overlay_cons, Lib.overlay_nil,
    Function.update_self] at hplace
  refine Eq.trans ?_ hplace
  rw [Lib.overlay_of_notMem]
  intro hmem
  simp only [AndonConsole.sendData, List.map_map, List.mem_map, Function.comp_apply,
    Prod.mk.injEq] at hmem
  obtain ⟨⟨c, k⟩, hk, hmod, hdiv⟩ := hmem
  have hlt : k < colors.length := (List.mem_zipIdx' hk).1
  have hk_eq : (k : ℤ) = colors.length := by
    apply place_injective (w := x2 - x1 + 1) (h := y2 - y1 + 1) (by omega) (by omega) (by omega)
      hroom (by omega)
    · exact add_left_cancel hmod
    · exact add_left_cancel hdiv
  omega

theorem exists_arriving_ne {x1 y1 x2 y2 : ℤ} (hx : x1 ≤ x2) {colors : List Color}
    (hshort : ¬ (512 < colors.length * 24 ∨ 4 ∣ colors.length))
    (hroom : (colors.length : ℤ) ≤ (x2 - x1 + 1) * (y2 - y1 + 1)) :
    ∃ f, overlay (AndonConsole.sendData x1 y1 x2 y2 (colors.take (delivered colors.length))) f ≠
      overlay (AndonConsole.sendData x1 y1 x2 y2 colors) f := by
  have hne : colors ≠ [] := by
    rintro rfl
    exact hshort (.inr (by simp))
  obtain ⟨init, last, rfl⟩ : ∃ init last, colors = init ++ [last] :=
    ⟨_, _, (List.dropLast_append_getLast hne).symm⟩
  have hlen : (init ++ [last]).length = init.length + 1 := by simp
  have hdelivered : delivered (init ++ [last]).length = init.length := by
    rw [delivered, if_pos (by omega), hlen, Nat.add_sub_cancel]
  rw [hdelivered, List.take_left]
  apply exists_overlay_ne hx
  rw [hlen] at hroom
  omega

/-- On every picture a drawing comes out as the pixel level says exactly if it is complete. -/
theorem arriving_shows_iff {d : Draw} (hd : d.InWindow) (hroom : d.HasRoom) :
    (∀ f, overlay d.arriving.pixels f = overlay d.pixels f) ↔ d.Complete := by
  cases d with
  | colors x1 y1 x2 y2 cs =>
      constructor
      · intro hall
        by_contra hshort
        obtain ⟨f, hf⟩ := exists_arriving_ne hd.x1_le hshort hroom
        exact hf (hall f)
      · intro hcomplete f
        rw [arriving_eq_self hcomplete]
  | fill alloc x1 y1 x2 y2 color len =>
      constructor
      · intro hall
        by_contra hshort
        have hsmall : len * 24 ≤ 512 := by
          rw [Complete] at hshort
          omega
        have hlen : (List.replicate len color).length = len := List.length_replicate
        rw [← hlen] at hshort hroom
        obtain ⟨f, hf⟩ := exists_arriving_ne hd.x1_le hshort hroom
        apply hf
        have hf' := hall f
        rwa [pixels_fill_arriving, if_pos (.inl hsmall), pixels, AndonConsole.tftPushColorRep,
          if_pos hsmall] at hf'
      · intro hcomplete f
        rw [arriving_eq_self hcomplete]
  | pixel x y color sel => exact ⟨fun _ => trivial, fun _ _ => rfl⟩

end Draw

end AndonConsole
