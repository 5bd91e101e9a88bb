import AndonConsole.Tft
import AndonConsole.Lib.Words

/-!
The display by bytes.

The low level driver: every function puts words in the buffer of the SPI
peripheral or hands it a chain of DMA descriptors, sets the length, and starts
a transfer, which runs on its own until the driver waits for it. The registers
are a state, and what has gone over the wire is part of it: one entry for a
transfer, with the level of the D/C pin. A register that is written while a
transfer runs, a word behind the buffer, a descriptor behind its table, a
transfer over a DMA channel that was not reset and a byte behind a table of
commands are faults. The grayscale conversion, which the console has switched
off, is left out.
-/

namespace AndonConsole

open Lib (bufBytes)

inductive SpiFault
  | busy
  | dataBuf
  | dmaDesc
  | staleDma
  | tableEnd
  | stuck
  deriving DecidableEq, Repr

/-- What one transfer puts on the wire; `dc` is high for data. -/
structure Transfer where
  dc : Bool
  bytes : List UInt8
  deriving DecidableEq

/-- `lldesc_t`: a piece of a buffer. -/
structure DmaDesc where
  data : List UInt8
  eof : Bool

inductive Dma
  | idle
  | armed (chain : List DmaDesc)
  | used

/-- The registers of the peripheral and the globals of the driver. -/
structure Spi where
  data_buf : ℕ → ℕ
  usr_mosi_dbitlen : ℕ
  dc : Bool
  usr : Bool
  dma : Dma
  dma_sending : Bool
  trans_cline : Bool
  sent : List Transfer

abbrev SpiM (α : Type) := StateT Spi (Except SpiFault) α

namespace SpiM

/-! ### The registers -/

/-- `while (hw->cmd.usr);` -/
def waitReady : SpiM Unit := fun s => .ok ((), { s with usr := false })

/-- Write a register: no transfer may be running. -/
def setReg (f : Spi → Spi) : SpiM Unit := fun s =>
  if s.usr then .error .busy else .ok ((), f s)

def setDc (level : Bool) : SpiM Unit := setReg fun s => { s with dc := level }

def setLen (n : ℕ) : SpiM Unit := setReg fun s => { s with usr_mosi_dbitlen := n }

/-- `data_buf[idx] = wd`, of 16 words. -/
def setWord (idx wd : ℕ) : SpiM Unit :=
  if idx < 16 then setReg fun s => { s with data_buf := Function.update s.data_buf idx wd }
  else fun _ => .error .dataBuf

/-- The bytes of a chain, up to the descriptor that ends the stream. -/
def chainBytes : List DmaDesc → List UInt8
  | [] => []
  | d :: chain => if d.eof then d.data else d.data ++ chainBytes chain

/-- `hw->cmd.usr = 1`: the bytes come from the DMA channel if it was set up, and from the
buffer if not. -/
def start : SpiM Unit := fun s =>
  if s.usr then .error .busy
  else
    let n := (s.usr_mosi_dbitlen + 1) / 8
    match s.dma with
    | .idle => .ok ((), { s with usr := true, sent := s.sent ++ [⟨s.dc, bufBytes s.data_buf n⟩] })
    | .armed chain =>
        .ok ((), { s with
          usr := true
          dma := .used
          sent := s.sent ++ [⟨s.dc, (chainBytes chain).take n⟩] })
    | .used => .error .staleDma

/-! ### `tftspi.c` -/

/-- A finished DMA transfer leaves a channel that has to be reset. -/
def waitTransFinish (free_line : Bool) : SpiM Unit := do
  waitReady
  modify fun s => { s with trans_cline := s.trans_cline && !free_line }
  modify fun s =>
    if s.dma_sending then { s with dma := .idle, dma_sending := false } else s

def dispSelect : SpiM Unit := waitTransFinish true

def dispDeselect : SpiM Unit := waitTransFinish true

/-- `_spi_transfer_start`, with nothing to read. -/
def transferStart (wrbits : ℕ) : SpiM Unit := do
  setLen (wrbits - 1)
  start
  waitReady

/-- The loop of `disp_spi_transfer_cmd_data`; it returns the bits that are still to be sent. -/
def cmdDataLoop : List UInt8 → ℕ → ℕ → ℕ → ℕ → SpiM ℕ
  | [], _, _, bits, _ => return bits
  | b :: rest, idx, bidx, bits, wd => do
      let wd := wd ||| b.toNat <<< bidx
      let bits := bits + 8
      let bidx := bidx + 8
      if rest = [] then
        setWord idx wd
        return bits
      else if bidx = 32 then
        setWord idx wd
        if idx + 1 = 16 then
          -- the buffer is full
          transferStart bits
          cmdDataLoop rest 0 0 0 0
        else cmdDataLoop rest (idx + 1) 0 bits 0
      else cmdDataLoop rest idx bidx bits wd

/-- `(uint32_t)cmd` of an `int8_t`. -/
def cmdWord (cmd : UInt8) : ℕ := if cmd.toNat < 128 then cmd.toNat else cmd.toNat + (2 ^ 32 - 256)

def transferCmdData (cmd : UInt8) (data : List UInt8) : SpiM Unit := do
  waitReady
  setDc false
  setWord 0 (cmdWord cmd)
  transferStart 8
  if data = [] then return
  setDc true
  let bits ← cmdDataLoop data 0 0 0 0
  if bits > 0 then transferStart bits

def caset : UInt8 := 0x2A

def paset : UInt8 := 0x2B

def ramwr : UInt8 := 0x2C

/-- Two 16-bit coordinates, the high byte of each first. -/
def addrWord (a b : ℕ) : ℕ :=
  a >>> 8 ||| (a &&& 0xff) <<< 8 ||| (b >>> 8) <<< 16 ||| (b &&& 0xff) <<< 24

/-- `disp_spi_transfer_addrwin`, on `uint16_t`. -/
def transferAddrwin (x1 x2 y1 y2 : ℕ) : SpiM Unit := do
  waitReady
  setDc false
  setWord 0 caset.toNat
  setLen 7
  start
  waitReady
  setDc true
  setWord 0 (addrWord x1 x2)
  setLen 31
  start
  waitReady
  setDc false
  setWord 0 paset.toNat
  setLen 7
  start
  waitReady
  setDc true
  setWord 0 (addrWord y1 y2)
  setLen 31
  start
  waitReady

def uint16 (x : ℤ) : ℕ := (x % 65536).toNat

/-- `drawPixel`, the device being selected or not. -/
def drawPixel (x y : ℤ) (color : Color) (sel : Bool) : SpiM Unit := do
  if sel then dispSelect else waitTransFinish true
  transferAddrwin (uint16 x) (uint16 (x + 1)) (uint16 y) (uint16 (y + 1))
  setDc false
  setWord 0 ramwr.toNat
  setLen 7
  start
  waitReady
  let wd := color.r.toNat ||| color.g.toNat <<< 8 ||| color.b.toNat <<< 16
  setDc true
  setWord 0 wd
  setLen 23
  start
  waitReady
  if sel then dispDeselect

/-! ### Many colours -/

def maxDmaLen : ℕ := 4092

/-- The loop of `spi_lobo_setup_dma_desc_links`. -/
def descLinks (data : List UInt8) : List DmaDesc :=
  if data = [] then []
  else ⟨data.take maxDmaLen, false⟩ :: descLinks (data.drop maxDmaLen)
termination_by data.length
decreasing_by
  rename_i h
  have hpos := List.length_pos_of_ne_nil h
  simp only [List.length_drop, maxDmaLen]
  omega

def markEof : List DmaDesc → List DmaDesc
  | [] => []
  | [d] => [{ d with eof := true }]
  | d :: chain => d :: markEof chain

/-- `spi_lobo_setup_dma_desc_links`, for a table of `ct` descriptors. -/
def setupDmaDescLinks (ct : ℕ) (data : List UInt8) : SpiM (List DmaDesc) :=
  let links := descLinks data
  if 0 < links.length ∧ links.length ≤ ct then return markEof links
  else fun _ => .error .dmaDesc

def dmaSend (ct : ℕ) (data : List UInt8) : SpiM Unit := do
  let chain ← setupDmaDescLinks ct data
  setReg fun s => { s with dma := .armed chain }
  setLen (data.length * 8 - 1)
  modify fun s => { s with dma_sending := true }
  start

/-- The locals of the loop in `_direct_send`. -/
structure Direct where
  wd : ℕ
  idx : ℕ
  bits : ℕ
  wbits : ℕ

def Direct.push (d : Direct) (b : UInt8) : SpiM Direct := do
  let wd := d.wd ||| b.toNat <<< d.wbits
  let wbits := d.wbits + 8
  if wbits = 32 then
    setWord d.idx wd
    return ⟨0, d.idx + 1, d.bits + wbits, 0⟩
  else return { d with wd, wbits }

def directLoop : List Color → Direct → SpiM Direct
  | [], d => return d
  | c :: colors, d => do
      let d ← d.push c.r
      let d ← d.push c.g
      let d ← d.push c.b
      directLoop colors d

/-- `_direct_send`: a word that is not full is not sent. -/
def directSend (colors : List Color) : SpiM Unit := do
  let d ← directLoop colors ⟨0, 0, 0, 0⟩
  if d.bits ≠ 0 then
    waitReady
    setLen (d.bits - 1)
    start

def colorBytes (colors : List Color) : List UInt8 :=
  colors.flatMap fun c => [c.r, c.g, c.b]

/-- The loop that sends the line buffer of `buf` colours until `to_send` have gone. -/
def repLoop (ct : ℕ) (line : List Color) : ℕ → ℕ → SpiM Unit
  | 0, _ => fun _ => .error .stuck
  | fuel + 1, to_send =>
      if to_send = 0 then return
      else do
        waitTransFinish false
        dmaSend ct (colorBytes (line.take to_send))
        repLoop ct line fuel (to_send - line.length)

def ramWrite : SpiM Unit := do
  setDc false
  setWord 0 ramwr.toNat
  setLen 7
  start
  waitReady
  setDc true

/-- `_TFT_pushColorRep` with `rep == 0`, on a buffer of colours. -/
def pushColors (ct : ℕ) (colors : List Color) : SpiM Unit := do
  if colors.length = 0 then return
  ramWrite
  if colors.length * 24 ≤ 512 then directSend colors
  else dmaSend ct (colorBytes colors)

/-- `_TFT_pushColorRep` with `rep == 1`; the line buffer takes two lines of the display. -/
def pushColorRep (ct tft_width : ℕ) (alloc : Bool) (color : Color) (len : ℕ) : SpiM Unit := do
  if len = 0 then return
  ramWrite
  if len * 24 ≤ 512 then
    directSend (.replicate len color)
    waitTransFinish true
  else if alloc then
    modify fun s => { s with trans_cline := true }
    let buf_colors := if len > tft_width * 2 then tft_width * 2 else len
    repLoop ct (.replicate buf_colors color) (len + 1) len
    waitTransFinish true

/-- `send_data`, and the selection around it. -/
def sendData (ct : ℕ) (x1 y1 x2 y2 : ℤ) (colors : List Color) : SpiM Unit := do
  dispSelect
  transferAddrwin (uint16 x1) (uint16 x2) (uint16 y1) (uint16 y2)
  pushColors ct colors
  dispDeselect

def tftPushColorRep (ct tft_width : ℕ) (alloc : Bool) (x1 y1 x2 y2 : ℤ) (color : Color)
    (len : ℕ) : SpiM Unit := do
  dispSelect
  transferAddrwin (uint16 x1) (uint16 x2) (uint16 y1) (uint16 y2)
  pushColorRep ct tft_width alloc color len
  dispDeselect

end SpiM

end AndonConsole
