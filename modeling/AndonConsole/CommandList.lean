import AndonConsole.Wire

/-!
Command tables.

The display is set up by tables of bytes: the number of commands, and for each
the command, the number of its arguments with a flag for a delay in the high
bit, the arguments, and the delay. `commandList` walks over such a table and
sends what it finds. What it takes from the bytes is what was put in them, for
every list of commands a table has room for.
-/

namespace AndonConsole

open Lib (Packs bufBytes)
open Controller (stream)

namespace SpiM

/-! ### A command with its data -/

theorem transferStart_sends {s : Spi} (h : AtRest false s) {n : ℕ} (hn : 0 < n) :
    Sends (transferStart (8 * n)) s ((bufBytes s.data_buf n).map fun b => (s.dc, b))
      fun _ s' => AtRest false s' ∧ s'.dc = s.dc := by
  have hlen : (8 * n - 1 + 1) / 8 = n := by omega
  refine ⟨(), { s with
    usr_mosi_dbitlen := 8 * n - 1
    usr := false
    sent := s.sent ++ [⟨s.dc, bufBytes s.data_buf n⟩] }, ?_,
    ⟨[⟨s.dc, bufBytes s.data_buf n⟩], rfl, by simp [stream]⟩,
    ⟨rfl, h.dma, h.dma_sending, h.trans_cline⟩, rfl⟩
  simp [transferStart, setLen, setReg, start, waitReady, bind, StateT.bind, Except.bind, h.usr,
    h.dma, hlen]

theorem setWord_sends {s : Spi} (h : AtRest false s) {idx : ℕ} (hidx : idx < 16) (wd : ℕ) :
    Sends (setWord idx wd) s [] fun _ s' => AtRest false s' ∧ s'.dc = s.dc ∧
      s'.data_buf = Function.update s.data_buf idx wd := by
  refine ⟨(), { s with data_buf := Function.update s.data_buf idx wd }, ?_, ⟨[], by simp, rfl⟩,
    ⟨h.usr, h.dma, h.dma_sending, h.trans_cline⟩, rfl, rfl⟩
  simp [setWord, hidx, setReg, h.usr]

theorem cmdDataLoop_sends {data pend : List UInt8} (hne : data ≠ []) {idx bidx wd : ℕ} {s : Spi}
    (h : AtRest false s) (hpacks : Packs s.data_buf idx wd bidx pend) (hlt : pend.length < 64) :
    Sends (do
      let bits ← cmdDataLoop data idx bidx (8 * pend.length) wd
      if bits > 0 then transferStart bits) s ((pend ++ data).map fun b => (s.dc, b))
      fun _ s' => AtRest false s' := by
  induction data generalizing pend idx bidx wd s with
  | nil => exact absurd rfl hne
  | cons b rest ih =>
      have hlength := hpacks.length_eq
      have hidx : idx < 16 := by omega
      have hbits : 8 * pend.length + 8 = 8 * (pend ++ [b]).length := by
        simp
        omega
      have hsplit : pend ++ b :: rest = (pend ++ [b]) ++ rest := by simp
      rw [cmdDataLoop, hsplit, hbits]
      by_cases hrest : rest = []
      · rw [if_pos hrest, bind_assoc, hrest, List.append_nil]
        refine (setWord_sends h hidx _).silent fun _ s1 h1 => ?_
        rw [pure_bind, if_pos (by simp)]
        have hsend := transferStart_sends h1.1 (n := (pend ++ [b]).length) (by simp)
        rw [h1.2.1, h1.2.2, hpacks.flush b] at hsend
        exact hsend.imp fun _ _ h2 => h2.1
      · rw [if_neg hrest]
        by_cases hfull : bidx + 8 = 32
        · rw [if_pos hfull, bind_assoc]
          refine (setWord_sends h hidx _).silent fun _ s1 h1 => ?_
          have hstored := hpacks.store b hfull
          rw [← h1.2.2] at hstored
          by_cases hbuf : idx + 1 = 16
          · have h64 : (pend ++ [b]).length = 4 * (idx + 1) := by
              have hlength' := hstored.length_eq
              omega
            rw [if_pos hbuf, bind_assoc, List.map_append]
            have hsend := transferStart_sends h1.1 (n := (pend ++ [b]).length) (by simp)
            rw [h1.2.1, h64, hstored.bufBytes_eq, ← h64, List.take_length] at hsend
            refine hsend.bind fun _ s2 h2 => ?_
            have hih := ih hrest h2.1 (Lib.packs_nil _) (by simp)
            rwa [h2.2] at hih
          · rw [if_neg hbuf]
            have hih := ih hrest h1.1 hstored (by
              have hlength' := hstored.length_eq
              omega)
            rwa [h1.2.1] at hih
        · rw [if_neg hfull]
          have hpushed := hpacks.push b hfull
          exact ih hrest h hpushed (by
            have hlength' := hpushed.length_eq
            have hlt' := hpushed.bits_lt
            omega)

/-- Behind the command the word holds its sign. -/
theorem bufBytes_cmdWord (buf : ℕ → ℕ) (cmd : UInt8) :
    bufBytes (Function.update buf 0 (cmdWord cmd)) [cmd].length = [cmd] := by
  have hlt := cmd.toNat_lt
  have hbyte : UInt8.ofNat (cmdWord cmd) = cmd := by
    apply UInt8.toNat_inj.mp
    rw [UInt8.toNat_ofNat', cmdWord]
    split_ifs <;> omega
  simp [bufBytes, Lib.byteOf, hbyte]

/-- **A command with its data.** Any number of bytes goes out as it is, in transfers of up
to 64 bytes. -/
theorem transferCmdData_sends {s : Spi} (h : AtRest false s) (cmd : UInt8) (data : List UInt8) :
    Sends (transferCmdData cmd data) s ((false, cmd) :: data.map fun b => (true, b))
      fun _ s' => AtRest false s' := by
  have hprog : transferCmdData cmd data = (do
      waitReady
      shortTransfer false (cmdWord cmd) 7
      if data = [] then return
      setDc true
      let bits ← cmdDataLoop data 0 0 0 0
      if bits > 0 then transferStart bits) := by
    simp only [transferCmdData, shortTransfer, transferStart, bind_assoc]
  rw [hprog]
  refine (waitReady_sends h).silent fun _ s1 h1 => ?_
  refine (shortTransfer_sends_of_bytes h1 false (by simp) (bufBytes_cmdWord _ cmd)).bind
    fun _ s2 h2 => ?_
  by_cases hnil : data = []
  · subst hnil
    exact Sends.pure h2.1
  · rw [if_neg hnil]
    refine (setDc_sends h2.1 true).silent fun _ s3 h3 => ?_
    have hloop := cmdDataLoop_sends hnil h3.1 (Lib.packs_nil _) (by simp)
    rwa [h3.2] at hloop

end SpiM

/-! ### The table -/

structure LcdCommand where
  cmd : UInt8
  args : List UInt8
  args_lt : args.length < 128
  delay : Option UInt8

namespace LcdCommand

/-- The number of arguments, `TFT_CMD_DELAY` being set if a delay follows them. -/
def countByte (c : LcdCommand) : UInt8 :=
  UInt8.ofNat c.args.length ||| (if c.delay.isSome then 0x80 else 0)

def encode (c : LcdCommand) : List UInt8 :=
  c.cmd :: c.countByte :: (c.args ++ c.delay.toList)

/-- The wait in milliseconds: 255 stands for 500. -/
def wait (c : LcdCommand) : Option ℕ :=
  c.delay.map fun ms => if ms = 255 then 500 else ms.toNat

def stream (c : LcdCommand) : List (Bool × UInt8) :=
  (false, c.cmd) :: c.args.map fun b => (true, b)

theorem countByte_spec (c : LcdCommand) :
    (c.countByte &&& 0x7F).toNat = c.args.length ∧
      (c.countByte &&& 0x80 ≠ 0 ↔ c.delay.isSome) := by
  have hbits : ∀ n : Fin 128, ∀ d : Bool,
      ((UInt8.ofNat n ||| (if d then 0x80 else 0)) &&& 0x7F).toNat = n ∧
        ((UInt8.ofNat n ||| (if d then 0x80 else 0)) &&& 0x80 ≠ 0 ↔ d) := by decide
  exact hbits ⟨c.args.length, c.args_lt⟩ c.delay.isSome

end LcdCommand

def encodeTable (cmds : List LcdCommand) : List UInt8 :=
  UInt8.ofNat cmds.length :: cmds.flatMap LcdCommand.encode

namespace SpiM

/-- `*addr++`. -/
def nextByte : List UInt8 → SpiM (UInt8 × List UInt8)
  | [] => fun _ => .error .tableEnd
  | b :: addr => return (b, addr)

/-- The loop of `commandList`; it returns where it stops and the waits it made. -/
def commandLoop : ℕ → List UInt8 → SpiM (List UInt8 × List ℕ)
  | 0, addr => return (addr, [])
  | numCommands + 1, addr => do
      let (cmd, addr) ← nextByte addr
      let (count, addr) ← nextByte addr
      let ms := count &&& 0x80
      let numArgs := (count &&& 0x7F).toNat
      if addr.length < numArgs then fun _ => .error .tableEnd
      else do
        transferCmdData cmd (addr.take numArgs)
        let addr := addr.drop numArgs
        if ms ≠ 0 then do
          let (ms, addr) ← nextByte addr
          let (addr, waits) ← commandLoop numCommands addr
          return (addr, (if ms = 255 then 500 else ms.toNat) :: waits)
        else commandLoop numCommands addr

def commandList (addr : List UInt8) : SpiM (List UInt8 × List ℕ) := do
  let (numCommands, addr) ← nextByte addr
  commandLoop numCommands.toNat addr

theorem commandLoop_sends {s : Spi} (h : AtRest false s) (cmds : List LcdCommand)
    (rest : List UInt8) :
    Sends (commandLoop cmds.length (cmds.flatMap LcdCommand.encode ++ rest)) s
      (cmds.flatMap LcdCommand.stream) fun a s' =>
        AtRest false s' ∧ a = (rest, cmds.filterMap LcdCommand.wait) := by
  induction cmds generalizing s with
  | nil => exact Sends.pure ⟨h, rfl⟩
  | cons c cmds ih =>
      obtain ⟨hcount, hflag⟩ := c.countByte_spec
      have htable : (c :: cmds).flatMap LcdCommand.encode ++ rest =
          c.cmd :: c.countByte :: (c.args ++ (c.delay.toList ++
            (cmds.flatMap LcdCommand.encode ++ rest))) := by
        simp [LcdCommand.encode]
      rw [htable, List.length_cons, commandLoop]
      simp only [nextByte, pure_bind, hcount, List.length_append]
      rw [if_neg (by omega), List.take_left, List.drop_left, List.flatMap_cons]
      refine (transferCmdData_sends h c.cmd c.args).bind fun _ s1 h1 => ?_
      cases hdelay : c.delay with
      | none =>
          have hwait : c.wait = none := by rw [LcdCommand.wait, hdelay]; rfl
          rw [if_neg (by simp [hflag, hdelay]), List.filterMap_cons_none hwait]
          exact ih h1
      | some ms =>
          have hwait : c.wait = some (if ms = 255 then 500 else ms.toNat) := by
            rw [LcdCommand.wait, hdelay]
            rfl
          rw [if_pos (by simp [hflag, hdelay]), List.filterMap_cons_some hwait]
          simp only [Option.toList_some, List.cons_append, List.nil_append, pure_bind]
          refine (ih h1).quiet fun a s2 h2 => ?_
          rw [h2.2]
          exact Sends.pure ⟨h2.1, rfl⟩

def commandOf (cmd count : UInt8) (args : List UInt8) (h : args.length < 128)
    (ms : UInt8) : LcdCommand :=
  ⟨cmd, args, h, if count &&& 0x80 ≠ 0 then some ms else none⟩

theorem countByte_commandOf {cmd count : UInt8} {args : List UInt8} (h : args.length < 128)
    (ms : UInt8) (hcount : (count &&& 0x7F).toNat = args.length) :
    (commandOf cmd count args h ms).countByte = count := by
  have hbits : ∀ n : Fin 256, UInt8.ofNat (UInt8.ofNat n &&& 0x7F).toNat |||
      (if UInt8.ofNat n &&& 0x80 ≠ 0 then 0x80 else 0) = UInt8.ofNat n := by decide +kernel
  have hbyte := hbits ⟨count.toNat, count.toNat_lt⟩
  simp only [UInt8.ofNat_toNat, hcount] at hbyte
  rw [LcdCommand.countByte, commandOf]
  by_cases hflag : count &&& 0x80 ≠ 0
  · simpa [hflag] using hbyte
  · simpa [hflag] using hbyte

theorem seven_bits_lt (count : UInt8) : (count &&& 0x7F).toNat < 128 := by
  have hbits : ∀ n : Fin 256, (UInt8.ofNat n &&& 0x7F).toNat < 128 := by
    decide +kernel
  simpa using hbits ⟨count.toNat, count.toNat_lt⟩

theorem bind_eq_ok {α β : Type} {c : SpiM α} {f : α → SpiM β} {s : Spi} {r : β × Spi}
    (h : (c >>= f) s = .ok r) : ∃ a s', c s = .ok (a, s') ∧ f a s' = .ok r := by
  obtain ⟨⟨a, s'⟩, hc, hf⟩ := Lib.bind_eq_ok.mp h
  exact ⟨a, s', hc, hf⟩

theorem nextByte_eq_ok {addr : List UInt8} {s s' : Spi} {a : UInt8 × List UInt8}
    (h : nextByte addr s = .ok (a, s')) : addr = a.1 :: a.2 ∧ s' = s := by
  cases addr with
  | nil => cases h
  | cons b addr =>
      cases h
      exact ⟨rfl, rfl⟩

theorem exists_of_commandLoop {n : ℕ} {addr : List UInt8} {s s' : Spi}
    {a : List UInt8 × List ℕ} (hs : AtRest false s) (h : commandLoop n addr s = .ok (a, s')) :
    ∃ cmds : List LcdCommand, cmds.length = n ∧ addr = cmds.flatMap LcdCommand.encode ++ a.1 := by
  induction n generalizing addr s a with
  | zero =>
      cases h
      exact ⟨[], rfl, rfl⟩
  | succ n ih =>
      rw [commandLoop] at h
      obtain ⟨⟨cmd, addr1⟩, s1, hcmd, h1⟩ := bind_eq_ok h
      obtain ⟨rfl, rfl⟩ := nextByte_eq_ok hcmd
      obtain ⟨⟨count, addr2⟩, s2, hcount, h2⟩ := bind_eq_ok h1
      obtain ⟨haddr, rfl⟩ := nextByte_eq_ok hcount
      dsimp only at haddr h2 ⊢
      subst haddr
      split at h2
      · cases h2
      · rename_i hlen
        have hargs : (count &&& 0x7F).toNat =
            (addr2.take (count &&& 0x7F).toNat).length := by
          rw [List.length_take]
          omega
        have hargs_lt : (addr2.take (count &&& 0x7F).toNat).length < 128 := by
          rw [← hargs]
          exact seven_bits_lt count
        obtain ⟨_, s3, hdata, h3⟩ := bind_eq_ok h2
        have hs3 : AtRest false s3 := by
          obtain ⟨_, s', hrun, -, hs'⟩ := transferCmdData_sends hs cmd
            (addr2.take (count &&& 0x7F).toNat)
          rw [hrun] at hdata
          cases hdata
          exact hs'
        have hsplit : addr2.take (count &&& 0x7F).toNat ++
            addr2.drop (count &&& 0x7F).toNat = addr2 := List.take_append_drop _ _
        have hcommand (ms : UInt8) : (commandOf cmd count _ hargs_lt ms).countByte = count :=
          countByte_commandOf hargs_lt ms hargs
        by_cases hflag : count &&& 0x80 ≠ 0
        · rw [if_pos hflag] at h3
          obtain ⟨⟨ms, addr3⟩, s4, hms, h4⟩ := bind_eq_ok h3
          obtain ⟨hdrop, rfl⟩ := nextByte_eq_ok hms
          obtain ⟨⟨addr4, waits⟩, s5, hloop, h5⟩ := bind_eq_ok h4
          cases h5
          obtain ⟨cmds, hn, hcmds⟩ := ih hs3 hloop
          refine ⟨commandOf cmd count _ hargs_lt ms :: cmds, by simp [hn], ?_⟩
          dsimp only at hdrop hcmds
          rw [List.flatMap_cons, LcdCommand.encode, hcommand]
          rw [hdrop, hcmds] at hsplit
          simpa [commandOf, hflag] using hsplit.symm
        · rw [if_neg hflag] at h3
          obtain ⟨cmds, hn, hcmds⟩ := ih hs3 h3
          refine ⟨commandOf cmd count _ hargs_lt 0 :: cmds, by simp [hn], ?_⟩
          rw [List.flatMap_cons, LcdCommand.encode, hcommand]
          rw [hcmds] at hsplit
          simpa [commandOf, hflag] using hsplit.symm

/-- A table is read as it was written: the commands go out with their arguments, the waits
are those of the table, and what is behind it is not touched. -/
theorem commandList_sends {s : Spi} (h : AtRest false s) {cmds : List LcdCommand}
    (hlen : cmds.length < 256) (rest : List UInt8) :
    Sends (commandList (encodeTable cmds ++ rest)) s (cmds.flatMap LcdCommand.stream)
      fun a s' => AtRest false s' ∧ a = (rest, cmds.filterMap LcdCommand.wait) := by
  have hcount : (UInt8.ofNat cmds.length).toNat = cmds.length := by
    rw [UInt8.toNat_ofNat']
    omega
  rw [encodeTable, List.cons_append, commandList]
  simp only [nextByte, pure_bind, hcount]
  exact commandLoop_sends h cmds rest

theorem exists_of_commandList {table : List UInt8} {s s' : Spi} {a : List UInt8 × List ℕ}
    (hs : AtRest false s) (h : commandList table s = .ok (a, s')) :
    ∃ cmds : List LcdCommand, cmds.length < 256 ∧ table = encodeTable cmds ++ a.1 := by
  rw [commandList] at h
  obtain ⟨⟨count, addr⟩, s1, hcount, h1⟩ := bind_eq_ok h
  obtain ⟨rfl, rfl⟩ := nextByte_eq_ok hcount
  obtain ⟨cmds, hn, haddr⟩ := exists_of_commandLoop hs h1
  refine ⟨cmds, by rw [hn]; exact count.toNat_lt, ?_⟩
  rw [encodeTable, hn, UInt8.ofNat_toNat, List.cons_append, ← haddr]

/-- **Command tables.** `commandList` comes to an end on a list of bytes exactly when it
begins with an encoded table, and stands behind it then, with the waits of the table made. And
what it has sent are the commands of the table with their arguments. -/
theorem commandList_eq_ok_iff {s : Spi} (hs : AtRest false s) (table rest : List UInt8) :
    (∀ waits : List ℕ, (∃ s', commandList table s = .ok ((rest, waits), s')) ↔
      ∃ cmds : List LcdCommand, cmds.length < 256 ∧ table = encodeTable cmds ++ rest ∧
        waits = cmds.filterMap LcdCommand.wait) ∧
    ∀ cmds : List LcdCommand, cmds.length < 256 → table = encodeTable cmds ++ rest →
      ∃ s' ts, commandList table s = .ok ((rest, cmds.filterMap LcdCommand.wait), s') ∧
        AtRest false s' ∧ s'.sent = s.sent ++ ts ∧
        stream ts = cmds.flatMap LcdCommand.stream := by
  have hsent (cmds : List LcdCommand) (hlen : cmds.length < 256)
      (htable : table = encodeTable cmds ++ rest) :
      ∃ s' ts, commandList table s = .ok ((rest, cmds.filterMap LcdCommand.wait), s') ∧
        AtRest false s' ∧ s'.sent = s.sent ++ ts ∧
        stream ts = cmds.flatMap LcdCommand.stream := by
    obtain ⟨a, s', hrun, ⟨ts, hts, hstream⟩, hrest, rfl⟩ := commandList_sends hs hlen rest
    rw [← htable] at hrun
    exact ⟨s', ts, hrun, hrest, hts, hstream⟩
  refine ⟨fun waits => ⟨?_, ?_⟩, hsent⟩
  · rintro ⟨s', hrun⟩
    obtain ⟨cmds, hlen, htable⟩ := exists_of_commandList hs hrun
    obtain ⟨s'', ts, hrun', -⟩ := hsent cmds hlen htable
    rw [hrun] at hrun'
    cases hrun'
    exact ⟨cmds, hlen, htable, rfl⟩
  · rintro ⟨cmds, hlen, htable, rfl⟩
    obtain ⟨s', -, hrun, -⟩ := hsent cmds hlen htable
    exact ⟨s', hrun⟩

def rcmd2red : List UInt8 :=
  [2, 0x2A, 4, 0x00, 0x00, 0x00, 0x7F, 0x2B, 4, 0x00, 0x00, 0x00, 0x9F]

/-- The console's display type sends it between two longer tables. -/
theorem commandList_rcmd2red : ∃ s' ts, commandList rcmd2red Draw.atReset = .ok (([], []), s') ∧
    s'.sent = ts ∧ stream ts =
      [(false, 0x2A), (true, 0), (true, 0), (true, 0), (true, 0x7F),
       (false, 0x2B), (true, 0), (true, 0), (true, 0), (true, 0x9F)] := by
  have hcmds : rcmd2red = encodeTable
      [⟨0x2A, [0x00, 0x00, 0x00, 0x7F], by decide, none⟩,
       ⟨0x2B, [0x00, 0x00, 0x00, 0x9F], by decide, none⟩] ++ [] := by decide
  obtain ⟨s', ts, hrun, -, hsent, hstream⟩ :=
    (commandList_eq_ok_iff Draw.atRest_atReset rcmd2red []).2 _ (by decide) hcmds
  exact ⟨s', ts, hrun, hsent, hstream⟩

end SpiM

end AndonConsole
