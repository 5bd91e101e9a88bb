import AndonConsole.Store
import AndonConsole.Lib.Latch
import Mathlib.Tactic.FinCases

/-!
The call inputs, the indicator lamps and the report to the server.

One step of `send_data_task` reads each call input once, sends a message made
from what it has read, and then drives the lamps: each input that is high
lights its lamp, and only when all three are low are the lamps put out, all
at once. So a lamp is a latch, while the message is made afresh every time.
-/

namespace AndonConsole

/-! ### Pins and registers -/

/-- `CALL1`, `CALL2` and `CALL3`. -/
def pinCall : Fin 3 → ℕ := ![33, 34, 35]

/-- `IND1`, `IND2` and `IND3`. -/
def pinInd : Fin 3 → ℕ := ![25, 26, 27]

def pinDebug : ℕ := 2

/-- What the write-only registers read as. -/
def readWriteOnly : BitVec 32 := 0

/-- `*gpio_out_w1ts_reg |= mask`: the bits written as 1 are set. -/
def orW1ts (mask out : BitVec 32) : BitVec 32 := out ||| (readWriteOnly ||| mask)

/-- `*gpio_out_w1tc_reg |= mask`: the bits written as 1 are cleared. -/
def orW1tc (mask out : BitVec 32) : BitVec 32 := out &&& ~~~(readWriteOnly ||| mask)

def allInds : BitVec 32 := 1#32 <<< pinInd 0 ||| 1#32 <<< pinInd 1 ||| 1#32 <<< pinInd 2

def gpioSetup (out : BitVec 32) : BitVec 32 := orW1tc (allInds ||| 1#32 <<< pinDebug) out

def lit (i : Fin 3) (out : BitVec 32) : Bool := out.getLsbD (pinInd i)

/-! ### One step -/

/-- What a step of `send_data_task` finds: the state of the connection, what its
three reads of `GPIO_IN1_REG` return, and the configuration. -/
structure SendInput where
  connected : Bool
  gpio_in1 : Fin 3 → BitVec 32
  calls : Calls
  department : Deptrecord

/-- `REG_READ(gpio_in1_reg)&(1 << (CALLi-32))`. -/
def SendInput.call (s : SendInput) (i : Fin 3) : Bool :=
  s.gpio_in1 i &&& 1#32 <<< (pinCall i - 32) ≠ 0

/-- The JSON object that is sent. -/
structure Message where
  consoleid : ℤ
  department : CString
  call : Fin 3 → CString
  oldcall : CString

/-- `p ? p : "Undefined"`. -/
def orUndefined (p : Option CString) : CString := p.getD (.ofString "Undefined")

def SendInput.message (consoleId : ℤ) (s : SendInput) : Message where
  consoleid := consoleId
  department := orUndefined s.department.deptid
  call i := if s.call i then orUndefined (s.calls i).status else .empty
  oldcall := .empty

/-- The message sent, if any, and the output register. -/
def sendDataTask (consoleId : ℤ) (s : SendInput) (out : BitVec 32) :
    Option Message × BitVec 32 :=
  if s.connected then
    -- the message is sent before the lamps are driven
    let message := s.message consoleId
    let out := if s.call 0 then orW1ts (1#32 <<< pinInd 0) out else out
    let out := if s.call 1 then orW1ts (1#32 <<< pinInd 1) out else out
    let out := if s.call 2 then orW1ts (1#32 <<< pinInd 2) out else out
    let out := if !s.call 0 && !s.call 1 && !s.call 2 then orW1tc allInds out else out
    (some message, out)
  else (none, out)

def runSteps (consoleId : ℤ) (out : BitVec 32) (steps : List SendInput) : BitVec 32 :=
  steps.foldl (fun out s => (sendDataTask consoleId s out).2) out

/-! ### A lamp is a latch -/

def SendInput.lights (i : Fin 3) (s : SendInput) : Bool := s.connected && s.call i

def SendInput.clears (s : SendInput) : Bool :=
  s.connected && !s.call 0 && !s.call 1 && !s.call 2

@[simp] theorem lit_orW1ts (i j : Fin 3) (out : BitVec 32) :
    lit i (orW1ts (1#32 <<< pinInd j) out) = (lit i out || decide (i = j)) := by
  fin_cases i <;> fin_cases j <;> simp [lit, orW1ts, readWriteOnly, pinInd]

@[simp] theorem lit_orW1tc (i : Fin 3) (out : BitVec 32) :
    lit i (orW1tc allInds out) = false := by
  fin_cases i <;> simp [lit, orW1tc, readWriteOnly, pinInd, allInds]

theorem lit_gpioSetup (i : Fin 3) (out : BitVec 32) : lit i (gpioSetup out) = false := by
  fin_cases i <;> simp [lit, gpioSetup, orW1tc, readWriteOnly, pinInd, allInds]

theorem lit_sendDataTask (consoleId : ℤ) (i : Fin 3) (s : SendInput) (out : BitVec 32) :
    lit i (sendDataTask consoleId s out).2 =
      if s.lights i then true else if s.clears then false else lit i out := by
  unfold sendDataTask SendInput.lights SendInput.clears
  cases s.connected with
  | false => simp
  | true =>
      cases h₀ : s.call 0 <;> cases h₁ : s.call 1 <;> cases h₂ : s.call 2 <;>
        fin_cases i <;> simp [h₀, h₁, h₂]

theorem lit_runSteps (consoleId : ℤ) (i : Fin 3) (out : BitVec 32) (steps : List SendInput) :
    lit i (runSteps consoleId out steps) =
      Lib.latch (SendInput.lights i) SendInput.clears (lit i out) steps := by
  induction steps using List.reverseRecOn with
  | nil => rfl
  | append_singleton steps s ih =>
      rw [Lib.latch_snoc, ← ih, ← lit_sendDataTask consoleId]
      simp [runSteps]

/-! ### Lamps and reports -/

theorem SendInput.message_call_ne_empty_iff (consoleId : ℤ) (s : SendInput) (i : Fin 3) :
    (s.message consoleId).call i ≠ .empty ↔
      s.call i = true ∧ (s.calls i).status ≠ some .empty := by
  have hundefined : CString.ofString "Undefined" ≠ .empty := by decide
  simp only [message]
  cases s.call i with
  | false => simp
  | true =>
      cases (s.calls i).status with
      | none => simp [orUndefined, hundefined]
      | some status => simp [orUndefined]

/-- Lamps and message agree with the inputs of the step `s`, taken after
`steps`. -/
def LampsAgree (consoleId : ℤ) (out : BitVec 32) (steps : List SendInput) (s : SendInput) :
    Prop :=
  ∀ i, (lit i (runSteps consoleId out (steps ++ [s])) = true ↔ s.call i = true) ∧
    (s.call i = true ↔ (s.message consoleId).call i ≠ .empty)

/-- **Lamps and reports.** After a connected step of any run a lamp is lit exactly
if its input was high in a connected step with no connected step since that
found all inputs low; the message of the step has a text for exactly the
inputs that are high and whose status is not the empty text. -/
theorem lit_iff_setSince (consoleId : ℤ) (out : BitVec 32) (steps : List SendInput)
    (s : SendInput) (hconn : s.connected = true) :
    (sendDataTask consoleId s (runSteps consoleId (gpioSetup out) steps)).1 =
        some (s.message consoleId) ∧
      ∀ i, (lit i (runSteps consoleId (gpioSetup out) (steps ++ [s])) = true ↔
          Lib.SetSince (SendInput.lights i) SendInput.clears (steps ++ [s])) ∧
        ((s.message consoleId).call i ≠ .empty ↔
          s.call i = true ∧ (s.calls i).status ≠ some .empty) := by
  refine ⟨by simp [sendDataTask, hconn], fun i => ⟨?_, ?_⟩⟩
  · rw [lit_runSteps, lit_gpioSetup, Lib.latch_eq_true_iff]
  · exact s.message_call_ne_empty_iff consoleId i

def onlyCall (i : Fin 3) : SendInput where
  connected := true
  gpio_in1 _ := 1#32 <<< (pinCall i - 32)
  calls _ := .unset
  department := .unset

/-- The second input alone, after the first: both lamps are lit. -/
theorem lit_iff_setSince_demo :
    lit 0 (runSteps 1 (gpioSetup 0) ([onlyCall 0] ++ [onlyCall 1])) = true ∧
      ((onlyCall 1).message 1).call 1 ≠ .empty := by
  obtain ⟨-, h⟩ := lit_iff_setSince 1 0 [onlyCall 0] (onlyCall 1) rfl
  refine ⟨(h 0).1.mpr ⟨[], onlyCall 0, [onlyCall 1], rfl, ?_, ?_⟩, (h 1).2.mpr ⟨?_, ?_⟩⟩
  all_goals decide

/-- Only the first input high, and a call with an empty status chosen for it. -/
def emptyStatusCall : SendInput :=
  { onlyCall 0 with
    calls := Function.update (onlyCall 0).calls 0
      (setCallrecord .ok .unset (some .empty) (some (.ofString "Jam")) (some (.ofString "Ann"))) }

/-- The first call button is released while the second is held: its lamp stays
lit, and the message has no text for it. And an empty status is sent as it is,
while the lamp is lit. -/
theorem not_lampsAgree :
    ((onlyCall 1).call 0 = false ∧
      lit 0 (runSteps 1 (gpioSetup 0) ([onlyCall 0] ++ [onlyCall 1])) = true ∧
      ((onlyCall 1).message 1).call 0 = .empty ∧
      ¬ LampsAgree 1 (gpioSetup 0) [onlyCall 0] (onlyCall 1)) ∧
    emptyStatusCall.call 0 = true ∧
      lit 0 (runSteps 1 (gpioSetup 0) ([] ++ [emptyStatusCall])) = true ∧
      (emptyStatusCall.message 1).call 0 = .empty ∧
      ¬ LampsAgree 1 (gpioSetup 0) [] emptyStatusCall := by
  have hlow : (onlyCall 1).call 0 = false := by decide
  have hlit : lit 0 (runSteps 1 (gpioSetup 0) ([onlyCall 0] ++ [onlyCall 1])) = true := by decide
  have hhigh : emptyStatusCall.call 0 = true := by decide
  have hempty : (emptyStatusCall.message 1).call 0 = .empty := by decide
  refine ⟨⟨hlow, hlit, by decide, fun h => ?_⟩, hhigh, by decide, hempty, fun h => ?_⟩
  · have := (h 0).1.mp hlit
    rw [hlow] at this
    cases this
  · exact (h 0).2.mp hhigh hempty

end AndonConsole
