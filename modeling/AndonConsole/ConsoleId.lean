import AndonConsole.Lamps
import Mathlib.Data.Nat.Digits.Defs

/-!
The id of a console, from the build to the report.

The build passes the digits of `CONSOLE_ID` on as they are, so the compiler
reads them as an integer literal of C: in base ten, unless they start with a
zero, and then in base eight. `send_data_task` puts the number it reads into
its message. The number is the one the digits were meant for exactly if
there is no zero in front of them or nothing but zeros in front of the last.
-/

namespace AndonConsole

/-- The digits of an id, the leading one first. -/
abbrev IdDigits := List (Fin 10)

def IdDigits.value (b : ℕ) (d : IdDigits) : ℕ := Nat.ofDigits b (d.reverse.map Fin.val)

/-- `CONSOLE_ID` of the build: `set(CONSOLE_ID "00000")` where it is not defined. -/
def consoleIdVariable (defined : Option IdDigits) : IdDigits := defined.getD [0, 0, 0, 0, 0]

/-- The value of an unprefixed integer literal of C. A leading zero makes it octal, where
8 and 9 are no digits; no digit at all is no literal. -/
def integerLiteral : IdDigits → Option ℕ
  | [] => none
  | d :: ds =>
      if d = 0 then
        if ∀ e ∈ ds, e.val < 8 then some (IdDigits.value 8 (d :: ds)) else none
      else some (IdDigits.value 10 (d :: ds))

/-- `send_data_task` as it is compiled with `CONSOLE_ID=d`; `none` where it does not
compile. -/
def compiledSendDataTask (d : IdDigits) :
    Option (SendInput → BitVec 32 → Option Message × BitVec 32) :=
  (integerLiteral d).map fun id : ℕ => sendDataTask (id : ℤ)

def ReportsId (firmware : SendInput → BitVec 32 → Option Message × BitVec 32) (n : ℕ) : Prop :=
  ∀ (s : SendInput) (out : BitVec 32), s.connected = true →
    (firmware s out).1.map Message.consoleid = some (n : ℤ)

/-- No zero stands in front of the digits, or nothing but zeros in front of the last. -/
def ReadInBaseTen (d : IdDigits) : Prop := d.head? ≠ some 0 ∨ d.value 10 < 8

instance : DecidablePred ReadInBaseTen := fun _ => inferInstanceAs (Decidable (_ ∨ _))

theorem reportsId_sendDataTask {id n : ℕ} : ReportsId (sendDataTask id) n ↔ id = n := by
  refine ⟨fun h => ?_, fun h => ?_⟩
  · have := h (onlyCall 0) 0 rfl
    simpa [sendDataTask, onlyCall, SendInput.message] using this
  · intro s out hconn
    simp [sendDataTask, hconn, SendInput.message, h]

/-- Octal and decimal reading agree on the numbers of one digit and on no others. -/
theorem ofDigits_eight_eq_ten_iff {l : List ℕ} (hl : ∀ e ∈ l, e < 8) :
    Nat.ofDigits 8 l = Nat.ofDigits 10 l ↔ Nat.ofDigits 10 l < 8 := by
  cases l with
  | nil => simp
  | cons e l =>
      have he : e < 8 := hl e (by simp)
      have hle : Nat.ofDigits 8 l ≤ Nat.ofDigits 10 l := Nat.ofDigits_monotone l (by decide)
      rw [Nat.ofDigits_cons, Nat.ofDigits_cons]
      omega

theorem integerLiteral_eq_value_iff {d : IdDigits} {id : ℕ} (h : integerLiteral d = some id) :
    id = d.value 10 ↔ ReadInBaseTen d := by
  cases d with
  | nil => cases h
  | cons e ds =>
      rw [integerLiteral] at h
      rw [ReadInBaseTen, List.head?_cons, ne_eq, Option.some.injEq]
      split_ifs at h with hzero hoctal
      · have hdigits : ∀ k ∈ (e :: ds).reverse.map Fin.val, k < 8 := by
          intro k hk
          obtain ⟨a, ha, rfl⟩ := List.mem_map.mp hk
          rcases List.mem_cons.mp (List.mem_reverse.mp ha) with rfl | ha
          · simp [hzero]
          · exact hoctal a ha
        rw [← Option.some.inj h, IdDigits.value, IdDigits.value,
          ofDigits_eight_eq_ten_iff hdigits]
        simp [hzero]
      · simp [← Option.some.inj h, hzero]

/-- **The reported id.** Below 2^31 a console reports the value of its digits exactly if
they are read in base ten; and two consoles whose ids are read so and differ in value
never report the same number. -/
theorem reportsId_value_iff (d : IdDigits)
    (firmware : SendInput → BitVec 32 → Option Message × BitVec 32)
    (_hvalue : d.value 10 < 2 ^ 31) (h : compiledSendDataTask d = some firmware) :
    (ReportsId firmware (d.value 10) ↔ ReadInBaseTen d) ∧
      ∀ (d' : IdDigits) (firmware' : SendInput → BitVec 32 → Option Message × BitVec 32) (n : ℕ),
        d'.value 10 < 2 ^ 31 → compiledSendDataTask d' = some firmware' →
        ReadInBaseTen d → ReadInBaseTen d' → d.value 10 ≠ d'.value 10 →
        ¬ (ReportsId firmware n ∧ ReportsId firmware' n) := by
  obtain ⟨id, hid, rfl⟩ := Option.map_eq_some_iff.mp h
  constructor
  · rw [reportsId_sendDataTask, integerLiteral_eq_value_iff hid]
  · intro d' firmware' n _ h' hd hd' hne
    obtain ⟨id', hid', rfl⟩ := Option.map_eq_some_iff.mp h'
    rw [reportsId_sendDataTask, reportsId_sendDataTask,
      (integerLiteral_eq_value_iff hid).mpr hd, (integerLiteral_eq_value_iff hid').mpr hd']
    exact fun hn => hne (hn.1.trans hn.2.symm)

theorem reportsId_default :
    ReportsId (sendDataTask 0) 0 ∧ ¬ (ReportsId (sendDataTask 0) 5 ∧
      ReportsId (sendDataTask 123) 5) := by
  obtain ⟨hreports, hdiffer⟩ :=
    reportsId_value_iff (consoleIdVariable none) (sendDataTask 0) (by decide) rfl
  constructor
  · exact hreports.mpr (by decide)
  · exact hdiffer [1, 2, 3] (sendDataTask 123) 5 (by decide) rfl (by decide) (by decide)
      (by decide)

/-- The ids 010 and 8: the first console reports 8, not 10, and so does the second. -/
theorem reportsId_octal :
    ∃ firmware firmware', compiledSendDataTask [0, 1, 0] = some firmware ∧
      compiledSendDataTask [8] = some firmware' ∧
      IdDigits.value 10 [0, 1, 0] = 10 ∧ IdDigits.value 10 [8] = 8 ∧
      ¬ ReportsId firmware 10 ∧ ReportsId firmware 8 ∧ ReportsId firmware' 8 := by
  refine ⟨_, _, rfl, rfl, by decide, by decide, ?_, ?_, ?_⟩
  · rw [reportsId_sendDataTask]
    decide
  · rw [reportsId_sendDataTask]
    decide
  · rw [reportsId_sendDataTask]
    decide

end AndonConsole
