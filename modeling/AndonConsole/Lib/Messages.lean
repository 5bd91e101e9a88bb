import Mathlib.Data.List.Basic
import Mathlib.Algebra.Order.Ring.Nat

/-!
Messages in frames.

A message comes in one frame or in several: the first one says what it is, and
one of them is marked as the last. Control frames may stand between the frames
of a message, but have to be whole and short. The receiver puts the messages
together and stops at the first frame that does not belong where it is. Some
control frames close the connection: what comes behind one of them is discarded.
-/

namespace AndonConsole.Lib

variable {δ κ β : Type*}

inductive FrameKind (δ κ : Type*)
  | first (kind : δ)
  | more
  | control (kind : κ)

structure Frame (δ κ β : Type*) where
  kind : FrameKind δ κ
  last : Bool
  payload : List β

/-- How long control frames may be, and which of them close the connection. -/
structure ControlRules (κ : Type*) where
  limit : ℕ
  closes : κ → Bool

def Frame.closes (rules : ControlRules κ) (f : Frame δ κ β) : Bool :=
  match f.kind with
  | .control kind => rules.closes kind
  | _ => false

/-- The message under way, the messages that are complete, and the control frames. -/
structure Receiver (δ κ β : Type*) where
  current : Option (δ × List β)
  messages : List (δ × List β)
  controls : List (κ × List β)

namespace Receiver

def empty : Receiver δ κ β := ⟨none, [], []⟩

def closed (rules : ControlRules κ) (r : Receiver δ κ β) : Bool :=
  r.controls.any fun c => rules.closes c.1

def extend (r : Receiver δ κ β) (kind : δ) (payload : List β) (last : Bool) :
    Receiver δ κ β :=
  if last then { r with current := none, messages := r.messages ++ [(kind, payload)] }
  else { r with current := some (kind, payload) }

def accept (rules : ControlRules κ) (r : Receiver δ κ β) (f : Frame δ κ β) :
    Option (Receiver δ κ β) :=
  if r.closed rules then some r
  else
    match f.kind, r.current with
    | .control kind, _ =>
        if f.last ∧ f.payload.length ≤ rules.limit then
          some { r with controls := r.controls ++ [(kind, f.payload)] }
        else none
    | .first kind, none => some (r.extend kind f.payload f.last)
    | .more, some (kind, payload) => some (r.extend kind (payload ++ f.payload) f.last)
    | _, _ => none

end Receiver

def receive (rules : ControlRules κ) (fs : List (Frame δ κ β)) : Option (Receiver δ κ β) :=
  fs.foldlM (Receiver.accept rules) .empty

variable {rules : ControlRules κ} {fs : List (Frame δ κ β)} {f : Frame δ κ β}
  {r r' : Receiver δ κ β}

namespace Receiver

variable {kind : δ} {payload rest : List β} {last : Bool}

theorem accept_of_closed (h : r.closed rules = true) : r.accept rules f = some r := if_pos h

theorem accept_first (hopen : r.closed rules = false) (h : r.current = none) :
    r.accept rules ⟨.first kind, last, payload⟩ = some (r.extend kind payload last) := by
  simp only [accept, hopen, h]
  rfl

theorem accept_more (hopen : r.closed rules = false) (h : r.current = some (kind, payload)) :
    r.accept rules ⟨.more, last, rest⟩ = some (r.extend kind (payload ++ rest) last) := by
  simp only [accept, hopen, h]
  rfl

/-- A control frame, in front of a message or inside it. -/
theorem accept_control {kind : κ} (hopen : r.closed rules = false)
    (h : payload.length ≤ rules.limit) :
    r.accept rules ⟨.control kind, true, payload⟩ =
      some { r with controls := r.controls ++ [(kind, payload)] } := by
  simp [accept, hopen, h]

theorem foldlM_control (h : ∀ f ∈ fs, ∃ kind,
    f = ⟨.control kind, true, f.payload⟩ ∧ f.payload.length ≤ rules.limit) :
    ∃ cs, fs.foldlM (accept rules) r = some { r with controls := r.controls ++ cs } := by
  induction fs generalizing r with
  | nil => exact ⟨[], by simp⟩
  | cons f fs ih =>
      obtain ⟨kind, hf, hlen⟩ := h f List.mem_cons_self
      have hrest : ∀ f ∈ fs, ∃ kind,
          f = ⟨.control kind, true, f.payload⟩ ∧ f.payload.length ≤ rules.limit :=
        fun f hf => h f (List.mem_cons_of_mem _ hf)
      rw [List.foldlM_cons]
      cases hclosed : r.closed rules with
      | true =>
          rw [accept_of_closed hclosed]
          exact ih hrest
      | false =>
          have hfirst : r.accept rules f =
              some { r with controls := r.controls ++ [(kind, f.payload)] } := by
            rw [hf]
            exact accept_control hclosed hlen
          obtain ⟨cs, hcs⟩ := ih (r := { r with controls := r.controls ++ [(kind, f.payload)] })
            hrest
          refine ⟨(kind, f.payload) :: cs, ?_⟩
          rw [hfirst]
          refine hcs.trans ?_
          rw [List.append_assoc, List.singleton_append]

@[simp] theorem extend_last : r.extend kind payload true =
    { r with current := none, messages := r.messages ++ [(kind, payload)] } := rfl

@[simp] theorem extend_notLast :
    r.extend kind payload false = { r with current := some (kind, payload) } := rfl

@[simp] theorem extend_closed : (r.extend kind payload last).closed rules = r.closed rules := by
  cases last <;> rfl

/-! ### The end of a connection -/

theorem closed_accept (h : r.accept rules f = some r') :
    r'.closed rules = (r.closed rules || f.closes rules) := by
  cases hclosed : r.closed rules with
  | true =>
      rw [accept_of_closed hclosed] at h
      cases h
      exact hclosed
  | false =>
      obtain ⟨kind, last, payload⟩ := f
      rw [accept, hclosed, if_neg Bool.false_ne_true] at h
      cases kind with
      | control kind =>
          dsimp only at h
          split_ifs at h
          cases h
          have hnone : (r.controls.any fun c => rules.closes c.1) = false := hclosed
          simp [closed, Frame.closes, hnone]
      | first kind =>
          cases hcur : r.current with
          | some m => simp [hcur] at h
          | none =>
              rw [hcur] at h
              cases h
              rw [extend_closed, hclosed]
              rfl
      | more =>
          cases hcur : r.current with
          | none => simp [hcur] at h
          | some m =>
              rw [hcur] at h
              cases h
              rw [extend_closed, hclosed]
              rfl

theorem closed_foldlM (h : fs.foldlM (accept rules) r = some r') :
    r'.closed rules = (r.closed rules || fs.any fun f => f.closes rules) := by
  induction fs generalizing r with
  | nil =>
      cases h
      simp
  | cons f fs ih =>
      obtain ⟨r₁, hfirst, hrest⟩ := Option.bind_eq_some_iff.mp h
      rw [ih hrest, closed_accept hfirst, List.any_cons, Bool.or_assoc]

/-! ### Nothing is lost or added -/

def size (r : Receiver δ κ β) : ℕ :=
  (r.current.map fun m => m.2.length).getD 0 + (r.messages.map fun m => m.2.length).sum +
    (r.controls.map fun m => m.2.length).sum

theorem size_accept (hopen : r.closed rules = false) (h : r.accept rules f = some r') :
    r'.size = r.size + f.payload.length := by
  rw [accept, hopen, if_neg Bool.false_ne_true] at h
  obtain ⟨kind, last, payload⟩ := f
  obtain ⟨current, messages, controls⟩ := r
  cases kind with
  | control kind =>
      dsimp only at h
      split_ifs at h
      cases h
      simp [size]
      omega
  | first kind =>
      cases current with
      | some m => cases h
      | none =>
          cases h
          cases last <;> simp [size]
          all_goals omega
  | more =>
      cases current with
      | none => cases h
      | some m =>
          cases h
          cases last <;> simp [size]
          all_goals omega

/-- On a connection that was not closed everything has come. -/
theorem size_foldlM (hopen : r'.closed rules = false)
    (h : fs.foldlM (accept rules) r = some r') :
    r'.size = r.size + (fs.map fun f => f.payload.length).sum := by
  induction fs generalizing r with
  | nil =>
      cases h
      rfl
  | cons f fs ih =>
      have hclosed : r.closed rules = false := by
        rw [closed_foldlM h, Bool.or_eq_false_iff] at hopen
        exact hopen.1
      obtain ⟨r₁, hfirst, hrest⟩ := Option.bind_eq_some_iff.mp h
      rw [ih hrest, size_accept hclosed hfirst, List.map_cons, List.sum_cons, Nat.add_assoc]

end Receiver

end AndonConsole.Lib
