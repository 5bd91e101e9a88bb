import Mathlib.Data.List.Basic

/-!
Loops that produce output.

The shape of a `for` over a list of inputs whose body changes a state, puts
out a few items and may break. The output of the loop is that of its turns
one after the other, up to and including the turn that breaks.
-/

namespace AndonConsole.Lib

variable {σ ι ω : Type*}

/-- What a turn of a loop, or a whole loop, has done. -/
structure Turn (σ ω : Type*) where
  state : σ
  output : List ω
  breaks : Bool

namespace Turn

def andThen (first : Turn σ ω) (next : σ → Turn σ ω) : Turn σ ω :=
  if first.breaks then first
  else
    { state := (next first.state).state
      output := first.output ++ (next first.state).output
      breaks := (next first.state).breaks }

variable {first : Turn σ ω} {next last : σ → Turn σ ω}

@[simp] theorem andThen_of_breaks (h : first.breaks = true) : first.andThen next = first :=
  if_pos h

theorem andThen_of_goesOn (h : first.breaks = false) :
    first.andThen next =
      ⟨(next first.state).state, first.output ++ (next first.state).output,
        (next first.state).breaks⟩ :=
  if_neg (by simp [h])

theorem mem_andThen_output {o : ω} :
    o ∈ (first.andThen next).output ↔
      o ∈ first.output ∨ first.breaks = false ∧ o ∈ (next first.state).output := by
  cases h : first.breaks with
  | true => simp [h]
  | false => simp [andThen_of_goesOn h]

theorem andThen_assoc :
    (first.andThen next).andThen last = first.andThen fun s => (next s).andThen last := by
  cases h : first.breaks with
  | true => simp [h]
  | false =>
      rw [andThen_of_goesOn h, andThen_of_goesOn h]
      cases hnext : (next first.state).breaks with
      | true => rw [andThen_of_breaks rfl, andThen_of_breaks hnext, hnext]
      | false => rw [andThen_of_goesOn rfl, andThen_of_goesOn hnext, List.append_assoc]

end Turn

/-- Run the body on one input after the other. -/
def outputLoop (body : σ → ι → Turn σ ω) : σ → List ι → Turn σ ω
  | s, [] => ⟨s, [], false⟩
  | s, i :: is => (body s i).andThen fun s => outputLoop body s is

variable {body : σ → ι → Turn σ ω} {s : σ}

@[simp] theorem outputLoop_nil : outputLoop body s [] = ⟨s, [], false⟩ := rfl

theorem outputLoop_cons (i : ι) (is : List ι) :
    outputLoop body s (i :: is) = (body s i).andThen fun s => outputLoop body s is := rfl

theorem outputLoop_append (is is' : List ι) :
    outputLoop body s (is ++ is') =
      (outputLoop body s is).andThen fun s => outputLoop body s is' := by
  induction is generalizing s with
  | nil => simp [Turn.andThen_of_goesOn]
  | cons i is ih =>
      rw [List.cons_append, outputLoop_cons, outputLoop_cons, Turn.andThen_assoc]
      simp only [ih]

/-- What every turn puts out as long as an invariant holds, the loop puts out. -/
theorem outputLoop_forall {I : σ → Prop} {P : ω → Prop} {is : List ι}
    (hturn : ∀ s, ∀ i ∈ is, I s →
      (∀ o ∈ (body s i).output, P o) ∧ ((body s i).breaks = false → I (body s i).state))
    (hs : I s) : ∀ o ∈ (outputLoop body s is).output, P o := by
  induction is generalizing s with
  | nil => simp
  | cons i is ih =>
      intro o ho
      obtain ⟨houtput, hstate⟩ := hturn s i List.mem_cons_self hs
      rw [outputLoop_cons, Turn.mem_andThen_output] at ho
      rcases ho with ho | ⟨hgoesOn, ho⟩
      · exact houtput o ho
      · exact ih (fun s i hi => hturn s i (List.mem_cons_of_mem _ hi)) (hstate hgoesOn) o ho

/-! ### Output that stands for more output -/

/-- Every item of the output replaced by the items it stands for. -/
def Turn.expand {ω' : Type*} (f : ω → List ω') (turn : Turn σ ω) : Turn σ ω' :=
  ⟨turn.state, turn.output.flatMap f, turn.breaks⟩

theorem Turn.expand_andThen {ω' : Type*} (f : ω → List ω') (first : Turn σ ω)
    (next : σ → Turn σ ω) :
    (first.andThen next).expand f = (first.expand f).andThen fun s => (next s).expand f := by
  cases h : first.breaks with
  | true =>
      have hexpand : (first.expand f).breaks = true := h
      rw [andThen_of_breaks h, andThen_of_breaks hexpand]
  | false =>
      have hexpand : (first.expand f).breaks = false := h
      rw [andThen_of_goesOn h, andThen_of_goesOn hexpand]
      simp [expand]

theorem outputLoop_expand {ω' : Type*} (f : ω → List ω') {body' : σ → ι → Turn σ ω'}
    (hbody : ∀ s i, body' s i = (body s i).expand f) (is : List ι) :
    outputLoop body' s is = (outputLoop body s is).expand f := by
  induction is generalizing s with
  | nil => rfl
  | cons i is ih =>
      rw [outputLoop_cons, outputLoop_cons, Turn.expand_andThen, hbody]
      simp only [ih]

end AndonConsole.Lib
