import Mathlib.Data.List.Induction

/-!
Runs of labelled transition systems, and of polling loops.

A `Run` records the labels of the steps it took, so that an invariant may
speak about the history as well as about the state. `pollLoop` is the
shape of an interactive `while (true)`: it is fed one input at a time,
every input either leaves a new loop state or ends the loop with a result,
and the body may fail. Both come with the rule that turns what one step
preserves into what a whole run preserves.
-/

namespace AndonConsole.Lib

variable {σ ε ρ φ ι : Type*}

/-- `Run step s₀ es s`: from `s₀`, steps with the labels `es` lead to `s`. -/
inductive Run (step : σ → ε → σ → Prop) (s₀ : σ) : List ε → σ → Prop
  | start : Run step s₀ [] s₀
  | snoc {es : List ε} {s s' : σ} {e : ε} :
      Run step s₀ es s → step s e s' → Run step s₀ (es ++ [e]) s'

namespace Run

variable {step : σ → ε → σ → Prop} {s₀ s : σ} {es : List ε}

/-- An invariant of history and state that holds at the start and is kept by
every step holds after every run. -/
theorem invariant {I : List ε → σ → Prop} (hstart : I [] s₀)
    (hstep : ∀ es s e s', I es s → step s e s' → I (es ++ [e]) s')
    (hrun : Run step s₀ es s) : I es s := by
  induction hrun with
  | start => exact hstart
  | snoc _ hlast ih => exact hstep _ _ _ _ ih hlast

theorem single {e : ε} {s' : σ} (h : step s₀ e s') : Run step s₀ [e] s' :=
  .snoc .start h

theorem trans {es' : List ε} {s' : σ} (h : Run step s₀ es s) (h' : Run step s es' s') :
    Run step s₀ (es ++ es') s' := by
  induction h' with
  | start => simpa using h
  | snoc _ hlast ih =>
      rw [← List.append_assoc]
      exact .snoc ih hlast

end Run

/-! ### Polling loops -/

/-- Feed a loop body its inputs: `inl` is the loop state at the next poll,
`inr` the result the body ended the loop with. Inputs after that are not
consumed. -/
def pollLoop (body : σ → ι → Except φ (σ ⊕ ρ)) : σ → List ι → Except φ (σ ⊕ ρ)
  | s, [] => .ok (.inl s)
  | s, i :: is =>
      match body s i with
      | .error f => .error f
      | .ok (.inl s') => pollLoop body s' is
      | .ok (.inr r) => .ok (.inr r)

variable {body : σ → ι → Except φ (σ ⊕ ρ)} {s s' : σ} {r : ρ} {is : List ι}

@[simp] theorem pollLoop_nil : pollLoop body s [] = .ok (.inl s) := rfl

theorem pollLoop_append (is' : List ι) :
    pollLoop body s (is ++ is') =
      (match pollLoop body s is with
        | .error f => .error f
        | .ok (.inl s') => pollLoop body s' is'
        | .ok (.inr r) => .ok (.inr r)) := by
  induction is generalizing s with
  | nil => rfl
  | cons i is ih =>
      rw [List.cons_append, pollLoop, pollLoop]
      split
      · rfl
      · exact ih
      · rfl

theorem pollLoop_append_of_poll (h : pollLoop body s is = .ok (.inl s')) (is' : List ι) :
    pollLoop body s (is ++ is') = pollLoop body s' is' := by
  rw [pollLoop_append, h]

theorem pollLoop_single (i : ι) : pollLoop body s [i] = body s i := by
  rw [pollLoop]
  split <;> rename_i h <;> simp [h]

/-- The invariant rule for a loop however far it comes: `I` holds at its polls, and
`Q` of its result. -/
theorem pollLoop_of_ok {I : σ → Prop} {Q : ρ → Prop} {o : σ ⊕ ρ} (hstart : I s)
    (hbody : ∀ s i o, I s → body s i = .ok o → Sum.elim I Q o)
    (h : pollLoop body s is = .ok o) : Sum.elim I Q o := by
  induction is generalizing s with
  | nil =>
      cases h
      exact hstart
  | cons i is ih =>
      rw [pollLoop] at h
      split at h
      · cases h
      · rename_i hs
        exact ih (hbody _ _ _ hstart hs) h
      · rename_i hs
        cases h
        exact hbody _ _ _ hstart hs

/-- The invariant rule for a loop that no input of the list ends: if on every
first part of the inputs the body takes a state with history `p` to one with
history `p ++ [i]`, the loop is still polling after the whole list, and the
invariant holds there. -/
theorem pollLoop_invariant {I : List ι → σ → Prop} (hstart : I [] s)
    (hbody : ∀ p i s, p ++ [i] <+: is → I p s →
      ∃ s', body s i = .ok (.inl s') ∧ I (p ++ [i]) s') :
    ∃ s', pollLoop body s is = .ok (.inl s') ∧ I is s' := by
  induction is using List.reverseRecOn with
  | nil => exact ⟨s, rfl, hstart⟩
  | append_singleton is i ih =>
      obtain ⟨m, hm, hI⟩ := ih fun p j s hp =>
        hbody p j s (hp.trans (List.prefix_append is [i]))
      obtain ⟨s', hs', hI'⟩ := hbody is i m (List.prefix_refl _) hI
      exact ⟨s', by rw [pollLoop_append_of_poll hm, pollLoop_single, hs'], hI'⟩

end AndonConsole.Lib
