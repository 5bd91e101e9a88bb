import Mathlib.Data.List.Induction

/-!
A bit that some inputs set and others reset, and that keeps its value on all
others. After any inputs it is set exactly when one of them set it and none
has reset it since.
-/

namespace AndonConsole.Lib

variable {ι : Type*} {set reset : ι → Bool} {q : Bool} {l : List ι}

def latch (set reset : ι → Bool) (q : Bool) (l : List ι) : Bool :=
  l.foldl (fun q i => if set i then true else if reset i then false else q) q

@[simp] theorem latch_nil : latch set reset q [] = q := rfl

@[simp] theorem latch_snoc (i : ι) :
    latch set reset q (l ++ [i]) =
      if set i then true else if reset i then false else latch set reset q l := by
  simp [latch]

/-- Some input has set the latch, and none has reset it since. -/
def SetSince (set reset : ι → Bool) (l : List ι) : Prop :=
  ∃ before i after, l = before ++ i :: after ∧ set i = true ∧ ∀ j ∈ after, reset j = false

theorem setSince_snoc (i : ι) :
    SetSince set reset (l ++ [i]) ↔
      set i = true ∨ SetSince set reset l ∧ reset i = false := by
  refine ⟨fun h => ?_, fun h => ?_⟩
  · obtain ⟨before, j, after, heq, hset, hafter⟩ := h
    rcases List.eq_nil_or_concat after with rfl | ⟨after, k, rfl⟩
    -- the last input itself has set the latch
    · obtain ⟨-, rfl⟩ := List.append_inj' heq rfl |>.imp_right List.singleton_inj.mp
      exact .inl hset
    · rw [List.concat_eq_append, ← List.cons_append, ← List.append_assoc] at heq
      obtain ⟨rfl, rfl⟩ := List.append_inj' heq rfl |>.imp_right List.singleton_inj.mp
      exact .inr ⟨⟨before, j, after, rfl, hset, fun j hj => hafter j (by simp [hj])⟩,
        hafter i (by simp)⟩
  · rcases h with hset | ⟨⟨before, j, after, rfl, hset, hafter⟩, hreset⟩
    · exact ⟨l, i, [], rfl, hset, by simp⟩
    · refine ⟨before, j, after ++ [i], by simp, hset, fun k hk => ?_⟩
      rcases List.mem_append.mp hk with hk | hk
      · exact hafter k hk
      · rwa [List.mem_singleton.mp hk]

theorem latch_eq_true_iff :
    latch set reset false l = true ↔ SetSince set reset l := by
  induction l using List.reverseRecOn with
  | nil => simp [SetSince]
  | append_singleton l i ih =>
      rw [latch_snoc, setSince_snoc, ← ih]
      cases hset : set i <;> cases hreset : reset i <;> simp

end AndonConsole.Lib
