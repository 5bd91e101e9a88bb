import Mathlib.Logic.Function.Basic
import Mathlib.Data.List.Basic

/-!
Overlays: writing a list of cells, one after the other, over a function.

A later write to a cell hides an earlier one. What matters to a program
that redraws something is when the cells below do not show through: where
every cell that differed before is written again, the result depends on
the last list of writes only.
-/

namespace AndonConsole.Lib

variable {κ ν : Type*} [DecidableEq κ]

/-- Write the cells `ws` over `f`, from left to right. -/
def overlay (ws : List (κ × ν)) (f : κ → ν) : κ → ν :=
  ws.foldl (fun f w => Function.update f w.1 w.2) f

@[simp] theorem overlay_nil (f : κ → ν) : overlay [] f = f := rfl

@[simp] theorem overlay_cons (w : κ × ν) (ws : List (κ × ν)) (f : κ → ν) :
    overlay (w :: ws) f = overlay ws (Function.update f w.1 w.2) := rfl

theorem overlay_append (ws ws' : List (κ × ν)) (f : κ → ν) :
    overlay (ws ++ ws') f = overlay ws' (overlay ws f) := List.foldl_append

theorem overlay_of_notMem {ws : List (κ × ν)} {k : κ} (hk : k ∉ ws.map Prod.fst)
    (f : κ → ν) : overlay ws f k = f k := by
  induction ws generalizing f with
  | nil => rfl
  | cons w ws ih =>
      simp only [List.map_cons, List.mem_cons, not_or] at hk
      rw [overlay_cons, ih hk.2, Function.update_of_ne hk.1]

theorem overlay_congr_of_mem {ws : List (κ × ν)} {k : κ} (hk : k ∈ ws.map Prod.fst)
    (f g : κ → ν) : overlay ws f k = overlay ws g k := by
  induction ws generalizing f g with
  | nil => simp at hk
  | cons w ws ih =>
      by_cases hws : k ∈ ws.map Prod.fst
      · exact ih hws _ _
      · have hkw : k = w.1 := by simpa [hws] using hk
        rw [overlay_cons, overlay_cons, overlay_of_notMem hws, overlay_of_notMem hws, hkw]
        simp

/-- Where all writes are of one value, it is what is written. -/
theorem overlay_of_forall_eq {ws : List (κ × ν)} {c : ν} (hws : ∀ w ∈ ws, w.2 = c) {k : κ}
    (hk : k ∈ ws.map Prod.fst) (f : κ → ν) : overlay ws f k = c := by
  induction ws generalizing f with
  | nil => simp at hk
  | cons w ws ih =>
      rw [overlay_cons]
      by_cases hmem : k ∈ ws.map Prod.fst
      · exact ih (fun v hv => hws v (by simp [hv])) hmem _
      · have hkw : k = w.1 := by simpa [hmem] using hk
        rw [overlay_of_notMem hmem, hkw, Function.update_self]
        exact hws w (by simp)

theorem overlay_eq_self {ws : List (κ × ν)} {f : κ → ν} {k : κ}
    (hws : ∀ w ∈ ws, w.1 = k → w.2 = f k) : overlay ws f k = f k := by
  induction ws generalizing f with
  | nil => rfl
  | cons w ws ih =>
      have hw : Function.update f w.1 w.2 k = f k := by
        by_cases hk : k = w.1
        · subst hk
          rw [Function.update_self, hws w (by simp) rfl]
        · rw [Function.update_of_ne hk]
      rw [overlay_cons, ih, hw]
      intro v hv hvk
      rw [hw]
      exact hws v (by simp [hv]) hvk

/-- Writes over writes to some of the same cells: nothing shows through. -/
theorem overlay_overlay_of_subset {ws ws' : List (κ × ν)}
    (hsub : ws.map Prod.fst ⊆ ws'.map Prod.fst) (f : κ → ν) :
    overlay ws' (overlay ws f) = overlay ws' f := by
  ext k
  by_cases hk : k ∈ ws'.map Prod.fst
  · exact overlay_congr_of_mem hk _ _
  · rw [overlay_of_notMem hk, overlay_of_notMem hk]
    exact overlay_of_notMem (fun h => hk (hsub h)) f

theorem overlay_comm {ws ws' : List (κ × ν)}
    (hdisj : (ws.map Prod.fst).Disjoint (ws'.map Prod.fst)) (f : κ → ν) :
    overlay ws' (overlay ws f) = overlay ws (overlay ws' f) := by
  ext k
  by_cases hk : k ∈ ws.map Prod.fst
  · rw [overlay_of_notMem (hdisj hk)]
    exact overlay_congr_of_mem hk _ _
  · rw [overlay_of_notMem hk]
    by_cases hk' : k ∈ ws'.map Prod.fst
    · exact overlay_congr_of_mem hk' _ _
    · rw [overlay_of_notMem hk', overlay_of_notMem hk', overlay_of_notMem hk]

theorem exists_overlay_ne_iff [Nontrivial ν] {ws : List (κ × ν)} {k : κ} :
    (∃ f, overlay ws f k ≠ f k) ↔ k ∈ ws.map Prod.fst := by
  constructor
  · rintro ⟨f, hf⟩
    by_contra hk
    exact hf (overlay_of_notMem hk f)
  · intro hk
    -- what is written does not depend on what was there
    obtain ⟨c, hc⟩ := exists_ne (overlay ws (fun _ => Classical.arbitrary ν) k)
    refine ⟨fun _ => c, ?_⟩
    rw [overlay_congr_of_mem hk _ fun _ => Classical.arbitrary ν]
    exact hc.symm

/-- Where no cell is written twice, each write is there to be read. -/
theorem overlay_of_mem {ws : List (κ × ν)} (hnodup : (ws.map Prod.fst).Nodup)
    {w : κ × ν} (hw : w ∈ ws) (f : κ → ν) : overlay ws f w.1 = w.2 := by
  induction ws generalizing f with
  | nil => simp at hw
  | cons v ws ih =>
      rw [List.map_cons, List.nodup_cons] at hnodup
      rw [overlay_cons]
      rcases List.mem_cons.mp hw with rfl | hw
      · rw [overlay_of_notMem hnodup.1, Function.update_self]
      · exact ih hnodup.2 hw _

/-- Without double writes, every value on top of a constant that is not the
constant was put there by one of the writes. -/
theorem mem_of_overlay_ne {ws : List (κ × ν)} (hnodup : (ws.map Prod.fst).Nodup)
    {k : κ} {c : ν} (hne : overlay ws (fun _ => c) k ≠ c) :
    (k, overlay ws (fun _ => c) k) ∈ ws := by
  have hk : k ∈ ws.map Prod.fst := by
    by_contra hk
    exact hne (overlay_of_notMem hk _)
  obtain ⟨w, hw, rfl⟩ := List.mem_map.mp hk
  rw [overlay_of_mem hnodup hw]
  exact hw

end AndonConsole.Lib
