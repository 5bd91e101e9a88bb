import Mathlib.Algebra.BigOperators.Group.List.Basic
import Mathlib.Algebra.Order.Group.Int
import Mathlib.Algebra.Ring.Int.Defs
import Mathlib.Data.List.Induction

/-!
Cursors over a list of `n` entries, counted from one.

A wrapping cursor goes from the last entry to the first and back; after any
moves it stands at the net number of moves modulo `n`. A capped cursor
stops at the last entry but has no floor. Where it has got to is the
smallest of its free position and of what it can have made up since it was
last held back, and from this follows, in terms of the moves alone, when a
capped cursor has left the list at the lower end.
-/

namespace AndonConsole.Lib

/-! ### Wrapping cursors -/

def wrapBack (n m : ℤ) : ℤ := if m = 1 then n else m - 1

def wrapNext (n m : ℤ) : ℤ := if m = n then 1 else m + 1

theorem wrapNext_emod {n : ℤ} (hn : 1 ≤ n) (k : ℤ) :
    wrapNext n (k % n + 1) = (k + 1) % n + 1 := by
  have hlt := Int.emod_lt_of_pos k (show 0 < n by omega)
  have hnonneg := Int.emod_nonneg k (show n ≠ 0 by omega)
  rw [← Int.emod_add_emod k n 1, wrapNext]
  generalize k % n = r at *
  split_ifs with hlast
  · rw [hlast, Int.emod_self, zero_add]
  · rw [Int.emod_eq_of_lt (by omega : 0 ≤ r + 1) (by omega)]

theorem wrapBack_emod {n : ℤ} (hn : 1 ≤ n) (k : ℤ) :
    wrapBack n (k % n + 1) = (k - 1) % n + 1 := by
  have hlt := Int.emod_lt_of_pos k (show 0 < n by omega)
  have hnonneg := Int.emod_nonneg k (show n ≠ 0 by omega)
  rw [sub_eq_add_neg k 1, ← Int.emod_add_emod k n (-1), wrapBack]
  generalize k % n = r at *
  split_ifs with hfirst
  · rw [show r + -1 = (n - 1) - n by omega, Int.sub_emod_right,
      Int.emod_eq_of_lt (by omega : 0 ≤ n - 1) (by omega)]
    omega
  · rw [Int.emod_eq_of_lt (by omega : 0 ≤ r + -1) (by omega)]
    omega

theorem emod_add_one_mem {n : ℤ} (hn : 1 ≤ n) (k : ℤ) :
    1 ≤ k % n + 1 ∧ k % n + 1 ≤ n := by
  have hlt := Int.emod_lt_of_pos k (show 0 < n by omega)
  have hnonneg := Int.emod_nonneg k (show n ≠ 0 by omega)
  omega

/-! ### Capped cursors -/

/-- Take the steps one after the other, held back at `n`. -/
def cappedWalk (n c : ℤ) (steps : List ℤ) : ℤ :=
  steps.foldl (fun c s => min n (c + s)) c

@[simp] theorem cappedWalk_nil (n c : ℤ) : cappedWalk n c [] = c := rfl

@[simp] theorem cappedWalk_snoc (n c : ℤ) (steps : List ℤ) (s : ℤ) :
    cappedWalk n c (steps ++ [s]) = min n (cappedWalk n c steps + s) := by
  simp [cappedWalk]

/-- A capped walk is the least of the free walk and of the cap plus any last
part of the steps. -/
theorem le_cappedWalk_iff {n c : ℤ} (hc : c ≤ n) (k : ℤ) (steps : List ℤ) :
    k ≤ cappedWalk n c steps ↔
      k ≤ c + steps.sum ∧ ∀ t, t <:+ steps → k ≤ n + t.sum := by
  induction steps using List.reverseRecOn generalizing k with
  | nil =>
      simp only [cappedWalk_nil, List.sum_nil, add_zero, List.suffix_nil, forall_eq]
      omega
  | append_singleton steps s ih =>
      rw [cappedWalk_snoc, le_min_iff, show k ≤ cappedWalk n c steps + s ↔
        k - s ≤ cappedWalk n c steps by omega, ih]
      simp only [List.sum_append, List.sum_singleton]
      refine ⟨fun h => ?_, fun h => ?_⟩
      · obtain ⟨hn, hfree, hcap⟩ := h
        refine ⟨by omega, fun t ht => ?_⟩
        -- the empty last part is the cap itself
        rcases List.suffix_concat_iff.mp (by simpa using ht) with rfl | ⟨u, rfl, hu⟩
        · simpa using hn
        · have := hcap u hu
          simp only [List.sum_append, List.sum_singleton]
          omega
      · obtain ⟨hfree, hcap⟩ := h
        refine ⟨by simpa using hcap [] (List.nil_suffix), by omega, fun t ht => ?_⟩
        have := hcap (t ++ [s]) (List.suffix_concat_iff.mpr (.inr ⟨t, rfl, ht⟩))
        simp only [List.sum_append, List.sum_singleton] at this
        omega

theorem cappedWalk_le {n c : ℤ} (hc : c ≤ n) (steps : List ℤ) : cappedWalk n c steps ≤ n := by
  simpa using ((le_cappedWalk_iff hc _ steps).mp le_rfl).2 [] (List.nil_suffix)

/-- A capped cursor that starts at the first entry is on the list exactly when
the moves have not gone back further than on, and no last part of them has
gone back by the whole length of the list. -/
theorem one_le_cappedWalk_iff {n : ℤ} (hn : 1 ≤ n) (steps : List ℤ) :
    1 ≤ cappedWalk n 1 steps ↔ 0 ≤ steps.sum ∧ ∀ t, t <:+ steps → 0 < n + t.sum := by
  rw [le_cappedWalk_iff hn]
  refine ⟨fun h => ?_, fun h => ?_⟩
  · obtain ⟨hfree, hcap⟩ := h
    exact ⟨by omega, fun t ht => by have := hcap t ht; omega⟩
  · obtain ⟨hfree, hcap⟩ := h
    exact ⟨by omega, fun t ht => by have := hcap t ht; omega⟩

end AndonConsole.Lib
