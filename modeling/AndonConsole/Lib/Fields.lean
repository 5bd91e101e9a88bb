import Mathlib.Data.List.TakeWhile

/-!
Delimited fields of a list, and the scanner that yields them one by one.

`fields d l` is the list of the maximal non-empty runs of `l` that do not
contain the delimiter `d`; `IsFields` says so without a function.
`nextField d` is the stateful way to the same list: it skips a run of
delimiters, cuts the run that follows, and hands back what is left behind
the delimiter that ended it. The two agree field by field, so a program
that calls a scanner a fixed number of times reads fixed positions of
`fields`.
-/

namespace AndonConsole.Lib

variable {α : Type*} [DecidableEq α]

/-- The maximal non-empty runs of `l` without the delimiter `d`, in order. -/
def fields (d : α) (l : List α) : List (List α) :=
  (l.splitOn d).filter (fun f => !f.isEmpty)

@[simp] theorem fields_nil (d : α) : fields d [] = [] := by
  simp [fields]

@[simp] theorem fields_append_cons (d : α) (xs ys : List α) :
    fields d (xs ++ d :: ys) = fields d xs ++ fields d ys := by
  simp [fields, List.splitOn_append_cons_self]

@[simp] theorem fields_cons_self (d : α) (ys : List α) :
    fields d (d :: ys) = fields d ys := by
  simpa using fields_append_cons d [] ys

theorem fields_of_notMem {d : α} {l : List α} (hd : d ∉ l) (hl : l ≠ []) :
    fields d l = [l] := by
  simp [fields, List.splitOn_eq_singleton hd, hl]

theorem fields_dropWhile (d : α) (l : List α) :
    fields d (l.dropWhile (· == d)) = fields d l := by
  induction l with
  | nil => rfl
  | cons a l ih =>
      by_cases ha : a = d
      · subst ha
        simpa using ih
      · simp [ha]

/-- A piece cut out by `splitOn` has no delimiter and only elements of the
list it was cut from. -/
theorem mem_splitOn {d : α} {l f : List α} (hf : f ∈ l.splitOn d) :
    d ∉ f ∧ f ⊆ l := by
  induction l generalizing f with
  | nil =>
      simp only [List.splitOn_nil, List.mem_singleton] at hf
      subst hf
      simp
  | cons a l ih =>
      rw [List.splitOn_cons_eq_if_modifyHead] at hf
      split at hf
      · rcases List.mem_cons.mp hf with rfl | hf
        · simp
        · exact ⟨(ih hf).1, List.Subset.trans (ih hf).2 (List.subset_cons_self a l)⟩
      · rename_i ha
        obtain ⟨first, rest, hsplit⟩ :=
          List.exists_cons_of_ne_nil (List.splitOn_ne_nil d l)
        rw [hsplit, List.modifyHead_cons] at hf
        rcases List.mem_cons.mp hf with rfl | hf
        · obtain ⟨hd, hsub⟩ := ih (f := first) (by simp [hsplit])
          refine ⟨?_, List.cons_subset_cons a hsub⟩
          simpa [hd] using fun h : d = a => ha (by simp [h])
        · obtain ⟨hd, hsub⟩ := ih (f := f) (by simp [hsplit, hf])
          exact ⟨hd, List.Subset.trans hsub (List.subset_cons_self a l)⟩

theorem mem_fields {d : α} {l f : List α} (hf : f ∈ fields d l) :
    f ≠ [] ∧ d ∉ f ∧ f ⊆ l := by
  obtain ⟨hsplit, hne⟩ := List.mem_filter.mp hf
  exact ⟨by simpa using hne, mem_splitOn hsplit⟩

/-- Joining pieces by the delimiter concatenates their fields: an empty
piece adds none, a piece with delimiters in it adds several. -/
theorem fields_intercalate (d : α) (ls : List (List α)) :
    fields d ([d].intercalate ls) = ls.flatMap (fields d) := by
  induction ls with
  | nil => simp [List.intercalate]
  | cons l ls ih =>
      cases ls with
      | nil => simp [List.intercalate]
      | cons m ls =>
          rw [List.intercalate_cons_cons, List.append_assoc, List.singleton_append,
            fields_append_cons, ih, ← List.flatMap_cons]

/-! ### The fields as a relation -/

/-- `IsFields d l fs`: the list is the fields, in order, behind and between
delimiters, at least one of them between two fields. -/
inductive IsFields (d : α) : List α → List (List α) → Prop
  | empty (k : ℕ) : IsFields d (List.replicate k d) []
  | last (k : ℕ) {f : List α} : f ≠ [] → d ∉ f → IsFields d (List.replicate k d ++ f) [f]
  | cons (k : ℕ) {f l : List α} {fs : List (List α)} :
      f ≠ [] → d ∉ f → IsFields d l fs →
      IsFields d (List.replicate k d ++ (f ++ d :: l)) (f :: fs)

theorem fields_replicate_append (d : α) (k : ℕ) (l : List α) :
    fields d (List.replicate k d ++ l) = fields d l := by
  induction k with
  | zero => rfl
  | succ k ih => rw [List.replicate_succ, List.cons_append, fields_cons_self, ih]

theorem IsFields.eq_fields {d : α} {l : List α} {fs : List (List α)} (h : IsFields d l fs) :
    fs = fields d l := by
  induction h with
  | empty k => simpa using (fields_replicate_append d k []).symm
  | last k hne hd => rw [fields_replicate_append, fields_of_notMem hd hne]
  | cons k hne hd _ ih =>
      rw [fields_replicate_append, fields_append_cons, fields_of_notMem hd hne, ← ih]
      rfl

omit [DecidableEq α] in
theorem IsFields.cons_self {d : α} {l : List α} {fs : List (List α)} (h : IsFields d l fs) :
    IsFields d (d :: l) fs := by
  cases h with
  | empty k => exact .empty (k + 1)
  | last k hne hd => exact .last (k + 1) hne hd
  | cons k hne hd h => exact .cons (k + 1) hne hd h

omit [DecidableEq α] in
/-- An element in front of a list starts a field or goes on with the first. -/
theorem IsFields.exists_cons {d a : α} (ha : a ≠ d) {l : List α} {fs : List (List α)}
    (h : IsFields d l fs) : ∃ fs', IsFields d (a :: l) fs' := by
  have hnew : d ∉ [a] := by simpa using Ne.symm ha
  have hmore {f : List α} (hd : d ∉ f) : d ∉ a :: f := by simp [hd, Ne.symm ha]
  cases h with
  | empty k =>
      cases k with
      | zero => exact ⟨_, .last 0 (by simp) hnew⟩
      | succ k => exact ⟨_, .cons 0 (by simp) hnew (.empty k)⟩
  | last k hne hd =>
      cases k with
      | zero => exact ⟨_, .last 0 (by simp) (hmore hd)⟩
      | succ k => exact ⟨_, .cons 0 (by simp) hnew (.last k hne hd)⟩
  | cons k hne hd h =>
      cases k with
      | zero => exact ⟨_, .cons 0 (by simp) (hmore hd) h⟩
      | succ k => exact ⟨_, .cons 0 (by simp) hnew (.cons k hne hd h)⟩

theorem isFields_iff {d : α} {l : List α} {fs : List (List α)} :
    IsFields d l fs ↔ fs = fields d l := by
  refine ⟨IsFields.eq_fields, ?_⟩
  rintro rfl
  have hex : ∃ fs, IsFields d l fs := by
    induction l with
    | nil => exact ⟨[], .empty 0⟩
    | cons a l ih =>
        obtain ⟨fs, h⟩ := ih
        by_cases ha : a = d
        · rw [ha]
          exact ⟨fs, h.cons_self⟩
        · exact h.exists_cons ha
  obtain ⟨fs, h⟩ := hex
  rwa [← h.eq_fields]

/-! ### The scanner -/

/-- Skip delimiters, then cut the run that follows: the field, if there is
one, and the list behind the delimiter that ended it. -/
def nextField (d : α) (l : List α) : Option (List α) × List α :=
  match l.dropWhile (· == d) with
  | [] => (none, [])
  | a :: rest =>
      (some ((a :: rest).takeWhile (· != d)), ((a :: rest).dropWhile (· != d)).tail)

/-- One call of the scanner takes the head off the fields that are left. -/
theorem nextField_spec (d : α) (l : List α) :
    (nextField d l).1 = (fields d l).head? ∧
      fields d (nextField d l).2 = (fields d l).tail := by
  rw [← fields_dropWhile d l]
  cases hskip : l.dropWhile (· == d) with
  | nil => simp [nextField, hskip]
  | cons a rest =>
      have ha : a ≠ d := by
        have := List.head_dropWhile_not (· == d) (l := l) (by simp [hskip])
        simpa [hskip] using this
      simp only [nextField, hskip]
      set run := (a :: rest).takeWhile (· != d) with hrun
      set after := (a :: rest).dropWhile (· != d) with hafter
      have hsplit : a :: rest = run ++ after := (List.takeWhile_append_dropWhile).symm
      have hne : run ≠ [] := by simp [hrun, ha]
      have hnot : d ∉ run := by
        intro hmem
        simpa using List.mem_takeWhile_imp hmem
      rw [hsplit]
      -- the run ends with the list or at a delimiter
      cases hend : after with
      | nil => simp [fields_of_notMem hnot hne]
      | cons b tail =>
          have hb : b = d := by
            have := List.head_dropWhile_not (· != d) (l := a :: rest) (by simp [← hafter, hend])
            simpa [← hafter, hend] using this
          subst hb
          simp [fields_of_notMem hnot hne]

theorem nextField_fst (d : α) (l : List α) : (nextField d l).1 = (fields d l).head? :=
  (nextField_spec d l).1

theorem fields_nextField_snd (d : α) (l : List α) :
    fields d (nextField d l).2 = (fields d l).tail :=
  (nextField_spec d l).2

theorem nextField_snd_subset (d : α) (l : List α) : (nextField d l).2 ⊆ l := by
  rw [nextField]
  split
  · simp
  · rename_i a rest hskip
    apply List.Subset.trans (List.tail_sublist _).subset
    apply List.Subset.trans (List.dropWhile_sublist _).subset
    rw [← hskip]
    exact (List.dropWhile_sublist _).subset

end AndonConsole.Lib
