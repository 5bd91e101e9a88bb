import Mathlib.Data.List.Forall2

/-!
Computations that may fail, read backwards: what a sequence of them and a
`mapM` over a list have done when they have not failed.
-/

namespace AndonConsole.Lib

universe u v

variable {α β : Type u} {φ : Type v}

theorem bind_eq_ok {x : Except φ α} {f : α → Except φ β} {b : β} :
    (x >>= f) = .ok b ↔ ∃ a, x = .ok a ∧ f a = .ok b := by
  cases x with
  | error e => simp [bind, Except.bind]
  | ok a => simp [bind, Except.bind]

theorem bind_eq_error {x : Except φ α} {f : α → Except φ β} {e : φ} :
    (x >>= f) = .error e ↔ x = .error e ∨ ∃ a, x = .ok a ∧ f a = .error e := by
  cases x with
  | error e' => simp [bind, Except.bind]
  | ok a => simp [bind, Except.bind]

theorem mapM_eq_ok_iff {f : α → Except φ β} {l : List α} {r : List β} :
    l.mapM f = .ok r ↔ List.Forall₂ (fun a b => f a = .ok b) l r := by
  induction l generalizing r with
  | nil => simp [pure, Except.pure, eq_comm]
  | cons a l ih =>
      simp only [List.mapM_cons, bind_eq_ok, List.forall₂_cons_left_iff, ih]
      refine ⟨fun h => ?_, fun h => ?_⟩
      · obtain ⟨b, hb, bs, hbs, hr⟩ := h
        exact ⟨b, bs, hb, hbs, (Except.ok.inj hr).symm⟩
      · obtain ⟨b, bs, hb, hbs, rfl⟩ := h
        exact ⟨b, hb, bs, hbs, rfl⟩

theorem exists_of_mem_mapM {f : α → Except φ β} {l : List α} {r : List β} {b : β}
    (h : l.mapM f = .ok r) (hb : b ∈ r) : ∃ a ∈ l, f a = .ok b := by
  have hall := mapM_eq_ok_iff.mp h
  clear h
  induction hall with
  | nil => cases hb
  | @cons a b' l r hab _ ih =>
      rcases List.mem_cons.mp hb with rfl | hb
      · exact ⟨a, by simp, hab⟩
      · obtain ⟨a', ha', hab'⟩ := ih hb
        exact ⟨a', by simp [ha'], hab'⟩

theorem exists_mapM_eq_ok {f : α → Except φ β} {l : List α}
    (h : ∀ a ∈ l, ∃ b, f a = .ok b) : ∃ r, l.mapM f = .ok r := by
  simp only [mapM_eq_ok_iff]
  induction l with
  | nil => exact ⟨[], .nil⟩
  | cons a l ih =>
      obtain ⟨b, hb⟩ := h a (by simp)
      obtain ⟨r, hr⟩ := ih fun a' ha' => h a' (by simp [ha'])
      exact ⟨b :: r, .cons hb hr⟩

theorem exists_mapM_eq_ok_iff {f : α → Except φ β} {l : List α} :
    (∃ r, l.mapM f = .ok r) ↔ ∀ a ∈ l, ∃ b, f a = .ok b := by
  refine ⟨fun h => ?_, exists_mapM_eq_ok⟩
  obtain ⟨r, hr⟩ := h
  have hall := mapM_eq_ok_iff.mp hr
  clear hr
  induction hall with
  | nil => simp
  | cons hab _ ih =>
      intro a ha
      rcases List.mem_cons.mp ha with rfl | ha
      · exact ⟨_, hab⟩
      · exact ih a ha

/-- What the results of a `mapM` keep of the elements they were made from. -/
theorem map_of_forall₂ {γ : Type*} {R : α → β → Prop} {f : α → γ} {g : β → γ}
    (hR : ∀ a b, R a b → g b = f a) {l : List α} {r : List β} (h : List.Forall₂ R l r) :
    r.map g = l.map f := by
  induction h with
  | nil => rfl
  | cons hab _ ih => simp [hR _ _ hab, ih]

theorem forall₂_snoc_left {R : α → β → Prop} {l : List α} {a : α} {r : List β}
    (h : List.Forall₂ R (l ++ [a]) r) :
    ∃ r' b, r = r' ++ [b] ∧ List.Forall₂ R l r' ∧ R a b := by
  have hrev := List.forall₂_reverse_iff.mpr h
  rw [List.reverse_append, List.reverse_singleton, List.singleton_append,
    List.forall₂_cons_left_iff] at hrev
  obtain ⟨b, r', hab, hrest, hr⟩ := hrev
  refine ⟨r'.reverse, b, ?_, ?_, hab⟩
  · rw [List.reverse_eq_iff.mp hr, List.reverse_cons]
  · rw [← List.forall₂_reverse_iff]
    simpa using hrest

theorem exists_of_mapM_eq_error {f : α → Except φ β} {l : List α} {e : φ}
    (h : l.mapM f = .error e) : ∃ a ∈ l, f a = .error e := by
  induction l with
  | nil => cases h
  | cons a l ih =>
      rw [List.mapM_cons, bind_eq_error] at h
      rcases h with h | ⟨b, -, h⟩
      · exact ⟨a, by simp, h⟩
      · rcases bind_eq_error.mp h with h | ⟨bs, -, h⟩
        · obtain ⟨a', ha', h⟩ := ih h
          exact ⟨a', by simp [ha'], h⟩
        · cases h

theorem mapM_error_of_head {f : α → Except φ β} {a : α} {l : List α} {e : φ}
    (h : f a = .error e) : (a :: l).mapM f = .error e := by
  simp [List.mapM_cons, h, bind, Except.bind]

end AndonConsole.Lib
