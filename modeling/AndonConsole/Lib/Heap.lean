import Mathlib.Data.Multiset.MapFold
import Mathlib.Data.Fintype.EquivFin
import Mathlib.Logic.Function.Basic

/-!
Memory that is allocated and freed in blocks.

A heap maps the addresses of the live blocks to their size and content. The
operations are those of C: `malloc` may answer NULL or any address that is not
in use, and `free`, `read` and `write` fault on an address that is not that of
a live block, or on a content the block has no room for. `Holds h S` says that
the live blocks are exactly those of the multiset `S`, so that what a computation
keeps in its hands is counted: a block missing from `S` has been freed, and one
that nobody names any more has leaked. `Triple` is total correctness over such multisets; its
rules leave the blocks they do not name as they are.
-/

namespace AndonConsole.Lib

/-- A block has a size, and a content once something has been written to it. -/
structure Block (γ : Type) where
  size : ℕ
  content : Option γ
  deriving DecidableEq

abbrev Heap (γ : Type) := ℕ → Option (Block γ)

inductive HeapFault
  | null
  | dangling
  | invalidFree
  | overflow
  | uninitialised
  deriving DecidableEq, Repr

abbrev HeapM (γ α : Type) := StateT (Heap γ) (Except HeapFault) α

variable {γ α β : Type}

namespace Heap

def empty : Heap γ := fun _ => none

/-- The live blocks are exactly those of `S`, and no address is counted twice. -/
structure Holds (h : Heap γ) (S : Multiset (ℕ × Block γ)) : Prop where
  nodup : (S.map Prod.fst).Nodup
  mem_iff : ∀ p b, h p = some b ↔ (p, b) ∈ S

theorem holds_empty : Holds (empty : Heap γ) 0 := ⟨by simp, by simp [empty]⟩

variable {h : Heap γ} {S : Multiset (ℕ × Block γ)} {p : ℕ} {b : Block γ}

theorem Holds.get (hS : Holds h ((p, b) ::ₘ S)) : h p = some b :=
  (hS.mem_iff p b).mpr (Multiset.mem_cons_self _ _)

/-- There is always room for one more. -/
theorem Holds.exists_free (hS : Holds h S) : ∃ p, h p = none := by
  obtain ⟨p, hp⟩ := Infinite.exists_notMem_finset (S.map Prod.fst).toFinset
  refine ⟨p, Option.eq_none_iff_forall_ne_some.mpr fun b hb => hp ?_⟩
  rw [Multiset.mem_toFinset]
  exact Multiset.mem_map_of_mem Prod.fst ((hS.mem_iff p b).mp hb)

theorem Holds.fresh (hS : Holds h S) (hp : h p = none) : p ∉ S.map Prod.fst := by
  intro hmem
  obtain ⟨⟨q, c⟩, hq, rfl⟩ := Multiset.mem_map.mp hmem
  rw [(hS.mem_iff q c).mpr hq] at hp
  cases hp

theorem Holds.insert (hS : Holds h S) (hp : h p = none) (b : Block γ) :
    Holds (Function.update h p (some b)) ((p, b) ::ₘ S) := by
  have hfresh := hS.fresh hp
  refine ⟨by simpa using ⟨by simpa using hfresh, hS.nodup⟩, fun q c => ?_⟩
  rw [Multiset.mem_cons, Prod.mk.injEq]
  by_cases hq : q = p
  · subst hq
    have hnot : (q, c) ∉ S := fun hc => hfresh (Multiset.mem_map_of_mem Prod.fst hc)
    simp [hnot, eq_comm]
  · simp [hq, hS.mem_iff]

theorem Holds.erase (hS : Holds h ((p, b) ::ₘ S)) : Holds (Function.update h p none) S := by
  have hnodup := hS.nodup
  rw [Multiset.map_cons, Multiset.nodup_cons] at hnodup
  refine ⟨hnodup.2, fun q c => ?_⟩
  by_cases hq : q = p
  · subst hq
    have hnot : (q, c) ∉ S := fun hc =>
      hnodup.1 (Multiset.mem_map.mpr ⟨(q, c), hc, rfl⟩)
    simp [hnot]
  · rw [Function.update_of_ne hq, hS.mem_iff, Multiset.mem_cons, Prod.mk.injEq]
    simp [hq]

theorem Holds.replace (hS : Holds h ((p, b) ::ₘ S)) (c : Block γ) :
    Holds (Function.update h p (some c)) ((p, c) ::ₘ S) := by
  have hins := hS.erase.insert (Function.update_self p none h) c
  rwa [Function.update_idem] at hins

end Heap

/-- A choice of an address that is not in use, for a heap that has one. -/
structure Allocator (γ : Type) where
  address : Heap γ → ℕ
  fresh : ∀ h : Heap γ, (∃ p, h p = none) → h (address h) = none

open Classical in
/-- The choice of `p`, wherever it is not in use. -/
noncomputable def Allocator.prefer (p : ℕ) : Allocator γ where
  address h := if h p = none then p else Classical.epsilon fun q => h q = none
  fresh h hfree := by
    by_cases hp : h p = none
    · rw [if_pos hp]
      exact hp
    · rw [if_neg hp]
      exact Classical.epsilon_spec hfree

/-- So an allocator can answer any free address. -/
theorem Allocator.prefer_address {h : Heap γ} {p : ℕ} (hp : h p = none) :
    (prefer p).address h = p := if_pos hp

namespace HeapM

/-- `malloc(size)`: NULL, or a block at an address that is not in use. -/
def malloc (answer : Option (Allocator γ)) (size : ℕ) : HeapM γ (Option ℕ) := fun h =>
  match answer with
  | none => .ok (none, h)
  | some a => .ok (some (a.address h), Function.update h (a.address h) (some ⟨size, none⟩))

def free (p : ℕ) : HeapM γ Unit := fun h =>
  match h p with
  | none => .error .invalidFree
  | some _ => .ok ((), Function.update h p none)

def read (p : ℕ) : HeapM γ γ := fun h =>
  match h p with
  | none => .error .dangling
  | some b => match b.content with
    | none => .error .uninitialised
    | some c => .ok (c, h)

/-- Write a content that takes `n` bytes. -/
def write (p n : ℕ) (c : γ) : HeapM γ Unit := fun h =>
  match h p with
  | none => .error .dangling
  | some b =>
      if n ≤ b.size then .ok ((), Function.update h p (some { b with content := some c }))
      else .error .overflow

def fault (f : HeapFault) : HeapM γ α := fun _ => .error f

/-- The block a pointer points to, if it is not NULL. -/
def blockAt (q : Option ℕ) (b : Block γ) : Multiset (ℕ × Block γ) :=
  match q with
  | none => 0
  | some p => {(p, b)}

/-- From a heap of just the blocks `S` the computation ends, with a fault that is one of `E`,
or with a result and live blocks of which `Q` holds. -/
def Triple (E : HeapFault → Prop) (S : Multiset (ℕ × Block γ)) (c : HeapM γ α)
    (Q : α → Multiset (ℕ × Block γ) → Prop) : Prop :=
  ∀ h, Heap.Holds h S →
    match c h with
    | .ok (a, h') => ∃ S', Heap.Holds h' S' ∧ Q a S'
    | .error f => E f

section Triple

variable {E : HeapFault → Prop} {S : Multiset (ℕ × Block γ)} {c : HeapM γ α} {f : α → HeapM γ β}
  {p n : ℕ} {b : Block γ} {Q : α → Multiset (ℕ × Block γ) → Prop}
  {R : β → Multiset (ℕ × Block γ) → Prop}

theorem Triple.pure {a : α} (h : Q a S) : Triple E S (pure a) Q :=
  fun _ hS => ⟨S, hS, h⟩

theorem Triple.bind (hc : Triple E S c Q) (hf : ∀ a S', Q a S' → Triple E S' (f a) R) :
    Triple E S (c >>= f) R := by
  intro h hS
  have hrun := hc h hS
  have hbind : (c >>= f) h = (c h >>= fun r => f r.1 r.2) := rfl
  rw [hbind]
  match hch : c h with
  | .error e =>
      rw [hch] at hrun
      exact hrun
  | .ok (a, h₁) =>
      rw [hch] at hrun
      obtain ⟨S₁, hS₁, hQ⟩ := hrun
      exact hf a S₁ hQ h₁ hS₁

/-- The rule for a computation whose result says which blocks there are. -/
theorem Triple.next {T : α → Multiset (ℕ × Block γ)} (hc : Triple E S c fun a S' => S' = T a)
    (hf : ∀ a, Triple E (T a) (f a) R) : Triple E S (c >>= f) R := by
  refine hc.bind fun a S' h => ?_
  rw [h]
  exact hf a

/-- The rule for a computation that ends in one state. -/
theorem Triple.seq {S' : Multiset (ℕ × Block γ)} {a : α}
    (hc : Triple E S c fun a' T => a' = a ∧ T = S') (hf : Triple E S' (f a) R) :
    Triple E S (c >>= f) R := by
  refine hc.bind fun a' T h => ?_
  obtain ⟨rfl, rfl⟩ := h
  exact hf

theorem Triple.imp {Q' : α → Multiset (ℕ × Block γ) → Prop} (hc : Triple E S c Q)
    (hQ : ∀ a S', Q a S' → Q' a S') : Triple E S c Q' := by
  intro h hS
  have hrun := hc h hS
  match hch : c h with
  | .error e =>
      rw [hch] at hrun
      exact hrun
  | .ok (a, h') =>
      rw [hch] at hrun
      obtain ⟨S', hS', hq⟩ := hrun
      exact ⟨S', hS', hQ a S' hq⟩

theorem Triple.mono {F : HeapFault → Prop} (hc : Triple E S c Q) (hF : ∀ e, E e → F e) :
    Triple F S c Q := by
  intro h hS
  have hrun := hc h hS
  match hch : c h with
  | .error e =>
      rw [hch] at hrun
      exact hF e hrun
  | .ok (a, h') =>
      rw [hch] at hrun
      exact hrun

theorem triple_fault {e : HeapFault} (he : E e) : Triple E S (fault e) Q :=
  fun _ _ => he

/-- `malloc` answers NULL and changes nothing, or hands out a new block. -/
theorem triple_malloc (answer : Option (Allocator γ)) (size : ℕ) :
    Triple E S (malloc answer size) fun q S' =>
      q.isSome = answer.isSome ∧ S' = blockAt q ⟨size, none⟩ + S := by
  intro h hS
  cases answer with
  | none => exact ⟨S, hS, rfl, by simp [blockAt]⟩
  | some a =>
      exact ⟨_, hS.insert (a.fresh h hS.exists_free) _, rfl, by simp [blockAt]⟩

theorem triple_free : Triple E ((p, b) ::ₘ S) (free p) fun _ S' => S' = S := by
  intro h hS
  simp only [free, hS.get]
  exact ⟨S, hS.erase, rfl⟩

theorem triple_read {x : γ} (hmem : (p, ⟨n, some x⟩) ∈ S) :
    Triple E S (read p) fun a S' => a = x ∧ S' = S := by
  intro h hS
  have hget : h p = some ⟨n, some x⟩ := (hS.mem_iff _ _).mpr hmem
  have hrun : read p h = .ok (x, h) := by simp [read, hget]
  rw [hrun]
  exact ⟨S, hS, rfl, rfl⟩

/-- A content that fits fills the block. -/
theorem triple_write {x : γ} (hn : n ≤ b.size) :
    Triple E ((p, b) ::ₘ S) (write p n x) fun _ S' =>
      S' = (p, { b with content := some x }) ::ₘ S := by
  intro h hS
  simp only [write, hS.get, hn, if_pos]
  exact ⟨_, hS.replace _, rfl⟩

end Triple

end HeapM

end AndonConsole.Lib
