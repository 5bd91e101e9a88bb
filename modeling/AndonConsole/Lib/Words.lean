import Mathlib.Data.List.Basic
import Mathlib.Logic.Function.Basic
import Mathlib.Data.Nat.Bitwise

/-!
Bytes packed in words.

A buffer of 32-bit words is filled byte by byte, the first byte lowest: a byte
is shifted into the word in hand, and a word of four bytes goes to the buffer.
`bufBytes` reads the bytes back out, and `Packs` is the invariant of every such
loop: the bytes pushed so far are those in the buffer, and then those in hand.
-/

namespace AndonConsole.Lib

/-- The word with the bytes `bs`, the first one lowest. -/
def wordOf : List UInt8 → ℕ
  | [] => 0
  | b :: bs => b.toNat + 256 * wordOf bs

def byteOf (w k : ℕ) : UInt8 := UInt8.ofNat (w / 256 ^ k)

def bufBytes (buf : ℕ → ℕ) (n : ℕ) : List UInt8 :=
  (List.range n).map fun k => byteOf (buf (k / 4)) (k % 4)

@[simp] theorem wordOf_nil : wordOf [] = 0 := rfl

@[simp] theorem length_bufBytes (buf : ℕ → ℕ) (n : ℕ) : (bufBytes buf n).length = n := by
  simp [bufBytes]

theorem wordOf_lt (bs : List UInt8) : wordOf bs < 2 ^ (8 * bs.length) := by
  induction bs with
  | nil => simp
  | cons b bs ih =>
      have hb : b.toNat < 256 := b.toNat_lt
      have hpow : 2 ^ (8 * (bs.length + 1)) = 256 * 2 ^ (8 * bs.length) := by
        rw [Nat.mul_add, Nat.pow_add, Nat.mul_comm]
      rw [wordOf, List.length_cons, hpow]
      omega

theorem wordOf_append (bs cs : List UInt8) :
    wordOf (bs ++ cs) = wordOf bs + 2 ^ (8 * bs.length) * wordOf cs := by
  induction bs with
  | nil => simp
  | cons b bs ih =>
      have hpow : 2 ^ (8 * (bs.length + 1)) = 256 * 2 ^ (8 * bs.length) := by
        rw [Nat.mul_add, Nat.pow_add, Nat.mul_comm]
      rw [List.cons_append, wordOf, ih, List.length_cons, hpow, wordOf, Nat.mul_add,
        Nat.mul_assoc, Nat.add_assoc]

/-- A byte shifted in over the bytes of a word. -/
theorem wordOf_concat (bs : List UInt8) (b : UInt8) :
    wordOf (bs ++ [b]) = wordOf bs ||| b.toNat <<< (8 * bs.length) := by
  rw [wordOf_append, Nat.or_comm, ← Nat.shiftLeft_add_eq_or_of_lt (wordOf_lt bs), Nat.shiftLeft_eq]
  simp only [wordOf, Nat.mul_zero, Nat.add_zero]
  rw [Nat.mul_comm, Nat.add_comm]

theorem wordOf_three (b0 b1 b2 : UInt8) :
    wordOf [b0, b1, b2] = b0.toNat ||| b1.toNat <<< 8 ||| b2.toNat <<< 16 := by
  have h2 := wordOf_concat [b0, b1] b2
  have h1 := wordOf_concat [b0] b1
  simp only [List.cons_append, List.nil_append, List.length_cons, List.length_nil] at h1 h2
  rw [h2, h1]
  rfl

theorem wordOf_four (b0 b1 b2 b3 : UInt8) :
    wordOf [b0, b1, b2, b3] =
      b0.toNat ||| b1.toNat <<< 8 ||| b2.toNat <<< 16 ||| b3.toNat <<< 24 := by
  have h3 := wordOf_concat [b0, b1, b2] b3
  rw [wordOf_three] at h3
  exact h3

theorem byteOf_wordOf {bs : List UInt8} {k : ℕ} (h : k < bs.length) :
    byteOf (wordOf bs) k = bs[k] := by
  induction bs generalizing k with
  | nil => simp at h
  | cons b bs ih =>
      cases k with
      | zero =>
          apply UInt8.toNat_inj.mp
          have hb := b.toNat_lt
          simp only [byteOf, wordOf, UInt8.toNat_ofNat', List.getElem_cons_zero]
          omega
      | succ k =>
          have hk : k < bs.length := by simpa using h
          have hdiv : (b.toNat + 256 * wordOf bs) / 256 = wordOf bs := by
            have hb := b.toNat_lt
            omega
          have hpow : 256 ^ (k + 1) = 256 * 256 ^ k := by rw [Nat.pow_succ, Nat.mul_comm]
          rw [List.getElem_cons_succ, ← ih hk, byteOf, byteOf, wordOf, hpow,
            ← Nat.div_div_eq_div_mul, hdiv]

/-- A word stored behind full words puts its bytes behind theirs. -/
theorem bufBytes_update (buf : ℕ → ℕ) (idx : ℕ) {bs : List UInt8} (h : bs.length ≤ 4) :
    bufBytes (Function.update buf idx (wordOf bs)) (4 * idx + bs.length) =
      bufBytes buf (4 * idx) ++ bs := by
  rw [bufBytes, List.range_add, List.map_append, List.map_map]
  congr 1
  · refine List.map_congr_left fun k hk => ?_
    have hne : k / 4 ≠ idx := by
      have := List.mem_range.mp hk
      omega
    rw [Function.update_of_ne hne]
  · refine List.ext_getElem (by simp) fun k hk hk' => ?_
    have hdiv : (4 * idx + k) / 4 = idx := by omega
    have hmod : (4 * idx + k) % 4 = k := by omega
    simp [hdiv, hmod, byteOf_wordOf hk']

/-- The bytes pushed so far: `idx` full words in the buffer, and `bits` bits in hand. -/
def Packs (buf : ℕ → ℕ) (idx word bits : ℕ) (bs : List UInt8) : Prop :=
  ∃ rest : List UInt8, bs = bufBytes buf (4 * idx) ++ rest ∧ word = wordOf rest ∧
    bits = 8 * rest.length ∧ rest.length < 4

variable {buf : ℕ → ℕ} {idx word bits : ℕ} {bs : List UInt8}

theorem packs_nil (buf : ℕ → ℕ) : Packs buf 0 0 0 [] :=
  ⟨[], by simp [bufBytes], rfl, rfl, by simp⟩

theorem Packs.push (h : Packs buf idx word bits bs) (b : UInt8) (hbits : bits + 8 ≠ 32) :
    Packs buf idx (word ||| b.toNat <<< bits) (bits + 8) (bs ++ [b]) := by
  obtain ⟨rest, rfl, rfl, rfl, hlt⟩ := h
  refine ⟨rest ++ [b], by rw [List.append_assoc], (wordOf_concat rest b).symm, ?_, ?_⟩
  · simp [Nat.mul_add]
  · simp
    omega

theorem Packs.store (h : Packs buf idx word bits bs) (b : UInt8) (hbits : bits + 8 = 32) :
    Packs (Function.update buf idx (word ||| b.toNat <<< bits)) (idx + 1) 0 0 (bs ++ [b]) := by
  obtain ⟨rest, rfl, rfl, rfl, hlt⟩ := h
  have hlen : (rest ++ [b]).length = 4 := by
    simp
    omega
  refine ⟨[], ?_, rfl, rfl, by simp⟩
  rw [← wordOf_concat, List.append_nil, List.append_assoc, ← bufBytes_update buf idx hlen.le,
    hlen, Nat.mul_add]

/-- The last word, full or not, stored behind the others. -/
theorem Packs.flush (h : Packs buf idx word bits bs) (b : UInt8) :
    bufBytes (Function.update buf idx (word ||| b.toNat <<< bits)) (bs ++ [b]).length =
      bs ++ [b] := by
  obtain ⟨rest, rfl, rfl, rfl, hlt⟩ := h
  have hlen : (rest ++ [b]).length ≤ 4 := by
    simp
    omega
  rw [← wordOf_concat, List.append_assoc, ← bufBytes_update buf idx hlen]
  simp

theorem Packs.length_eq (h : Packs buf idx word bits bs) : 8 * bs.length = 32 * idx + bits := by
  obtain ⟨rest, rfl, rfl, rfl, -⟩ := h
  simp only [List.length_append, length_bufBytes]
  omega

/-- What is in the buffer is the front of what was pushed. -/
theorem Packs.bufBytes_eq (h : Packs buf idx word bits bs) :
    bufBytes buf (4 * idx) = bs.take (4 * idx) := by
  obtain ⟨rest, rfl, -, -, -⟩ := h
  simp

theorem Packs.bits_lt (h : Packs buf idx word bits bs) : bits < 32 := by
  obtain ⟨rest, -, -, rfl, hlt⟩ := h
  omega

end AndonConsole.Lib
