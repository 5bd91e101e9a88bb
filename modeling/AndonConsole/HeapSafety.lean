import AndonConsole.Ownership
import Mathlib.Algebra.BigOperators.Group.Finset.Basic

/-!
No operation on the configuration breaks the heap.

The operations that set, save, load and reset the configuration, and a loss of
power, in any order and with any answers of the allocator and of the NVS. By
pointers they do to the texts what they do by values for the same answers; the
one fault they can end with is the NULL argument that ends the operation by
values as well. The live blocks stay those of the fields that are set, and one
for each text a load could not copy.
-/

namespace AndonConsole

open Lib (HeapM HeapFault Block Heap)
open Lib.HeapM

namespace Ptr

/-! ### The operations by pointers -/

inductive Op
  | setCall (m : Malloc) (i : Fin 3) (status desc mancallto : Option CString)
  | setDept (m : Malloc) (dept id : Option CString)
  | nvsInitialAlloc (env : AndonConsole.SaveEnv) (key : Key) (value : CString)
  | saveCalls (env : SaveEnv)
  | saveDepts (env : SaveEnv)
  | retreiveCalls (env : ReadEnv) (m : Fin 3 → Malloc)
  | retreiveDepts (env : ReadEnv) (m : Malloc)
  | resetAll (m : Malloc) (mcalls : Fin 3 → Malloc) (envCalls envDept : SaveEnv)
  | powerCycle

/-- A text of the record arrays, which is not on the heap. -/
def ofText : Option CString → CharPtr
  | none => .null
  | some s => .literal s

@[simp] theorem value_ofText (s : Option CString) : (ofText s).value = s := by
  cases s <;> rfl

theorem liveIn_ofText (s : Option CString) (S : Blocks) : (ofText s).LiveIn S := by
  cases s <;> trivial

def Op.run : Op → Store → HeapM CString Store
  | setCall m i status desc mancallto, ps => do
      let record ← setCallrecord m (ps.calls i) (ofText status) (ofText desc) (ofText mancallto)
      return { ps with calls := Function.update ps.calls i record }
  | setDept m dept id, ps => do
      let department ← setDeptrecord m ps.department (ofText dept) (ofText id)
      return { ps with department }
  | nvsInitialAlloc env key value, ps =>
      return { ps with flash := AndonConsole.nvsInitialAlloc env key value ps.flash }
  | saveCalls env, ps => Ptr.saveCalls env ps
  | saveDepts env, ps => Ptr.saveDepts env ps
  | retreiveCalls env m, ps => Ptr.retreiveCalls env m ps
  | retreiveDepts env m, ps => Ptr.retreiveDepts env m ps
  | resetAll m mcalls envCalls envDept, ps => Ptr.resetAll m mcalls envCalls envDept ps
  | powerCycle, ps => do
      set (Heap.empty : Heap CString)
      return .powerOn ps.flash

def runOps (ops : List Op) (ps : Store) : HeapM CString Store :=
  ops.foldlM (fun ps op => op.run ps) ps

/-! ### The operations by values -/

/-- The store, and the texts that nothing points to any more. -/
structure Memory where
  store : AndonConsole.Store
  lost : Multiset CString

def Memory.loaded (s : Memory) (env : AndonConsole.ReadEnv) (key : Key)
    (store : AndonConsole.Store) : Memory :=
  ⟨store, ((env.leaked key s.store.flash).elim 0 fun text => {text}) + s.lost⟩

/-- What an operation does by values, where `malloc` answers NULL where it does by pointers. -/
def Op.does : Op → Memory → Exec Memory
  | setCall m i status desc mancallto, s =>
      return { s with store := { s.store with
        calls := Function.update s.store.calls i
          (AndonConsole.setCallrecord m.toValues (s.store.calls i) status desc mancallto) } }
  | setDept m dept id, s => do
      let department ← AndonConsole.setDeptrecord m.toValues s.store.department dept id
      return { s with store := { s.store with department } }
  | nvsInitialAlloc env key value, s =>
      return { s with store := { s.store with
        flash := AndonConsole.nvsInitialAlloc env key value s.store.flash } }
  | saveCalls env, s => return { s with store := AndonConsole.saveCalls env.toValues s.store }
  | saveDepts env, s => return { s with store := AndonConsole.saveDepts env.toValues s.store }
  | retreiveCalls env m, s =>
      return s.loaded env.toValues .nvsCalls
        (AndonConsole.retreiveCalls env.toValues (fun i => (m i).toValues) s.store)
  | retreiveDepts env m, s => do
      let store ← AndonConsole.retreiveDepts env.toValues m.toValues s.store
      return s.loaded env.toValues .nvsDept store
  | resetAll m mcalls envCalls envDept, s => do
      let store ← AndonConsole.resetAll m.toValues (fun i => (mcalls i).toValues)
        envCalls.toValues envDept.toValues s.store
      return { s with store }
  | powerCycle, s => return ⟨.powerOn s.store.flash, 0⟩

def doesAll (ops : List Op) (s : Memory) : Exec Memory :=
  ops.foldlM (fun s op => op.does s) s

/-! ### The relation between the two -/

def Store.blocks (ps : Store) (st : AndonConsole.Store) : Blocks :=
  ∑ i, (ps.calls i).blocks (st.calls i) + ps.department.blocks st.department

/-- The pointers and blocks stand for the texts: a field that is set has a block of its own with
its text, and the blocks besides hold the lost texts. -/
structure Represents (ps : Store) (s : Memory) (S : Blocks) : Prop where
  flash : ps.flash = s.store.flash
  calls : ∀ i, (ps.calls i).Points (s.store.calls i)
  department : ps.department.Points s.store.department
  blocks : ∃ L : Blocks, L.map Prod.snd = s.lost.map textBlock ∧ S = ps.blocks s.store + L

theorem card_fieldBlock_le (p : Option ℕ) (text : Option CString) :
    (fieldBlock p text).card ≤ 1 := by
  cases p <;> cases text <;> simp [fieldBlock]

/-- Three calls of three fields, a department of two, and what was lost. -/
theorem Represents.card_le {ps : Store} {s : Memory} {S : Blocks} (h : Represents ps s S) :
    S.card ≤ 11 + s.lost.card := by
  obtain ⟨L, hL, rfl⟩ := h.blocks
  have hlost : L.card = s.lost.card := by
    rw [← Multiset.card_map Prod.snd, hL, Multiset.card_map]
  have hcall (i : Fin 3) : ((ps.calls i).blocks (s.store.calls i)).card ≤ 3 := by
    have hstatus := card_fieldBlock_le (ps.calls i).status (s.store.calls i).status
    have hdesc := card_fieldBlock_le (ps.calls i).mancalldesc (s.store.calls i).mancalldesc
    have hto := card_fieldBlock_le (ps.calls i).mancallto (s.store.calls i).mancallto
    simp only [Callrecord.blocks, Multiset.card_add]
    omega
  have hdept : (ps.department.blocks s.store.department).card ≤ 2 := by
    have hname := card_fieldBlock_le ps.department.deptname s.store.department.deptname
    have hid := card_fieldBlock_le ps.department.deptid s.store.department.deptid
    simp only [Deptrecord.blocks, Multiset.card_add]
    omega
  rw [Store.blocks, Fin.sum_univ_three]
  simp only [Multiset.card_add]
  have h0 := hcall 0
  have h1 := hcall 1
  have h2 := hcall 2
  omega

theorem Store.blocks_eq_add (ps : Store) (st : AndonConsole.Store) (i : Fin 3) :
    ps.blocks st = (ps.calls i).blocks (st.calls i) +
      (∑ j ∈ Finset.univ.erase i, (ps.calls j).blocks (st.calls j) +
        ps.department.blocks st.department) := by
  rw [Store.blocks, ← Finset.add_sum_erase _ _ (Finset.mem_univ i), add_assoc]

theorem Store.blocks_update (ps : Store) (st : AndonConsole.Store) (i : Fin 3) (r : Callrecord)
    (v : AndonConsole.Callrecord) :
    Store.blocks { ps with calls := Function.update ps.calls i r }
        { st with calls := Function.update st.calls i v } =
      r.blocks v + (∑ j ∈ Finset.univ.erase i, (ps.calls j).blocks (st.calls j) +
        ps.department.blocks st.department) := by
  rw [Store.blocks_eq_add _ _ i]
  simp only [Function.update_self]
  congr 2
  refine Finset.sum_congr rfl fun j hj => ?_
  have hne : j ≠ i := Finset.ne_of_mem_erase hj
  simp only [Function.update_of_ne hne]

/-! ### One operation -/

section Step

variable {E : HeapFault → Prop} {ps : Store} {s : Memory} {S : Blocks}

theorem triple_setCall (h : Represents ps s S) (m : Malloc) (i : Fin 3)
    (status desc mancallto : Option CString) :
    Triple E S ((Op.setCall m i status desc mancallto).run ps) fun ps' S' =>
      ∃ s', (Op.setCall m i status desc mancallto).does s = .ok s' ∧ Represents ps' s' S' := by
  obtain ⟨L, hL, rfl⟩ := h.blocks
  rw [Op.run, Store.blocks_eq_add ps s.store i, add_assoc]
  refine (triple_setCallrecord m (h.calls i) (liveIn_ofText status _) (liveIn_ofText desc _)
    (liveIn_ofText mancallto _)).bind fun r S' hr => Triple.pure ?_
  obtain ⟨hpoints, rfl⟩ := hr
  simp only [value_ofText] at hpoints ⊢
  refine ⟨_, rfl, h.flash, fun j => ?_, h.department, L, hL, ?_⟩
  · by_cases hj : j = i
    · subst hj
      simpa using hpoints
    · simpa [hj] using h.calls j
  · rw [Store.blocks_update]
    ac_rfl

theorem triple_setDept (h : Represents ps s S) (m : Malloc) (dept id : Option CString)
    (hE : (Op.setDept m dept id).does s = .error .nullAccess → E .null) :
    Triple E S ((Op.setDept m dept id).run ps) fun ps' S' =>
      ∃ s', (Op.setDept m dept id).does s = .ok s' ∧ Represents ps' s' S' := by
  obtain ⟨L, hL, rfl⟩ := h.blocks
  rw [Op.run, Store.blocks, add_comm (∑ i, _), add_assoc]
  refine (triple_setDeptrecord m h.department (liveIn_ofText dept _) (liveIn_ofText id _)
    fun hfault => hE ?_).bind fun r S' hr => Triple.pure ?_
  · rw [value_ofText, value_ofText] at hfault
    rw [Op.does, hfault]
    rfl
  · obtain ⟨v', hset, hpoints, rfl⟩ := hr
    rw [value_ofText, value_ofText] at hset
    refine ⟨{ s with store := { s.store with department := v' } }, ?_,
      h.flash, h.calls, hpoints, L, hL, ?_⟩
    · rw [Op.does, hset]
      rfl
    · simp only [Store.blocks]
      ac_rfl

theorem Represents.fieldIn_calls (h : Represents ps s S) :
    List.Forall₂ (FieldIn S) ps.callFields
      [(s.store.calls 0).status, (s.store.calls 0).mancalldesc, (s.store.calls 0).mancallto,
       (s.store.calls 1).status, (s.store.calls 1).mancalldesc, (s.store.calls 1).mancallto,
       (s.store.calls 2).status, (s.store.calls 2).mancalldesc, (s.store.calls 2).mancallto] := by
  obtain ⟨L, -, rfl⟩ := h.blocks
  have hle (i : Fin 3) : (ps.calls i).blocks (s.store.calls i) ≤ ps.blocks s.store + L := by
    rw [Store.blocks_eq_add ps s.store i, add_assoc]
    exact Multiset.le_add_right _ _
  have hstatus (i : Fin 3) : FieldIn (ps.blocks s.store + L) (ps.calls i).status
      (s.store.calls i).status :=
    ⟨(h.calls i).status, (Multiset.le_add_right _ _).trans (hle i)⟩
  have hdesc (i : Fin 3) : FieldIn (ps.blocks s.store + L) (ps.calls i).mancalldesc
      (s.store.calls i).mancalldesc :=
    ⟨(h.calls i).mancalldesc,
      ((Multiset.le_add_right _ _).trans (Multiset.le_add_left _ _)).trans (hle i)⟩
  have hto (i : Fin 3) : FieldIn (ps.blocks s.store + L) (ps.calls i).mancallto
      (s.store.calls i).mancallto :=
    ⟨(h.calls i).mancallto,
      ((Multiset.le_add_left _ _).trans (Multiset.le_add_left _ _)).trans (hle i)⟩
  exact .cons (hstatus 0) (.cons (hdesc 0) (.cons (hto 0) (.cons (hstatus 1) (.cons (hdesc 1)
    (.cons (hto 1) (.cons (hstatus 2) (.cons (hdesc 2) (.cons (hto 2) .nil))))))))

theorem Represents.fieldIn_department (h : Represents ps s S) :
    List.Forall₂ (FieldIn S) [ps.department.deptname, ps.department.deptid]
      [s.store.department.deptname, s.store.department.deptid] := by
  obtain ⟨L, -, rfl⟩ := h.blocks
  have hle : ps.department.blocks s.store.department ≤ ps.blocks s.store + L :=
    (Multiset.le_add_left _ _).trans (Multiset.le_add_right _ _)
  exact .cons ⟨h.department.deptname, (Multiset.le_add_right _ _).trans hle⟩
    (.cons ⟨h.department.deptid, (Multiset.le_add_left _ _).trans hle⟩ .nil)

theorem Represents.withFlash (h : Represents ps s S) (flash : Flash) :
    Represents { ps with flash } { s with store := { s.store with flash } } S :=
  ⟨rfl, h.calls, h.department, h.blocks⟩

theorem triple_save (h : Represents ps s S) (env : SaveEnv) (key : Key)
    {fields : List (Option ℕ)} {texts : List (Option CString)} (hne : fields ≠ [])
    (hfields : List.Forall₂ (FieldIn S) fields texts) :
    Triple E S (do
      let flash ← saveFields env key fields ps.flash
      return { ps with flash }) fun ps' S' =>
        Represents ps' { s with store := { s.store with
          flash := savedFields env.toValues key (texts.map AndonConsole.orDefault)
            s.store.flash } } S' := by
  refine (triple_saveFields env key hne hfields).bind fun flash' S' hsave => Triple.pure ?_
  obtain ⟨rfl, rfl⟩ := hsave
  rw [h.flash]
  exact h.withFlash _

theorem triple_saveCalls (h : Represents ps s S) (env : SaveEnv) :
    Triple E S ((Op.saveCalls env).run ps) fun ps' S' =>
      ∃ s', (Op.saveCalls env).does s = .ok s' ∧ Represents ps' s' S' := by
  have hvalue : AndonConsole.saveCalls env.toValues s.store =
      { s.store with
        flash := savedFields env.toValues .nvsCalls (callFields s.store.calls)
          s.store.flash } := by
    rw [AndonConsole.saveCalls, savedFields]
    split <;> rfl
  refine (triple_save h env .nvsCalls (by simp [Store.callFields]) h.fieldIn_calls).imp
    fun ps' S' hrep => ⟨_, rfl, ?_⟩
  rw [hvalue]
  exact hrep

theorem triple_saveDepts (h : Represents ps s S) (env : SaveEnv) :
    Triple E S ((Op.saveDepts env).run ps) fun ps' S' =>
      ∃ s', (Op.saveDepts env).does s = .ok s' ∧ Represents ps' s' S' := by
  have hvalue : AndonConsole.saveDepts env.toValues s.store =
      { s.store with
        flash := savedFields env.toValues .nvsDept (deptFields s.store.department)
          s.store.flash } := by
    rw [AndonConsole.saveDepts, savedFields]
    split <;> rfl
  refine (triple_save h env .nvsDept (by simp) h.fieldIn_department).imp
    fun ps' S' hrep => ⟨_, rfl, ?_⟩
  rw [hvalue]
  exact hrep

theorem Memory.loaded_of_none {env : AndonConsole.ReadEnv} {key : Key}
    (h : env.leaked key s.store.flash = none) (store : AndonConsole.Store) :
    s.loaded env key store = { s with store } := by
  rw [Memory.loaded, h]
  simp

theorem leaked_of_strdup {env : AndonConsole.ReadEnv} {key : Key} {flash : Flash}
    (hdup : env.strdup = true) : env.leaked key flash = none := by
  rw [ReadEnv.leaked, if_pos hdup]

theorem Represents.loaded_of_read_none (h : Represents ps s S) {env : AndonConsole.ReadEnv}
    {key : Key} (hread : AndonConsole.readStringFromNvs env key s.store.flash = none) :
    Represents ps (s.loaded env key s.store) S := by
  rw [Memory.loaded_of_none (by rw [ReadEnv.leaked, hread, ite_self])]
  exact h

theorem Represents.loaded_of_strdup (h : Represents ps s S) {env : AndonConsole.ReadEnv} {key : Key}
    {text : CString} (hread : AndonConsole.readStringFromNvs env key s.store.flash = some text)
    (hdup : env.strdup = false) (p : ℕ) :
    Represents ps (s.loaded env key s.store) ((p, textBlock text) ::ₘ S) := by
  obtain ⟨L, hL, rfl⟩ := h.blocks
  refine ⟨h.flash, h.calls, h.department, (p, textBlock text) ::ₘ L, ?_, ?_⟩
  · simp [Memory.loaded, ReadEnv.leaked, hread, hdup, hL]
  · rw [Multiset.add_cons]
    rfl

theorem CharPtr.value_ofToken (block : ℕ) (token : Option CString) :
    (CharPtr.ofToken block token).value = token := by
  cases token <;> rfl

theorem CharPtr.liveIn_ofToken {block : ℕ} {text : CString} (h : (block, textBlock text) ∈ S)
    (token : Option CString) : (CharPtr.ofToken block token).LiveIn S := by
  cases token with
  | none => trivial
  | some s => exact ⟨_, _, h⟩

theorem triple_retreiveDepts (h : Represents ps s S) (env : ReadEnv) (m : Malloc)
    (hE : (Op.retreiveDepts env m).does s = .error .nullAccess → E .null) :
    Triple E S ((Op.retreiveDepts env m).run ps) fun ps' S' =>
      ∃ s', (Op.retreiveDepts env m).does s = .ok s' ∧ Represents ps' s' S' := by
  rw [Op.run, retreiveDepts, h.flash]
  refine triple_withCopy env (fun hread => ?_) (fun text p hread hdup => ?_)
    (fun text copy hread hdup => ?_)
  · have hvalue : AndonConsole.retreiveDepts env.toValues m.toValues s.store = .ok s.store := by
      rw [AndonConsole.retreiveDepts, hread]
    refine ⟨_, ?_, h.loaded_of_read_none hread⟩
    rw [Op.does, hvalue]
    rfl
  · have hvalue : AndonConsole.retreiveDepts env.toValues m.toValues s.store = .ok s.store := by
      rw [AndonConsole.retreiveDepts, hread]
      simp [hdup]
    refine ⟨_, ?_, h.loaded_of_strdup hread hdup p⟩
    rw [Op.does, hvalue]
    rfl
  · have hcopy : (copy, textBlock text) ∈ (copy, textBlock text) ::ₘ S :=
      Multiset.mem_cons_self _ _
    refine (triple_dropPlaceholder hcopy _).seq ?_
    refine (triple_dropPlaceholder hcopy _).seq ?_
    obtain ⟨L, hL, rfl⟩ := h.blocks
    have hvalue : AndonConsole.retreiveDepts env.toValues m.toValues s.store =
        (AndonConsole.setDeptrecord m.toValues s.store.department
          (AndonConsole.dropPlaceholder (splitDept text).1.deptname)
          (AndonConsole.dropPlaceholder (splitDept text).1.deptid)).map fun department =>
            { s.store with department } := by
      rw [AndonConsole.retreiveDepts, hread]
      simp only [hdup, if_true]
      rfl
    have hblocks : (copy, textBlock text) ::ₘ (ps.blocks s.store + L) =
        ps.department.blocks s.store.department +
          ((copy, textBlock text) ::ₘ (∑ i, (ps.calls i).blocks (s.store.calls i) + L)) := by
      rw [Store.blocks, Multiset.add_cons, ← add_assoc,
        add_comm (ps.department.blocks s.store.department)]
    rw [hblocks]
    have hcopy' : (copy, textBlock text) ∈
        (copy, textBlock text) ::ₘ (∑ i, (ps.calls i).blocks (s.store.calls i) + L) :=
      Multiset.mem_cons_self _ _
    refine (triple_setDeptrecord m h.department (CharPtr.liveIn_ofToken hcopy' _)
      (CharPtr.liveIn_ofToken hcopy' _) fun hfault => hE ?_).bind
        fun r S' hr => Triple.pure ?_
    · rw [CharPtr.value_ofToken, CharPtr.value_ofToken] at hfault
      rw [Op.does, hvalue, hfault]
      rfl
    · obtain ⟨v', hset, hpoints, rfl⟩ := hr
      rw [CharPtr.value_ofToken, CharPtr.value_ofToken] at hset
      refine ⟨_, Multiset.add_cons _ _ _, { s with store := { s.store with department := v' } },
        ?_, rfl, h.calls, hpoints, L, hL, ?_⟩
      · rw [Op.does, hvalue, hset, ← Memory.loaded_of_none (leaked_of_strdup hdup)]
        rfl
      · simp only [Store.blocks]
        ac_rfl

theorem triple_setFromCopy {copy : ℕ} {text : CString} (hcopy : (copy, textBlock text) ∈ S)
    (m : Malloc) {r : Callrecord} {v : AndonConsole.Callrecord} (hr : r.Points v)
    (tok : AndonConsole.Callrecord) :
    Triple E (r.blocks v + S) (setCallrecord m r
      (CharPtr.ofToken copy (AndonConsole.dropPlaceholder tok.status))
      (CharPtr.ofToken copy (AndonConsole.dropPlaceholder tok.mancalldesc))
      (CharPtr.ofToken copy (AndonConsole.dropPlaceholder tok.mancallto))) fun r' S' => ∃ v',
        v' = AndonConsole.setCallrecord m.toValues v (AndonConsole.dropPlaceholder tok.status)
          (AndonConsole.dropPlaceholder tok.mancalldesc)
          (AndonConsole.dropPlaceholder tok.mancallto) ∧
        r'.Points v' ∧ S' = r'.blocks v' + S := by
  refine (triple_setCallrecord m hr (CharPtr.liveIn_ofToken hcopy _)
    (CharPtr.liveIn_ofToken hcopy _) (CharPtr.liveIn_ofToken hcopy _)).imp fun r' S' h => ?_
  obtain ⟨hpoints, rfl⟩ := h
  simp only [CharPtr.value_ofToken] at hpoints ⊢
  exact ⟨_, rfl, hpoints, rfl⟩

theorem triple_retreiveCalls (h : Represents ps s S) (env : ReadEnv) (m : Fin 3 → Malloc) :
    Triple E S ((Op.retreiveCalls env m).run ps) fun ps' S' =>
      ∃ s', (Op.retreiveCalls env m).does s = .ok s' ∧ Represents ps' s' S' := by
  rw [Op.run, retreiveCalls, h.flash]
  refine triple_withCopy env (fun hread => ?_) (fun text p hread hdup => ?_)
    (fun text copy hread hdup => ?_)
  · refine ⟨_, rfl, ?_⟩
    rw [AndonConsole.retreiveCalls, hread]
    exact h.loaded_of_read_none hread
  · refine ⟨_, rfl, ?_⟩
    rw [AndonConsole.retreiveCalls, hread]
    simp only [hdup, if_false, Bool.false_eq_true]
    exact h.loaded_of_strdup hread hdup p
  · have hcopy : (copy, textBlock text) ∈ (copy, textBlock text) ::ₘ S :=
      Multiset.mem_cons_self _ _
    rw [setFromTokens]
    simp only [bind_assoc, pure_bind]
    iterate 9 refine (triple_dropPlaceholder hcopy _).seq ?_
    obtain ⟨L, hL, rfl⟩ := h.blocks
    have hblocks : (copy, textBlock text) ::ₘ (ps.blocks s.store + L) =
        (ps.calls 0).blocks (s.store.calls 0) + ((ps.calls 1).blocks (s.store.calls 1) +
          ((ps.calls 2).blocks (s.store.calls 2) +
            (ps.department.blocks s.store.department + ({(copy, textBlock text)} + L)))) := by
      rw [Store.blocks, Fin.sum_univ_three, ← Multiset.singleton_add]
      ac_rfl
    rw [hblocks]
    have hframe (T U : Blocks) : (copy, textBlock text) ∈ T + (U +
        (ps.department.blocks s.store.department + ({(copy, textBlock text)} + L))) := by simp
    refine (triple_setFromCopy (hframe _ _) (m 0) (h.calls 0) _).bind fun r0 S' h0 => ?_
    obtain ⟨v0, hv0, hr0, rfl⟩ := h0
    rw [add_left_comm (r0.blocks v0)]
    refine (triple_setFromCopy (hframe _ _) (m 1) (h.calls 1) _).bind fun r1 S' h1 => ?_
    obtain ⟨v1, hv1, hr1, rfl⟩ := h1
    rw [add_left_comm (r0.blocks v0), add_left_comm (r1.blocks v1)]
    refine (triple_setFromCopy (hframe _ _) (m 2) (h.calls 2) _).bind
      fun r2 S' h2 => Triple.pure ?_
    obtain ⟨v2, hv2, hr2, rfl⟩ := h2
    have hvalue : AndonConsole.retreiveCalls env.toValues (fun i => (m i).toValues) s.store =
        { s.store with calls := ![v0, v1, v2] } := by
      rw [AndonConsole.retreiveCalls, hread]
      simp only [hdup, if_true, setFromTokens_id]
      congr 1
      funext i
      fin_cases i
      · exact hv0.symm
      · exact hv1.symm
      · exact hv2.symm
    refine ⟨ps.department.blocks s.store.department + L + (r0.blocks v0 + (r1.blocks v1 +
      r2.blocks v2)), ?_, { s with store := { s.store with calls := ![v0, v1, v2] } }, ?_, rfl,
        fun i => ?_, h.department, L, hL, ?_⟩
    · rw [← Multiset.singleton_add]
      ac_rfl
    · rw [Op.does, hvalue, Memory.loaded_of_none (leaked_of_strdup hdup)]
      rfl
    · fin_cases i
      · exact hr0
      · exact hr1
      · exact hr2
    · rw [Store.blocks, Fin.sum_univ_three]
      simp only [Matrix.cons_val_zero, Matrix.cons_val_one, Matrix.cons_val]
      ac_rfl

/-- Reset All never comes past its first line. -/
theorem triple_resetAll (h : Represents ps s S) (m : Malloc) (mcalls : Fin 3 → Malloc)
    (envCalls envDept : SaveEnv) {Q : Store → Blocks → Prop}
    (hE : (Op.resetAll m mcalls envCalls envDept).does s = .error .nullAccess → E .null) :
    Triple E S ((Op.resetAll m mcalls envCalls envDept).run ps) Q := by
  have hfault : E .null := hE rfl
  obtain ⟨L, -, rfl⟩ := h.blocks
  rw [Op.run, resetAll, Store.blocks, add_comm (∑ i, _), add_assoc]
  refine (triple_setDeptrecord m h.department (liveIn_ofText none _) (liveIn_ofText none _)
    fun _ => hfault).bind fun r S' hr => ?_
  obtain ⟨v', hset, -⟩ := hr
  cases hset

theorem triple_powerCycle (h : Represents ps s S) :
    Triple E S (Op.powerCycle.run ps) fun ps' S' =>
      ∃ s', Op.powerCycle.does s = .ok s' ∧ Represents ps' s' S' := by
  intro heap _
  refine ⟨0, Heap.holds_empty, _, rfl, h.flash, fun _ => ⟨rfl, rfl, rfl⟩, ⟨rfl, rfl⟩, 0, rfl, ?_⟩
  simp [Store.blocks, Callrecord.blocks, Deptrecord.blocks, Store.powerOn, fieldBlock]

/-- **One operation.** It does by pointers what it does by values, and can fault with a NULL
argument only, where it faults by values. -/
theorem Represents.run (h : Represents ps s S) (op : Op) :
    Triple (fun f => f = .null ∧ op.does s = .error .nullAccess) S (op.run ps) fun ps' S' =>
      ∃ s', op.does s = .ok s' ∧ Represents ps' s' S' := by
  cases op with
  | setCall m i status desc mancallto => exact triple_setCall h m i status desc mancallto
  | setDept m dept id => exact triple_setDept h m dept id fun hf => ⟨rfl, hf⟩
  | nvsInitialAlloc env key value =>
      refine Triple.pure ⟨_, rfl, ?_⟩
      rw [h.flash]
      exact h.withFlash _
  | saveCalls env => exact triple_saveCalls h env
  | saveDepts env => exact triple_saveDepts h env
  | retreiveCalls env m => exact triple_retreiveCalls h env m
  | retreiveDepts env m => exact triple_retreiveDepts h env m fun hf => ⟨rfl, hf⟩
  | resetAll m mcalls envCalls envDept =>
      exact triple_resetAll h m mcalls envCalls envDept fun hf => ⟨rfl, hf⟩
  | powerCycle => exact triple_powerCycle h

end Step

/-! ### Any list of operations -/

theorem doesAll_cons (op : Op) (ops : List Op) (s : Memory) :
    doesAll (op :: ops) s = op.does s >>= doesAll ops :=
  List.foldlM_cons

theorem Represents.runOps {ps : Store} {s : Memory} {S : Blocks} (h : Represents ps s S)
    (ops : List Op) :
    Triple (fun f => f = .null ∧ doesAll ops s = .error .nullAccess) S (runOps ops ps)
      fun ps' S' => ∃ s', doesAll ops s = .ok s' ∧ Represents ps' s' S' := by
  induction ops generalizing ps s S with
  | nil => exact Triple.pure ⟨s, rfl, h⟩
  | cons op ops ih =>
      have hop := (h.run op).mono (F := fun f => f = .null ∧
          doesAll (op :: ops) s = .error .nullAccess) fun f hf => by
        refine ⟨hf.1, ?_⟩
        rw [doesAll_cons, hf.2]
        rfl
      rw [Ptr.runOps, List.foldlM_cons]
      refine hop.bind fun ps' S' hps' => ?_
      obtain ⟨s', hdoes, hrep⟩ := hps'
      have hall : doesAll (op :: ops) s = doesAll ops s' := by
        rw [doesAll_cons, hdoes]
        rfl
      rw [hall]
      exact ih hrep

theorem represents_powerOn (flash : Flash) :
    Represents (.powerOn flash) ⟨.powerOn flash, 0⟩ 0 := by
  refine ⟨rfl, fun _ => ⟨rfl, rfl, rfl⟩, ⟨rfl, rfl⟩, 0, rfl, ?_⟩
  simp [Store.blocks, Callrecord.blocks, Deptrecord.blocks, Store.powerOn, fieldBlock]

/-- **The heap is safe.** From power-up, after any operations with any answers, the texts are
those of the operations by values, every field that is set has its block, and besides these
there is one block for each lost text. The only fault is a NULL argument, and the operations by
values end with it too. -/
theorem runOps_safe (flash : Flash) (ops : List Op) :
    match Ptr.runOps ops (.powerOn flash) Heap.empty with
    | .ok (ps, h) => ∃ s S, doesAll ops ⟨.powerOn flash, 0⟩ = .ok s ∧ Represents ps s S ∧
        Heap.Holds h S ∧ S.card ≤ 11 + s.lost.card
    | .error f => f = .null ∧ doesAll ops ⟨.powerOn flash, 0⟩ = .error .nullAccess := by
  have hrun := (represents_powerOn flash).runOps ops Heap.empty Heap.holds_empty
  match h : Ptr.runOps ops (.powerOn flash) Heap.empty with
  | .ok (ps, heap) =>
      rw [h] at hrun
      obtain ⟨S, hS, s, hall, hrep⟩ := hrun
      exact ⟨s, S, hall, hrep, hS, hrep.card_le⟩
  | .error f =>
      rw [h] at hrun
      exact hrun

end Ptr

end AndonConsole
