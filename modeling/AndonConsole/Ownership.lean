import AndonConsole.Pointers

/-!
Who owns the heap.

The live blocks are those the fields of the records point to, one for each
field that is set, and the texts a failed `strdup` has left behind. Every
operation by pointers keeps this, and does to the texts what the operation by
values does for the same answers of `malloc`. So the heap faults of C stay out of
reach: no block is used after it was freed or freed twice, none is written
past its end, and one place alone loses memory.
-/

namespace AndonConsole

open Lib (HeapM HeapFault Block Allocator)
open Lib.HeapM

abbrev Blocks := Multiset (ℕ × Block CString)

def textBlock (s : CString) : Block CString := ⟨s.strlen + 1, some s⟩

def fieldBlock (p : Option ℕ) (text : Option CString) : Blocks :=
  match p, text with
  | some p, some s => {(p, textBlock s)}
  | _, _ => 0

/-- What is read through the pointer is in a live block. -/
def CharPtr.LiveIn (S : Blocks) : CharPtr → Prop
  | null => True
  | literal _ => True
  | inside block _ => ∃ n x, (block, ⟨n, some x⟩) ∈ S

section Fields

variable {E : HeapFault → Prop} {S T : Blocks} {s : CharPtr} {t : CString} {p q : Option ℕ}

theorem CharPtr.LiveIn.of_le (h : s.LiveIn S) (hle : S ≤ T) : s.LiveIn T := by
  cases s with
  | null => trivial
  | literal s => trivial
  | inside block s =>
      obtain ⟨n, x, hmem⟩ := h
      exact ⟨n, x, Multiset.mem_of_le hle hmem⟩

theorem CharPtr.deref_of_value_none (h : s.value = none) : s.deref = HeapM.fault .null := by
  cases s with
  | null => rfl
  | literal s => cases h
  | inside block s => cases h

theorem triple_deref (hs : s.LiveIn S) (ht : s.value = some t) :
    Triple E S s.deref fun a S' => a = t ∧ S' = S := by
  cases s with
  | null => cases ht
  | literal s =>
      cases ht
      exact Triple.pure ⟨rfl, rfl⟩
  | inside block s =>
      cases ht
      obtain ⟨n, x, hmem⟩ := hs
      exact (triple_read hmem).seq (Triple.pure ⟨rfl, rfl⟩)

theorem triple_freeField {text : Option CString} (h : p.isSome = text.isSome) :
    Triple E (fieldBlock p text + S) (Ptr.freeField p) fun _ S' => S' = S := by
  cases p with
  | none =>
      have hblock : fieldBlock none text + S = S := by simp [fieldBlock]
      rw [hblock]
      exact Triple.pure rfl
  | some p =>
      obtain ⟨x, rfl⟩ := Option.isSome_iff_exists.mp h.symm
      exact triple_free

theorem triple_mallocFor (answer : Option (Allocator CString)) (hs : s.LiveIn S)
    (ht : s.value = some t) :
    Triple E S (Ptr.mallocFor answer s) fun q S' =>
      q.isSome = answer.isSome ∧ S' = blockAt q ⟨t.strlen + 1, none⟩ + S :=
  (triple_deref hs ht).seq (triple_malloc answer _)

theorem triple_strcpy (hs : s.LiveIn S) (ht : s.value = some t) :
    Triple E (blockAt q ⟨t.strlen + 1, none⟩ + S) (Ptr.strcpy q s) fun _ S' =>
      S' = fieldBlock q (q.map fun _ => t) + S := by
  cases q with
  | none => exact Triple.pure rfl
  | some q =>
      have hlive : s.LiveIn (blockAt (some q) ⟨t.strlen + 1, none⟩ + S) :=
        hs.of_le (Multiset.le_add_left _ _)
      exact (triple_deref hlive ht).seq (triple_write le_rfl)

end Fields

/-! ### The setters -/

namespace Ptr

/-- The fields that are set have blocks of their own. -/
def Callrecord.blocks (r : Callrecord) (v : AndonConsole.Callrecord) : Blocks :=
  fieldBlock r.status v.status + (fieldBlock r.mancalldesc v.mancalldesc +
    fieldBlock r.mancallto v.mancallto)

def Deptrecord.blocks (r : Deptrecord) (v : AndonConsole.Deptrecord) : Blocks :=
  fieldBlock r.deptname v.deptname + fieldBlock r.deptid v.deptid

/-- NULL by pointers is NULL by values. -/
structure Callrecord.Points (r : Callrecord) (v : AndonConsole.Callrecord) : Prop where
  status : r.status.isSome = v.status.isSome
  mancalldesc : r.mancalldesc.isSome = v.mancalldesc.isSome
  mancallto : r.mancallto.isSome = v.mancallto.isSome

structure Deptrecord.Points (r : Deptrecord) (v : AndonConsole.Deptrecord) : Prop where
  deptname : r.deptname.isSome = v.deptname.isSome
  deptid : r.deptid.isSome = v.deptid.isSome

end Ptr

section Setters

variable {E : HeapFault → Prop} {S : Blocks}

theorem copy_toValues {m : Ptr.Malloc} {k : ℕ} {q : Option ℕ} (hq : q.isSome = (m k).isSome)
    (s : CString) : m.toValues.copy k s = q.map fun _ => s := by
  rw [Malloc.copy, Ptr.Malloc.toValues, ← hq]
  cases q <;> rfl

theorem isSome_map_const (q : Option ℕ) (s : CString) :
    q.isSome = (q.map fun _ => s).isSome := by
  cases q <;> rfl

theorem triple_setCallrecord (m : Ptr.Malloc) {r : Ptr.Callrecord} {v : Callrecord}
    (hr : r.Points v) {status desc mancallto : CharPtr} (hstatus : status.LiveIn S)
    (hdesc : desc.LiveIn S) (hto : mancallto.LiveIn S) :
    Triple E (r.blocks v + S) (Ptr.setCallrecord m r status desc mancallto) fun r' S' =>
      r'.Points (setCallrecord m.toValues v status.value desc.value mancallto.value) ∧
        S' = r'.blocks (setCallrecord m.toValues v status.value desc.value mancallto.value) +
          S := by
  rw [Ptr.setCallrecord]
  split_ifs with hnull
  · have hkept : setCallrecord m.toValues v status.value desc.value mancallto.value = v := by
      unfold setCallrecord
      split
      · simp_all
      · rfl
    exact Triple.pure ⟨hkept.symm ▸ hr, by rw [hkept]⟩
  · simp only [not_or] at hnull
    obtain ⟨s, hs⟩ := Option.ne_none_iff_exists'.mp hnull.1
    obtain ⟨d, hd⟩ := Option.ne_none_iff_exists'.mp hnull.2.1
    obtain ⟨t, ht⟩ := Option.ne_none_iff_exists'.mp hnull.2.2
    rw [Ptr.Callrecord.blocks, add_assoc, add_assoc]
    refine (triple_freeField hr.status).next fun _ => ?_
    refine (triple_freeField hr.mancalldesc).next fun _ => ?_
    refine (triple_freeField hr.mancallto).next fun _ => ?_
    refine (triple_mallocFor _ hstatus hs).bind fun q0 S' h0 => ?_
    obtain ⟨h0, rfl⟩ := h0
    refine (triple_mallocFor _ (hdesc.of_le ?_) hd).bind fun q1 S' h1 => ?_
    · exact Multiset.le_add_left _ _
    obtain ⟨h1, rfl⟩ := h1
    refine (triple_mallocFor _ (hto.of_le ?_) ht).bind fun q2 S' h2 => ?_
    · exact (Multiset.le_add_left S _).trans (Multiset.le_add_left _ _)
    obtain ⟨h2, rfl⟩ := h2
    -- for each copy its own block comes to the front
    rw [add_left_comm (blockAt q1 _) (blockAt q0 _) S, add_left_comm (blockAt q2 _)]
    refine (triple_strcpy (hstatus.of_le ?_) hs).next fun _ => ?_
    · exact (Multiset.le_add_left S _).trans (Multiset.le_add_left _ _)
    rw [add_left_comm (blockAt q2 _), add_left_comm _ (blockAt q1 _)]
    refine (triple_strcpy (hdesc.of_le ?_) hd).next fun _ => ?_
    · exact (Multiset.le_add_left S _).trans (Multiset.le_add_left _ _)
    rw [add_left_comm _ (blockAt q2 _), add_left_comm _ (blockAt q2 _)]
    refine (triple_strcpy (hto.of_le ?_) ht).next fun _ => Triple.pure ?_
    · exact (Multiset.le_add_left S _).trans (Multiset.le_add_left _ _)
    rw [hs, hd, ht]
    simp only [setCallrecord, copy_toValues h0, copy_toValues h1, copy_toValues h2]
    refine ⟨⟨isSome_map_const q0 s, isSome_map_const q1 d, isSome_map_const q2 t⟩, ?_⟩
    simp only [Ptr.Callrecord.blocks]
    ac_rfl

/-- The department setter has no check: a NULL argument ends it, after the old fields went. -/
theorem triple_setDeptrecord (m : Ptr.Malloc) {r : Ptr.Deptrecord} {v : Deptrecord}
    (hr : r.Points v) {dept id : CharPtr} (hdept : dept.LiveIn S) (hid : id.LiveIn S)
    (hE : setDeptrecord m.toValues v dept.value id.value = .error .nullAccess → E .null) :
    Triple E (r.blocks v + S) (Ptr.setDeptrecord m r dept id) fun r' S' =>
      ∃ v', setDeptrecord m.toValues v dept.value id.value = .ok v' ∧ r'.Points v' ∧
        S' = r'.blocks v' + S := by
  rw [Ptr.setDeptrecord, Ptr.Deptrecord.blocks, add_assoc]
  refine (triple_freeField hr.deptname).next fun _ => ?_
  refine (triple_freeField hr.deptid).next fun _ => ?_
  rcases hd : dept.value with _ | d
  · refine Triple.bind (Q := fun _ _ => False) ?_ fun _ _ h => h.elim
    have hfault : E .null := hE (by rw [hd]; rfl)
    rw [Ptr.mallocFor, CharPtr.deref_of_value_none hd]
    exact (triple_fault hfault).bind fun _ _ h => h
  · refine (triple_mallocFor _ hdept hd).bind fun q0 S' h0 => ?_
    obtain ⟨h0, rfl⟩ := h0
    rcases hi : id.value with _ | i
    · refine Triple.bind (Q := fun _ _ => False) ?_ fun _ _ h => h.elim
      have hfault : E .null := hE (by rw [hd, hi]; rfl)
      rw [Ptr.mallocFor, CharPtr.deref_of_value_none hi]
      exact (triple_fault hfault).bind fun _ _ h => h
    · refine (triple_mallocFor _ (hid.of_le ?_) hi).bind fun q1 S' h1 => ?_
      · exact Multiset.le_add_left _ _
      obtain ⟨h1, rfl⟩ := h1
      rw [add_left_comm (blockAt q1 _) (blockAt q0 _) S]
      refine (triple_strcpy (hdept.of_le ?_) hd).next fun _ => ?_
      · exact Multiset.le_add_left S _
      rw [add_left_comm _ (blockAt q1 _)]
      refine (triple_strcpy (hid.of_le ?_) hi).next fun _ => Triple.pure ?_
      · exact Multiset.le_add_left S _
      refine ⟨⟨q0.map fun _ => d, q1.map fun _ => i⟩, ?_, ?_, ?_⟩
      · simp only [setDeptrecord_some, copy_toValues h0, copy_toValues h1]
      · exact ⟨isSome_map_const q0 d, isSome_map_const q1 i⟩
      · simp only [Ptr.Deptrecord.blocks]
        ac_rfl

end Setters

/-! ### Saving -/

section Saving

variable {E : HeapFault → Prop} {S : Blocks} {flash : Flash}

/-- The block of the field is live, and NULL means NULL. -/
structure FieldIn (S : Blocks) (p : Option ℕ) (text : Option CString) : Prop where
  isSome_eq : p.isSome = text.isSome
  live : fieldBlock p text ≤ S

theorem triple_orDefault {p : Option ℕ} {text : Option CString} (h : FieldIn S p text) :
    Triple E S (Ptr.orDefault p) fun a S' => a = orDefault text ∧ S' = S := by
  cases p with
  | none =>
      cases text with
      | none => exact Triple.pure ⟨rfl, rfl⟩
      | some s => exact absurd h.isSome_eq (by simp)
  | some p =>
      cases text with
      | none => exact absurd h.isSome_eq (by simp)
      | some s => exact triple_read (Multiset.singleton_le.mp h.live)

theorem triple_mapM_orDefault {fields : List (Option ℕ)} {texts : List (Option CString)}
    (h : List.Forall₂ (FieldIn S) fields texts) :
    Triple E S (fields.mapM Ptr.orDefault) fun a S' => a = texts.map orDefault ∧ S' = S := by
  induction h with
  | nil => exact Triple.pure ⟨rfl, rfl⟩
  | cons hfield _ ih =>
      rw [List.mapM_cons]
      exact (triple_orDefault hfield).seq (ih.seq (Triple.pure ⟨rfl, rfl⟩))

/-- What is left in flash by a save of these texts. -/
def savedFields (env : SaveEnv) (key : Key) (texts : List CString) (flash : Flash) : Flash :=
  if env.malloc then
    saveStringToNvs env key
      ((CString.commaJoin texts).snprintf ((texts.map CString.strlen).sum + texts.length)) flash
  else flash

/-- The buffer has room for the text, and does not outlive the save. -/
theorem triple_saveFields (env : Ptr.SaveEnv) (key : Key) {fields : List (Option ℕ)}
    {texts : List (Option CString)} (hne : fields ≠ [])
    (h : List.Forall₂ (FieldIn S) fields texts) :
    Triple E S (Ptr.saveFields env key fields flash) fun flash' S' =>
      S' = S ∧ flash' = savedFields env.toValues key (texts.map orDefault) flash := by
  rw [Ptr.saveFields]
  refine (triple_mapM_orDefault h).seq ?_
  refine (triple_malloc _ _).bind fun q S' hq => ?_
  obtain ⟨hq, rfl⟩ := hq
  cases q with
  | none =>
      have hvalues : env.toValues.malloc = false := hq.symm
      exact Triple.pure ⟨by simp [blockAt], by simp [savedFields, hvalues]⟩
  | some q =>
      have hvalues : env.toValues.malloc = true := hq.symm
      simp only [blockAt, Multiset.singleton_add]
      have hlive : List.Forall₂ (FieldIn ((q, ⟨((texts.map orDefault).map CString.strlen).sum +
          fields.length, none⟩) ::ₘ S)) fields texts :=
        h.imp fun p t hpt => ⟨hpt.isSome_eq, hpt.live.trans (Multiset.le_cons_self _ _)⟩
      refine (triple_mapM_orDefault hlive).seq ?_
      have hlen : fields.length = (texts.map orDefault).length := by
        rw [h.length_eq, List.length_map]
      have hfit : ((CString.commaJoin (texts.map orDefault)).snprintf
          (((texts.map orDefault).map CString.strlen).sum + fields.length)).strlen + 1 ≤
          ((texts.map orDefault).map CString.strlen).sum + fields.length := by
        have hpos := List.length_pos_of_ne_nil hne
        simp only [CString.snprintf, CString.strlen, List.length_take]
        omega
      refine (triple_write hfit).next fun _ => ?_
      refine (triple_read (Multiset.mem_cons_self _ _)).seq ?_
      refine triple_free.next fun _ => Triple.pure ⟨rfl, ?_⟩
      rw [savedFields, if_pos hvalues, ← hlen]
      rfl

end Saving

/-! ### Loading -/

section Loading

variable {E : HeapFault → Prop} {S : Blocks} {key : Key} {flash : Flash}

/-- The block of a text that was read belongs to the caller. -/
theorem triple_readStringFromNvs (env : Ptr.ReadEnv) :
    Triple E S (Ptr.readStringFromNvs env key flash) fun q S' =>
      q.isSome = (readStringFromNvs env.toValues key flash).isSome ∧
        S' = fieldBlock q (readStringFromNvs env.toValues key flash) + S := by
  rw [Ptr.readStringFromNvs]
  by_cases hopen : env.nvsOpen
  · rw [if_pos hopen]
    cases hkey : flash key with
    | none =>
        refine Triple.pure ?_
        simp [readStringFromNvs, Ptr.ReadEnv.toValues, hopen, hkey, fieldBlock]
    | some text =>
        by_cases hsize : env.nvsGetSize
        · simp only [hsize, if_true]
          refine (triple_malloc _ _).bind fun q S' hq => ?_
          obtain ⟨hq, rfl⟩ := hq
          cases q with
          | none =>
              have hvalues : env.malloc.isSome = false := hq.symm
              refine Triple.pure ?_
              simp only [readStringFromNvs, Ptr.ReadEnv.toValues, hopen, hsize, hkey, hvalues]
              simp [fieldBlock, blockAt]
          | some q =>
              have hvalues : env.malloc.isSome = true := hq.symm
              simp only [blockAt, Multiset.singleton_add]
              by_cases hget : env.nvsGetStr
              · simp only [hget, if_true]
                refine (triple_write le_rfl).next fun _ => Triple.pure ?_
                have hread : readStringFromNvs env.toValues key flash = some text := by
                  simp only [readStringFromNvs, Ptr.ReadEnv.toValues, hopen, hsize, hkey, hvalues,
                    hget, if_true]
                simp [hread, fieldBlock, textBlock]
              · simp only [hget, if_false, Bool.false_eq_true]
                refine triple_free.next fun _ => Triple.pure ?_
                simp [readStringFromNvs, Ptr.ReadEnv.toValues, hopen, hkey, hget, fieldBlock]
        · simp only [hsize, if_false, Bool.false_eq_true]
          refine Triple.pure ?_
          simp [readStringFromNvs, Ptr.ReadEnv.toValues, hopen, hkey, hsize, fieldBlock]
  · rw [if_neg hopen]
    exact Triple.pure (by simp [readStringFromNvs, Ptr.ReadEnv.toValues, hopen, fieldBlock])

/-- The text a load leaves behind: it was read, and could not be copied. -/
def ReadEnv.leaked (env : ReadEnv) (key : Key) (flash : Flash) : Option CString :=
  if env.strdup then none else readStringFromNvs env key flash

/-- The rule for a load: what `use` does to the copy decides, and where nothing is read the
state stays. -/
theorem triple_withCopy {α : Type} (env : Ptr.ReadEnv) {unchanged : α}
    {use : ℕ → CString → HeapM CString α} {Q : α → Blocks → Prop}
    (hnone : readStringFromNvs env.toValues key flash = none → Q unchanged S)
    (hleak : ∀ text p, readStringFromNvs env.toValues key flash = some text →
      env.toValues.strdup = false → Q unchanged ((p, textBlock text) ::ₘ S))
    (huse : ∀ text copy, readStringFromNvs env.toValues key flash = some text →
      env.toValues.strdup = true →
      Triple E ((copy, textBlock text) ::ₘ S) (use copy text) fun a S' =>
        ∃ S'', S' = (copy, textBlock text) ::ₘ S'' ∧ Q a S'') :
    Triple E S (Ptr.withCopy env key flash unchanged use) Q := by
  rw [Ptr.withCopy]
  refine (triple_readStringFromNvs env).bind fun q S' h => ?_
  obtain ⟨hq, rfl⟩ := h
  cases q with
  | none =>
      have hread := Option.isSome_eq_false_iff.mp hq.symm
      rw [Option.isNone_iff_eq_none] at hread
      refine Triple.pure ?_
      simpa [fieldBlock] using hnone hread
  | some q =>
      obtain ⟨text, hread⟩ := Option.isSome_iff_exists.mp hq.symm
      simp only [hread, fieldBlock, Multiset.singleton_add]
      refine (triple_read (Multiset.mem_cons_self _ _)).seq ?_
      refine (triple_malloc _ _).bind fun c S' hc => ?_
      obtain ⟨hc, rfl⟩ := hc
      cases c with
      | none =>
          refine Triple.pure ?_
          have hQ := hleak text q hread hc.symm
          rwa [← zero_add ((q, textBlock text) ::ₘ S)] at hQ
      | some c =>
          simp only [blockAt, Multiset.singleton_add]
          refine (triple_write le_rfl).next fun _ => ?_
          rw [Multiset.cons_swap]
          refine triple_free.next fun _ => ?_
          refine (huse text c hread hc.symm).bind fun a S' h => ?_
          obtain ⟨S'', rfl, hQ⟩ := h
          exact triple_free.next fun _ => Triple.pure hQ

theorem triple_dropPlaceholder {copy : ℕ} {text : CString} (hcopy : (copy, textBlock text) ∈ S)
    (token : Option CString) :
    Triple E S (Ptr.dropPlaceholder copy token) fun a S' =>
      a = CharPtr.ofToken copy (dropPlaceholder token) ∧ S' = S := by
  cases token with
  | none => exact Triple.pure ⟨rfl, rfl⟩
  | some s =>
      have hlive : (CharPtr.inside copy s).LiveIn S := ⟨_, _, hcopy⟩
      exact (triple_deref hlive rfl).seq (Triple.pure ⟨rfl, rfl⟩)

end Loading

end AndonConsole
